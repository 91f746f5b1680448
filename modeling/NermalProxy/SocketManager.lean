import Mathlib.Logic.Relation
import NermalProxy.Credentials
import NermalProxy.Relay
import NermalProxy.State

/-! # The main thread

`SocketManager` handles one event at a time: a new client, a message in the pipe, a
readable relay socket, or a timeout of `epoll_wait`.  A handler has no outcome when it
would follow a null session pointer. -/

namespace NermalProxy

open NermalProxy.CString NermalProxy.KeyedList NermalProxy.Config NermalProxy.Credentials

def clientError : Bytes := bytes "HTTP/1.0 400 Client Error\nConnection: close\r\n\r\n"

def forbidden : Bytes := bytes "HTTP/1.0 403 Forbidden\nConnection: close\r\n\r\n"

def authenticationRequired : Bytes :=
  bytes ("HTTP/1.0 407 Proxy Authentication Required\r\nServer: nermal\r\nContent-Type: text/html\r\n" ++
    "Proxy-Authenticate: Basic realm=\"Nermal\"\r\nConnection: close\r\n\r\n")

def notFound : Bytes := bytes "HTTP/1.0 404 Not Found\nConnection: close\r\n\r\n"

namespace SocketManager

/-- The destructor of a socket object. -/
def destroy (socket : Socket) (state : State) : State :=
  match socket with
  | .server fd => state.close fd
  | .command _ => state
  | .client socket => state.close socket.socketFd

/-- `AddSocket`; `registered` is whether `epoll_ctl` succeeds. -/
def addSocket (registered : Bool) (socket : Socket) (state : State) : State :=
  if registered then { state with sockets := state.sockets ++ [socket] } else destroy socket state

/-- The loops that remove the first socket with a descriptor. -/
def removeSocket (fd : Fd) (state : State) : State :=
  match lookup Socket.fd fd state.sockets with
  | none => state
  | some socket => destroy socket { state with sockets := remove Socket.fd fd state.sockets }

def isClient : Socket → Bool
  | .client _ => true
  | _ => false

/-! ## New clients -/

/-- `HandleServerSocketRead` when `Accept` returns this descriptor and address. -/
def handleServerSocketRead (storage : SessionStorage) (now : UInt64) (clientFd : Fd)
    (clientIp : Bytes) (state : State) : Option State :=
  let (sessions, session) := state.sessions.createSession storage clientFd now
  match session with
  | none => none
  | some session =>
    let state := { state with sessions, openFds := clientFd :: state.openFds }
    let state := state.updateSession session.sessionId (fun session => session.setClientAddress clientIp)
    some (state.dispatch (.asyncDetector session.sessionId))

/-! ## Messages -/

/-- Hands a response to `::write`, whatever that returns, closes the client's descriptor and ends the
session. -/
def reject (settings : Settings) (now : UInt64) (session : Session) (response : Bytes)
    (state : State) : State :=
  ((state.respond session.clientFd response).close session.clientFd).endSession settings now
    session.sessionId

/-- The outcome of the authentication of a session: the user name it sets, and the response
when it refuses. -/
structure Verdict where
  userName : Option Bytes
  refusal : Option Bytes
  deriving DecidableEq, Repr

/-- With a `Proxy-Authorization` header: `rawCreds` is what was read behind it. -/
def authorizeBasic (settings : Settings) (localTime : Option LocalTime) (rawCreds : Option Bytes) :
    Verdict :=
  let (canConnect, userName) :=
    match rawCreds with
    | some credString => AuthManager.authenticate settings.users credString []
    | none => (false, [])
  -- the name is stored even where the schedule then refuses
  let allowed := canConnect && AuthManager.accessAllowedAtTime settings.users localTime userName
  { userName := if canConnect then some userName else none
    refusal := if allowed then none else some forbidden }

/-- Without one: by the client's address. -/
def authorizeIp (settings : Settings) (localTime : Option LocalTime) (clientIp : Bytes) : Verdict :=
  match AuthManager.authenticateIp settings.users clientIp with
  | some username =>
    if AuthManager.accessAllowedAtTime settings.users localTime username then ⟨some username, none⟩
    else ⟨none, some forbidden⟩
  | none => ⟨none, some authenticationRequired⟩

def authorize (settings : Settings) (localTime : Option LocalTime) (session : Session) : Verdict :=
  if settings.authEnabled then
    match authorization session.request with
    | some rawCreds => authorizeBasic settings localTime rawCreds
    | none => authorizeIp settings localTime session.clientIp
  else ⟨none, none⟩

def setVerdictName (verdict : Verdict) (session : Session) : Session :=
  match verdict.userName with
  | some userName => session.setUserName userName
  | none => session

/-- `ConnectProxy`. -/
def connectProxy (settings : Settings) (sessionId : Nat) (state : State) : Option State :=
  match state.getSession sessionId with
  | none => none
  | some session =>
    -- a blocked host gets the message of a connector that has failed
    if !isAllowed settings.blacklists settings.policies session.userName session.hostUrl then
      some (state.writeMessage (.hostConnectResult sessionId (-1) false))
    else some (state.dispatch (.asyncConnector sessionId))

/-- `HandleCommandSocketRead` on the message it has read; `registered` are the results of the
two `epoll_ctl` calls. -/
def handleMessage (settings : Settings) (localTime : Option LocalTime) (now : UInt64)
    (registered : Bool × Bool) (message : Message) (state : State) : Option State :=
  match message with
  | .hostDetectResult sessionId success =>
    match state.getSession sessionId with
    | none => none
    | some session =>
      if success = false then some (reject settings now session clientError state)
      else
        -- the session gets its name before the refusal is looked at
        let verdict := authorize settings localTime session
        let state := state.updateSession sessionId (setVerdictName verdict)
        match verdict.refusal with
        | some response => some (reject settings now session response state)
        | none => connectProxy settings sessionId state
  | .hostConnectResult sessionId proxyFd success =>
    match state.getSession sessionId with
    | none => none
    | some session =>
      if success = false then some (reject settings now session notFound state)
      else
        -- the client's socket first; neither result is looked at
        let client := ClientSocket.make session.clientFd proxyFd sessionId true
        let proxy := ClientSocket.make proxyFd session.clientFd sessionId false
        some (addSocket registered.2 (.client proxy) (addSocket registered.1 (.client client) state))

/-- `HandleCommandSocketRead`; the pipe is only readable when there is a message in it. -/
def handleCommandSocketRead (settings : Settings) (localTime : Option LocalTime) (now : UInt64)
    (registered : Bool × Bool) (state : State) : Option State :=
  match state.pipe with
  | [] => none
  | message :: pipe => handleMessage settings localTime now registered message { state with pipe }

/-! ## Relay events -/

/-- Both sockets of a pair are removed and their session ends. -/
def teardown (settings : Settings) (now : UInt64) (socket : ClientSocket) (state : State) : State :=
  (removeSocket socket.peerFd (removeSocket socket.socketFd state)).endSession settings now
    socket.sessionId

def countBytes (socket : ClientSocket) (numRead numWritten : Nat) (session : Session) : Session :=
  -- what was written towards the origin, but what was read from it
  if socket.isClientToProxy then session.addRxBytes numWritten else session.addTxBytes numRead

/-- `HandleClientSocketRead`, once its calls have returned. -/
def handleClientSocketRead (settings : Settings) (now : UInt64) (memory : ClientSocket.Memory)
    (reads : List ReadResult) (writes : List WriteResult) (socket : ClientSocket) (state : State) :
    Option State :=
  match Relay.relay socket memory reads writes with
  | .pending _ => none
  | .teardown => some (teardown settings now socket state)
  | .relayed after numRead numWritten _ =>
    match state.getSession socket.sessionId with
    | none => none
    | some _ =>
      let state := { state with
        sockets := adjust Socket.fd socket.socketFd (fun _ => .client after) state.sockets }
      some (state.updateSession socket.sessionId (countBytes socket numRead numWritten))

section Relay

variable {settings : Settings} {now : UInt64} {memory : ClientSocket.Memory} {reads : List ReadResult}
  {writes : List WriteResult} {socket : ClientSocket} {state next : State}

/-- The outcomes of a relay event, with the state that each one leaves. -/
inductive RelayEnds (settings : Settings) (now : UInt64) (memory : ClientSocket.Memory)
    (reads : List ReadResult) (writes : List WriteResult) (socket : ClientSocket) (state : State) :
    State → Prop
  | teardown (outcome : Relay.relay socket memory reads writes = .teardown) :
      RelayEnds settings now memory reads writes socket state (teardown settings now socket state)
  | relayed {after : ClientSocket} {numRead numWritten : Nat} {transfer : Relay.Transfer}
      {session : Session}
      (outcome : Relay.relay socket memory reads writes = .relayed after numRead numWritten transfer)
      (found : state.getSession socket.sessionId = some session) :
      RelayEnds settings now memory reads writes socket state
        (State.updateSession
          { state with
            sockets := adjust Socket.fd socket.socketFd (fun _ => .client after) state.sockets }
          socket.sessionId (countBytes socket numRead numWritten))

theorem relayEnds_of_handled
    (handled : handleClientSocketRead settings now memory reads writes socket state = some next) :
    RelayEnds settings now memory reads writes socket state next := by
  unfold handleClientSocketRead at handled
  cases outcome : Relay.relay socket memory reads writes with
  | pending transfer => simp [outcome] at handled
  | teardown =>
    simp only [outcome, Option.some.injEq] at handled
    exact handled ▸ .teardown outcome
  | relayed after numRead numWritten transfer =>
    simp only [outcome] at handled
    split at handled
    · cases handled
    · rename_i found
      cases handled
      exact .relayed outcome found

end Relay

/-! ## Timeouts -/

/-- One turn of `PruneExcessConnections`; `none` when there is no client socket, which the loop
around it would never get out of. -/
def evictOldest (settings : Settings) (now : UInt64) (state : State) : Option State :=
  match state.sockets.find? isClient with
  | some (.client socket) =>
    let state := destroy (.client socket) { state with sockets := state.sockets.eraseP isClient }
    some ((removeSocket socket.peerFd state).endSession settings now socket.sessionId)
  | _ => none

def maxSockets : Nat := 200

/-- The loop of `PruneExcessConnections`; every turn removes a socket. -/
def pruneLoop (settings : Settings) (now : Nat → UInt64) : (turns : Nat) → State → Option State
  | 0, state => if state.sockets.length > maxSockets then none else some state
  | turns + 1, state =>
    if state.sockets.length > maxSockets then
      match evictOldest settings (now turns) state with
      | none => none
      | some state => pruneLoop settings now turns state
    else some state

def pruneExcessConnections (settings : Settings) (now : Nat → UInt64) (state : State) : Option State :=
  pruneLoop settings now state.sockets.length state

/-- What `ProcessSockets` does when `epoll_wait` times out. -/
def handleTimeout (settings : Settings) (now : Nat → UInt64) (logTime : UInt64) (state : State) :
    Option State :=
  match pruneExcessConnections settings now state with
  | none => none
  | some state =>
    -- the table is emptied whatever becomes of the files
    if state.stats.readyToLog logTime then
      some { state with stats := GlobalStats.logAndReset logTime }
    else some state

/-- One turn of the loop. -/
def Evicts (settings : Settings) (state next : State) : Prop :=
  ∃ now, evictOldest settings now state = some next

theorem pruneLoop_evicts {settings : Settings} {now : Nat → UInt64} {turns : Nat} {next : State} :
    ∀ {state : State}, pruneLoop settings now turns state = some next →
      Relation.ReflTransGen (Evicts settings) state next := by
  induction turns with
  | zero =>
    intro state pruned
    simp only [pruneLoop] at pruned
    split at pruned
    · cases pruned
    · cases pruned
      exact .refl
  | succ turns inductionHypothesis =>
    intro state pruned
    simp only [pruneLoop] at pruned
    split at pruned
    · split at pruned
      · cases pruned
      · rename_i evicted
        exact .head ⟨_, evicted⟩ (inductionHypothesis pruned)
    · cases pruned
      exact .refl

/-- A timeout evicts pairs, and may write the audit log. -/
theorem handleTimeout_evicts {settings : Settings} {now : Nat → UInt64} {logTime : UInt64}
    {state next : State} (handled : handleTimeout settings now logTime state = some next) :
    ∃ pruned, Relation.ReflTransGen (Evicts settings) state pruned ∧
      (next = pruned ∨ next = { pruned with stats := GlobalStats.logAndReset logTime }) := by
  unfold handleTimeout at handled
  split at handled
  · cases handled
  · rename_i pruned
    refine ⟨_, pruneLoop_evicts pruned, ?_⟩
    split at handled
    · cases handled
      exact .inr rfl
    · cases handled
      exact .inl rfl

end SocketManager

end NermalProxy
