import NermalProxy.HandBack

/-! # Calls to the session manager

Sessions and audit table only change through calls to `SessionManager`, the setters of
`Session` and `GlobalStats`.  Every step of the proxy is a sequence of such calls. -/

namespace NermalProxy

open NermalProxy.CString NermalProxy.KeyedList NermalProxy.Config NermalProxy.Transition

/-- The setters of `Session`. -/
inductive Setter where
  | setRequest (request : Bytes)
  | setHost (host : Bytes)
  | setPort (port : Int)
  | setTransparent (transparent : Bool)
  | setClientAddress (ipAddress : Bytes)
  | setUserName (userName : Bytes)
  | addRxBytes (count : Nat)
  | addTxBytes (count : Nat)

def Setter.apply (session : Session) : Setter → Session
  | .setRequest request => session.setRequest request
  | .setHost host => session.setHost host
  | .setPort port => session.setPort port
  | .setTransparent transparent => session.setTransparent transparent
  | .setClientAddress ipAddress => session.setClientAddress ipAddress
  | .setUserName userName => session.setUserName userName
  | .addRxBytes count => session.addRxBytes count
  | .addTxBytes count => session.addTxBytes count

inductive SessionCall where
  | createSession (storage : SessionStorage) (clientFd : Fd) (now : UInt64)
  | update (sessionId : Nat) (setter : Setter)
  | endSession (sessionId : Nat) (now : UInt64)
  | logAndReset (now : UInt64)

/-- Neither creates a session nor counts bytes. -/
def SessionCall.IsQuiet : SessionCall → Prop
  | .createSession .. => False
  | .update _ (.addRxBytes _) => False
  | .update _ (.addTxBytes _) => False
  | _ => True

/-- What the calls read and change. -/
structure AuditState where
  settings : Settings
  sessions : SessionManager
  stats : GlobalStats

namespace AuditState

def call (state : AuditState) : SessionCall → AuditState
  | .createSession storage clientFd now =>
    { state with sessions := (state.sessions.createSession storage clientFd now).1 }
  | .update sessionId setter =>
    { state with sessions := state.sessions.update sessionId (fun session => setter.apply session) }
  | .endSession sessionId now =>
    let (sessions, stats) := state.sessions.endSession state.settings now sessionId state.stats
    { state with sessions, stats }
  | .logAndReset now => { state with stats := GlobalStats.logAndReset now }

variable {state middle next : AuditState} {permitted : SessionCall → Prop}

/-- A sequence of permitted calls. -/
def Performs (permitted : SessionCall → Prop) : AuditState → AuditState → Prop :=
  Relation.ReflTransGen (fun state next => ∃ call, permitted call ∧ next = state.call call)

theorem Performs.call {call : SessionCall} (allowed : permitted call) :
    Performs permitted state (state.call call) := .single ⟨call, allowed, rfl⟩

end AuditState

namespace State

variable {state next : State} {settings : Settings}

def audit (settings : Settings) (state : State) : AuditState := ⟨settings, state.sessions, state.stats⟩

/-- Only quiet calls lead from one state to the other. -/
def Quietly (settings : Settings) (state next : State) : Prop :=
  AuditState.Performs SessionCall.IsQuiet (state.audit settings) (next.audit settings)

theorem Quietly.refl (state : State) : Quietly settings state state := Relation.ReflTransGen.refl

theorem Quietly.trans {middle : State} (first : Quietly settings state middle)
    (second : Quietly settings middle next) : Quietly settings state next :=
  Relation.ReflTransGen.trans first second

theorem Quietly.of_same (sessions : next.sessions = state.sessions) (stats : next.stats = state.stats) :
    Quietly settings state next := by
  have same : next.audit settings = state.audit settings := by simp [audit, sessions, stats]
  rw [Quietly, same]
  exact Relation.ReflTransGen.refl

theorem Quietly.endSession (now : UInt64) (sessionId : Nat) :
    Quietly settings state (state.endSession settings now sessionId) :=
  AuditState.Performs.call (show SessionCall.IsQuiet (.endSession sessionId now) from trivial)

theorem Quietly.update (sessionId : Nat) (setter : Setter)
    (quiet : SessionCall.IsQuiet (.update sessionId setter)) :
    Quietly settings state (state.updateSession sessionId (fun session => setter.apply session)) :=
  AuditState.Performs.call quiet

/-! ## The main thread -/

theorem sessions_removeSocket (fd : Fd) (state : State) :
    (SocketManager.removeSocket fd state).sessions = state.sessions ∧
      (SocketManager.removeSocket fd state).stats = state.stats := by
  unfold SocketManager.removeSocket
  split
  · exact ⟨rfl, rfl⟩
  · rename_i socket _
    cases socket <;> exact ⟨rfl, rfl⟩

theorem Quietly.removeSocket (fd : Fd) : Quietly settings state (SocketManager.removeSocket fd state) :=
  .of_same (sessions_removeSocket fd state).1 (sessions_removeSocket fd state).2

theorem Quietly.addSocket (registered : Bool) (socket : ClientSocket) :
    Quietly settings state (SocketManager.addSocket registered (.client socket) state) := by
  unfold SocketManager.addSocket
  split
  · exact .of_same rfl rfl
  · exact .of_same rfl rfl

theorem Quietly.teardown (now : UInt64) (socket : ClientSocket) :
    Quietly settings state (SocketManager.teardown settings now socket state) :=
  ((Quietly.removeSocket socket.socketFd).trans (.removeSocket socket.peerFd)).trans
    (.endSession now socket.sessionId)

theorem Quietly.reject (now : UInt64) (session : Session) (response : Bytes) :
    Quietly settings state (SocketManager.reject settings now session response state) := by
  have closed : Quietly settings state
      ((state.respond session.clientFd response).close session.clientFd) := .of_same rfl rfl
  exact closed.trans (.endSession now session.sessionId)

theorem evicts_quietly (evicts : SocketManager.Evicts settings state next) :
    Quietly settings state next := by
  obtain ⟨now, evicted⟩ := evicts
  unfold SocketManager.evictOldest at evicted
  split at evicted
  · rename_i socket _
    cases evicted
    have removed : Quietly settings state (SocketManager.destroy (.client socket)
        { state with sockets := state.sockets.eraseP SocketManager.isClient }) := .of_same rfl rfl
    exact (removed.trans (.removeSocket socket.peerFd)).trans (.endSession now _)
  · cases evicted

theorem evictions_quietly (evictions : Relation.ReflTransGen (SocketManager.Evicts settings) state next) :
    Quietly settings state next := by
  induction evictions with
  | refl => exact .refl state
  | tail _ evicts inductionHypothesis => exact inductionHypothesis.trans (evicts_quietly evicts)

theorem Quietly.named (sessionId : Nat) (verdict : SocketManager.Verdict) :
    Quietly settings state (state.updateSession sessionId (SocketManager.setVerdictName verdict)) := by
  unfold SocketManager.setVerdictName
  cases verdict.userName with
  | none => exact .of_same (SessionManager.update_self sessionId) rfl
  | some userName => exact .update sessionId (.setUserName userName) trivial

theorem command_quietly {localTime : Option LocalTime} {now : UInt64} {registered : Bool × Bool}
    (stepped : state.step settings (.command localTime now registered) = some next) :
    Quietly settings state next := by
  have popped : ∀ rest : List Message, Quietly settings state { state with pipe := rest } :=
    fun _ => .of_same rfl rfl
  cases steps_of_step stepped with
  | undetected pipe found | unconnected pipe found => exact (popped _).trans (.reject now _ _)
  | refused pipe found refusal => exact ((popped _).trans (.named _ _)).trans (.reject now _ _)
  | blocked pipe found => exact ((popped _).trans (.named _ _)).trans (.of_same rfl rfl)
  | admitted pipe found => exact ((popped _).trans (.named _ _)).trans (.of_same rfl rfl)
  | connected pipe found => exact ((popped _).trans (.addSocket _ _)).trans (.addSocket _ _)

/-! ## The workers -/

theorem step_quietly {worker : Worker} {input : Input} {shared : State} {after : Option Pc}
    (stepped : worker.step input state = some (shared, after)) : Quietly settings state shared := by
  have steps := Worker.steps_of_step stepped
  obtain ⟨sessionId, pc⟩ := worker
  cases steps with
  | setHost => exact .update _ (.setHost _) trivial
  | setPort => exact .update _ (.setPort _) trivial
  | setRequest => exact .update _ (.setRequest _) trivial
  | setTransparent => exact .update _ (.setTransparent _) trivial
  | _ => exact .of_same rfl rfl

/-! ## Every step -/

/-- What a finished relay event adds to a counter. -/
def countSetter (socket : ClientSocket) (numRead numWritten : Nat) : Setter :=
  if socket.isClientToProxy then .addRxBytes numWritten else .addTxBytes numRead

theorem countSetter_apply (socket : ClientSocket) (numRead numWritten : Nat) (session : Session) :
    (countSetter socket numRead numWritten).apply session =
      SocketManager.countBytes socket numRead numWritten session := by
  unfold countSetter SocketManager.countBytes
  split <;> rfl

/-- The calls of each step: quiet ones, but for a new client and a relay event. -/
inductive StepCalls (settings : Settings) (state next : State) : Action → Prop
  | command {localTime : Option LocalTime} {now : UInt64} {registered : Bool × Bool}
      (quietly : Quietly settings state next) :
      StepCalls settings state next (.command localTime now registered)
  | timeout {now : Nat → UInt64} {logTime : UInt64} (quietly : Quietly settings state next) :
      StepCalls settings state next (.timeout now logTime)
  | take (quietly : Quietly settings state next) : StepCalls settings state next .take
  | work {index : Nat} {input : Input} (quietly : Quietly settings state next) :
      StepCalls settings state next (.work index input)
  | accepted {storage : SessionStorage} {now : UInt64} {clientFd : Fd} {clientIp : Bytes}
      {sessionId : Nat} (calls : next.audit settings =
        ((state.audit settings).call (.createSession storage clientFd now)).call
          (.update sessionId (.setClientAddress clientIp))) :
      StepCalls settings state next (.accept storage now clientFd clientIp)
  | teardown {fd : Fd} {now : UInt64} {memory : ClientSocket.Memory} {reads : List ReadResult}
      {writes : List WriteResult} {socket : ClientSocket}
      (search : lookup Socket.fd fd state.sockets = some (.client socket))
      (outcome : Relay.relay socket memory reads writes = .teardown)
      (quietly : Quietly settings state next) :
      StepCalls settings state next (.relay fd now memory reads writes)
  | relayed {fd : Fd} {now : UInt64} {memory : ClientSocket.Memory} {reads : List ReadResult}
      {writes : List WriteResult} {socket after : ClientSocket} {numRead numWritten : Nat}
      {transfer : Relay.Transfer} {session : Session}
      (search : lookup Socket.fd fd state.sockets = some (.client socket))
      (outcome : Relay.relay socket memory reads writes = .relayed after numRead numWritten transfer)
      (found : state.getSession socket.sessionId = some session)
      (calls : next.audit settings = (state.audit settings).call
        (.update socket.sessionId (countSetter socket numRead numWritten))) :
      StepCalls settings state next (.relay fd now memory reads writes)

theorem accept_calls {storage : SessionStorage} {now : UInt64} {clientFd : Fd} {clientIp : Bytes}
    (handled : SocketManager.handleServerSocketRead storage now clientFd clientIp state = some next) :
    StepCalls settings state next (.accept storage now clientFd clientIp) := by
  simp only [SocketManager.handleServerSocketRead] at handled
  split at handled
  · cases handled
  · cases handled
    exact .accepted rfl

theorem relay_calls {fd : Fd} {now : UInt64} {memory : ClientSocket.Memory}
    {reads : List ReadResult} {writes : List WriteResult} {socket : ClientSocket}
    (search : lookup Socket.fd fd state.sockets = some (.client socket))
    (handled : SocketManager.handleClientSocketRead settings now memory reads writes socket state =
      some next) : StepCalls settings state next (.relay fd now memory reads writes) := by
  cases SocketManager.relayEnds_of_handled handled with
  | teardown outcome => exact .teardown search outcome (.teardown now socket)
  | relayed outcome found =>
    refine .relayed search outcome found ?_
    simp only [AuditState.call, countSetter_apply]
    rfl

theorem step_calls {action : Action} (stepped : state.step settings action = some next) :
    StepCalls settings state next action := by
  cases action with
  | accept storage now clientFd clientIp =>
    simp only [step] at stepped
    split at stepped
    · cases stepped
    · exact accept_calls stepped
  | command localTime now registered => exact .command (command_quietly stepped)
  | relay fd now memory reads writes =>
    simp only [step] at stepped
    split at stepped
    · rename_i search
      exact relay_calls search stepped
    · cases stepped
  | timeout now logTime =>
    cases steps_of_step stepped with
    | timeout evictions => exact .timeout (evictions_quietly evictions)
    | logged evictions =>
      exact .timeout (Relation.ReflTransGen.tail (evictions_quietly evictions) ⟨.logAndReset logTime, trivial, rfl⟩)
  | take =>
    cases steps_of_step stepped with
    | take first => exact .take (.of_same rfl rfl)
  | work index input =>
    cases steps_of_step stepped with
    | moved at_ worked | done at_ worked => exact .work ((step_quietly worked).trans (.of_same rfl rfl))

end State

end NermalProxy
