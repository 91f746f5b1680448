import Mathlib.Data.Fintype.EquivFin
import NermalProxy.EventLoop

/-! # The number of registered sockets

Nothing compares the number of registered sockets with `m_maxConcurrentConnections`: a
successful connection always registers its pair, and pruning only happens where `epoll_wait`
times out.  A call of `ProcessSockets` adds two sockets for a connection that it hears of
and takes two away for a pair that hangs up; without a bound on the difference the number grows
with the number of clients. -/

namespace NermalProxy

open NermalProxy.CString NermalProxy.KeyedList NermalProxy.Config NermalProxy.Transition

/-- `m_maxConcurrentConnections`. -/
def maxConcurrentConnections : Nat := 256

namespace SocketManager

variable {settings : Settings} {state next : State}

theorem removeSocket_le (fd : Fd) (state : State) :
    (removeSocket fd state).sockets.length ≤ state.sockets.length := by
  unfold removeSocket
  split
  · exact le_rfl
  · rename_i socket _
    have shorter : (remove Socket.fd fd state.sockets).length ≤ state.sockets.length :=
      (List.eraseP_sublist ..).length_le
    cases socket <;> exact shorter

theorem evictOldest_le {now : UInt64} (evicted : evictOldest settings now state = some next) :
    next.sockets.length ≤ state.sockets.length := by
  unfold evictOldest at evicted
  split at evicted
  · cases evicted
    exact (removeSocket_le _ _).trans (List.eraseP_sublist ..).length_le
  · cases evicted

theorem evictions_le (evictions : Relation.ReflTransGen (Evicts settings) state next) :
    next.sockets.length ≤ state.sockets.length := by
  induction evictions with
  | refl => exact le_rfl
  | tail _ eviction inductionHypothesis =>
    obtain ⟨now, evicted⟩ := eviction
    exact (evictOldest_le evicted).trans inductionHypothesis

/-- The loop only ends with at most 200 sockets. -/
theorem pruneLoop_bound {now : Nat → UInt64} {turns : Nat} :
    ∀ {state : State}, pruneLoop settings now turns state = some next →
      next.sockets.length ≤ maxSockets := by
  induction turns with
  | zero =>
    intro state pruned
    simp only [pruneLoop] at pruned
    split at pruned
    · cases pruned
    · rename_i few
      cases pruned
      exact Nat.le_of_not_lt few
  | succ turns inductionHypothesis =>
    intro state pruned
    simp only [pruneLoop] at pruned
    split at pruned
    · split at pruned
      · cases pruned
      · exact inductionHypothesis pruned
    · rename_i few
      cases pruned
      exact Nat.le_of_not_lt few

theorem handleTimeout_bound {now : Nat → UInt64} {logTime : UInt64}
    (handled : handleTimeout settings now logTime state = some next) :
    next.sockets.length ≤ maxSockets := by
  unfold handleTimeout at handled
  split at handled
  · cases handled
  · rename_i pruned
    have few := pruneLoop_bound pruned
    split at handled
    · cases handled
      exact few
    · cases handled
      exact few

end SocketManager

namespace State

variable {state next : State} {settings : Settings}

/-- The next message is that of a successful connection. -/
def connected (state : State) : Bool :=
  match state.pipe with
  | .hostConnectResult _ _ true :: _ => true
  | _ => false

/-- A connection is registered, and nothing else. -/
theorem command_sockets {localTime : Option LocalTime} {now : UInt64}
    (stepped : state.step settings (.command localTime now (true, true)) = some next) :
    next.sockets.length = state.sockets.length + 2 * state.connected.toNat := by
  cases steps_of_step stepped with
  | connected pipe =>
    rw [SocketManager.addSocket_sockets, SocketManager.addSocket_sockets]
    simp [connected, pipe]
  | undetected pipe | refused pipe | blocked pipe | admitted pipe | unconnected pipe =>
    simp [connected, pipe, SocketManager.reject, endSession, close, respond, updateSession, writeMessage,
      dispatch]

theorem teardown_sockets (sound : state.ledger.Sound) {socket : ClientSocket}
    (search : lookup Socket.fd socket.socketFd state.sockets = some (.client socket)) (now : UInt64) :
    (SocketManager.teardown settings now socket state).sockets.length + 2 = state.sockets.length := by
  obtain ⟨peer, found, -, -⟩ := lookup_peer sound (perm_cons_remove search)
  have whole := (perm_cons_remove search).length_eq
  have others := (perm_cons_remove found).length_eq
  simp only [List.length_cons] at whole others
  rw [teardown_eq search, removeSocket_peer found, whole, others]
  rfl

/-- An event takes the pair away just where its socket is not active any more. -/
theorem relay_sockets (sound : state.ledger.Sound) {fd : Fd} {now : UInt64}
    {memory : ClientSocket.Memory} {reads : List ReadResult} {writes : List WriteResult}
    {socket : ClientSocket} (search : lookup Socket.fd fd state.sockets = some (.client socket))
    (stepped : state.step settings (.relay fd now memory reads writes) = some next) :
    next.sockets.length + 2 * (!socket.isActive).toNat = state.sockets.length := by
  obtain rfl := Socket.socketFd_of_lookup search
  simp only [step, search] at stepped
  cases SocketManager.relayEnds_of_handled stepped with
  | teardown outcome =>
    rw [Relay.inactive_of_teardown outcome]
    exact teardown_sockets sound search now
  | relayed outcome live =>
    have active : socket.isActive = true := by
      by_contra inactive
      rw [Bool.not_eq_true] at inactive
      rw [Relay.relay_inactive inactive] at outcome
      cases outcome
    simp [active, updateSession, length_adjust]

theorem work_sockets {index : Nat} {input : Input}
    (stepped : state.step settings (.work index input) = some next) : next.sockets = state.sockets := by
  cases steps_of_step stepped with
  | moved _ worked | done _ worked => exact (step_frame worked).sockets

theorem timeout_sockets_le {now : Nat → UInt64} {logTime : UInt64}
    (stepped : state.step settings (.timeout now logTime) = some next) :
    next.sockets.length ≤ state.sockets.length := by
  cases steps_of_step stepped with
  | timeout evictions => exact SocketManager.evictions_le evictions
  | logged evictions =>
    have fewer := SocketManager.evictions_le evictions
    exact fewer

end State

/-! ## One more client -/

namespace State

variable {settings : Settings} {sockets : List Socket} {sessionId : Nat} {host : Bytes} {pc : Pc}
variable {state : State}

/-- What is on its way of a client's connection before it is registered. -/
inductive Stage where
  | queued (task : Task)
  | working (pc : Pc)
  | sent (message : Message)

def Stage.queue : Stage → List Task
  | .queued task => [task]
  | _ => []

def Stage.workers (sessionId : Nat) : Stage → List Worker
  | .working pc => [⟨sessionId, pc⟩]
  | _ => []

def Stage.pipe : Stage → List Message
  | .sent message => [message]
  | _ => []

def Reached (settings : Settings) (state : State) : Prop :=
  ∃ history, Run (proxySystem settings) Registers history state

theorem Reached.step {next : State} (reached : Reached settings state) {action : Action}
    (registers : Registers state action) (stepped : state.step settings action = some next) :
    Reached settings next := by
  obtain ⟨history, run⟩ := reached
  exact ⟨_, run.snoc registers stepped⟩

/-- Nothing is on its way. -/
structure Quiet (state : State) : Prop where
  queue : state.queue = []
  pipe : state.pipe = []
  workers : state.workers = []

/-- One client is at this stage, and nothing else is on its way. -/
structure Serving (settings : Settings) (sockets : List Socket) (sessionId : Nat) (host : Bytes)
    (stage : Stage) (state : State) : Prop where
  reached : Reached settings state
  sockets : state.sockets = sockets
  session : ∃ session, state.getSession sessionId = some session ∧ session.hostUrl = host
  queue : state.queue = stage.queue
  workers : state.workers = stage.workers sessionId
  pipe : state.pipe = stage.pipe

/-- A run brings a client to this stage. -/
def Serves (settings : Settings) (sockets : List Socket) (sessionId : Nat) (host : Bytes)
    (stage : Stage) : Prop :=
  ∃ state, Serving settings sockets sessionId host stage state

theorem Serving.moves (serving : Serving settings sockets sessionId host (.working pc) state)
    {input : Input} {shared : State} {next : Pc} {newHost : Bytes}
    (stepped : Worker.step ⟨sessionId, pc⟩ input state = some (shared, some next))
    (pipe : shared.pipe = state.pipe)
    (session : ∃ session, shared.getSession sessionId = some session ∧ session.hostUrl = newHost) :
    Serves settings sockets sessionId newHost (.working next) := by
  have frame := step_frame stepped
  have atWork : state.workers = [⟨sessionId, pc⟩] := serving.workers
  have worked : state.step settings (.work 0 input) =
      some { shared with workers := [⟨sessionId, next⟩] } := by
    simp [State.step, State.work, atWork, stepped, frame.workers]
  exact ⟨_, serving.reached.step (by exact trivial) worked, frame.sockets.trans serving.sockets, session,
    frame.queue.trans serving.queue, rfl, pipe.trans serving.pipe⟩

theorem Serving.replies (serving : Serving settings sockets sessionId host (.working pc) state)
    {shared : State} {message : Message}
    (stepped : Worker.step ⟨sessionId, pc⟩ .none state = some (shared, none))
    (pipe : shared.pipe = state.pipe ++ [message]) (sessions : shared.sessions = state.sessions) :
    Serves settings sockets sessionId host (.sent message) := by
  have frame := step_frame stepped
  have atWork : state.workers = [⟨sessionId, pc⟩] := serving.workers
  have worked : state.step settings (.work 0 .none) = some { shared with workers := [] } := by
    simp [State.step, State.work, atWork, stepped, frame.workers]
  refine ⟨_, serving.reached.step (by exact trivial) worked, frame.sockets.trans serving.sockets, ?_,
    frame.queue.trans serving.queue, rfl, ?_⟩
  · simp only [getSession, sessions]
    exact serving.session
  · simp [pipe, serving.pipe, Stage.pipe]

/-- A setter of the session. -/
theorem Serving.sets (serving : Serving settings sockets sessionId host (.working pc) state) {next : Pc}
    {newHost : Bytes} (change : Session → Session) (unchanged : ∀ x, (change x).key = x.key)
    (stepped : Worker.step ⟨sessionId, pc⟩ .none state =
      some (state.updateSession sessionId change, some next))
    (names : ∀ x : Session, x.hostUrl = host → (change x).hostUrl = newHost) :
    Serves settings sockets sessionId newHost (.working next) := by
  obtain ⟨session, found, named⟩ := serving.session
  refine serving.moves stepped rfl ⟨change session, ?_, names session named⟩
  exact (SessionManager.getSession_update_same unchanged).trans (congrArg (Option.map change) found)

theorem Serves.take {task : Task} (serves : Serves settings sockets sessionId host (.queued task))
    (starts : task.worker = ⟨sessionId, pc⟩) : Serves settings sockets sessionId host (.working pc) := by
  obtain ⟨state, serving⟩ := serves
  have queue : state.queue = [task] := serving.queue
  have atWork : state.workers = [] := serving.workers
  have taken : state.step settings .take =
      some { state with queue := [], workers := [⟨sessionId, pc⟩] } := by
    simp [State.step, State.take, queue, atWork, threadPoolSize, starts]
  have reached := serving.reached.step (by exact trivial) taken
  exact ⟨_, reached, serving.sockets, serving.session, rfl, rfl, serving.pipe⟩

/-! ### The detector -/

theorem serves_detector
    (serves : Serves settings sockets sessionId host (.queued (.asyncDetector sessionId)))
    {data : Bytes} {detection : Detector.Detection}
    (detected : Detector.asyncDetector (.data data) [] = some detection) :
    Serves settings sockets sessionId detection.host (.sent (.hostDetectResult sessionId true)) := by
  obtain ⟨_, entering⟩ := serves.take rfl
  obtain ⟨session, found, -⟩ := entering.session
  obtain ⟨_, reading⟩ := entering.moves
    (show Worker.step _ .none _ = some (_, some (.read session.clientFd)) by simp [Worker.step, found])
    rfl entering.session
  obtain ⟨_, atHost⟩ := reading.moves
    (show Worker.step _ (.read (.data data) []) _ = some (_, some (.setHost detection)) by
      simp only [Worker.step, detected])
    rfl reading.session
  obtain ⟨_, atPort⟩ := atHost.sets (fun session => session.setHost detection.host) (fun _ => rfl) rfl
    (fun _ _ => rfl)
  obtain ⟨_, atRequest⟩ := atPort.sets (fun session => session.setPort detection.port) (fun _ => rfl) rfl
    (fun _ named => named)
  obtain ⟨_, atTransparent⟩ := atRequest.sets (fun session => session.setRequest detection.request)
    (fun _ => rfl) rfl (fun _ named => named)
  obtain ⟨_, replying⟩ := atTransparent.sets (fun session => session.setTransparent detection.transparent)
    (fun _ => rfl) rfl (fun _ named => named)
  exact replying.replies rfl rfl rfl

/-! ### The main thread between them -/

/-- Without authentication and policies everything is admitted. -/
theorem serves_admitted (noAuth : settings.authEnabled = false) (noPolicies : settings.policies = [])
    (serves : Serves settings sockets sessionId host (.sent (.hostDetectResult sessionId true))) :
    Serves settings sockets sessionId host (.queued (.asyncConnector sessionId)) := by
  obtain ⟨state, serving⟩ := serves
  obtain ⟨session, found, named⟩ := serving.session
  have pipe : state.pipe = [.hostDetectResult sessionId true] := serving.pipe
  have queue : state.queue = [] := serving.queue
  have verdict : ∀ localTime, SocketManager.authorize settings localTime session = ⟨none, none⟩ := by
    simp [SocketManager.authorize, noAuth]
  have unchanged : SocketManager.setVerdictName ⟨none, none⟩ = fun session => session := rfl
  have admitted : ∀ userName,
      isAllowed settings.blacklists settings.policies userName session.hostUrl = true := by
    intro userName
    rw [isAllowed_iff, noPolicies]
    simp [UserPolicyList.userDomains]
  have stepped : state.step settings (.command none 0 (true, true)) =
      some { state with pipe := [], queue := [.asyncConnector sessionId] } := by
    have foundThen : State.getSession { state with pipe := [] } sessionId = some session := found
    simp only [State.step, SocketManager.handleCommandSocketRead, pipe, SocketManager.handleMessage,
      foundThen, Bool.true_eq_false, if_false, verdict, unchanged, updateSession,
      SessionManager.update_self, SocketManager.connectProxy]
    simp [admitted, dispatch, queue]
  have reached := serving.reached.step (by exact rfl) stepped
  exact ⟨_, reached, serving.sockets, ⟨session, found, named⟩, rfl, serving.workers, rfl⟩

/-! ### The connector -/

/-- Where the addresses come from, the cache or the resolver, they are the host's. -/
theorem serves_addresses {port : UInt16}
    (serves : Serves settings sockets sessionId host (.working (.lookupHost host port))) :
    ∃ address rest, address.url = host ∧
      Serves settings sockets sessionId host (.working (.socket (address :: rest))) := by
  obtain ⟨state, looking⟩ := serves
  let now : Nat → UInt64 := fun _ => 0
  cases cached : HostInfoCache.getCachedResults now host state.cache with
  | mk results cache =>
    cases results with
    | nil =>
      obtain ⟨_, resolving⟩ := looking.moves
        (show Worker.step _ (.clock now) state = some ({ state with cache }, some (.resolve host port)) by
          simp [Worker.step, cached])
        rfl looking.session
      let entry : HostInfoCache.HostInfo := ⟨host, bytes "10.0.0.9", 4, 0⟩
      obtain ⟨_, storing⟩ := resolving.moves
        (show Worker.step _ (.resolver (fun _ _ => some [⟨true, bytes "10.0.0.9"⟩]) 0) _ =
          some (_, some (.store entry)) from rfl)
        rfl resolving.session
      have stored := storing.moves
        (show Worker.step _ .none _ = some (_, some (.socket [entry])) from rfl)
        rfl storing.session
      exact ⟨entry, [], rfl, stored⟩
    | cons address rest =>
      have named : address.url = host := by
        have member : address ∈ (HostInfoCache.getCachedResults now host state.cache).1 := by
          simp [cached]
        exact (HostInfoCache.getCachedResults_found member).2.1
      exact ⟨address, rest, named, looking.moves
        (show Worker.step _ (.clock now) state =
            some ({ state with cache }, some (.socket (address :: rest))) by
          simp [Worker.step, cached])
        rfl looking.session⟩

theorem serves_resent {sockFd : Fd}
    (serves : Serves settings sockets sessionId host (.working (.resend sockFd))) :
    Serves settings sockets sessionId host (.working (.setOptions sockFd)) := by
  obtain ⟨state, resending⟩ := serves
  obtain ⟨session, found, -⟩ := resending.session
  let result : WriteResult := .accepts session.request.length
  cases transparent : session.transparent with
  | true =>
    exact resending.moves
      (show Worker.step _ (.write result) state =
          some (state.resend sockFd (result.accepted session.request), some (.setOptions sockFd)) by
        simp [Worker.step, found, transparent])
      rfl resending.session
  | false =>
    exact resending.moves
      (show Worker.step _ (.write result) state =
          some (state.respond session.clientFd okResponse, some (.setOptions sockFd)) by
        simp [Worker.step, found, transparent])
      rfl resending.session

theorem serves_connector (named : host ≠ sinkhole)
    (serves : Serves settings sockets sessionId host (.queued (.asyncConnector sessionId))) :
    ∃ sockFd,
      Serves settings sockets sessionId host (.sent (.hostConnectResult sessionId sockFd true)) := by
  obtain ⟨_, entering⟩ := serves.take rfl
  obtain ⟨session, found, rfl⟩ := entering.session
  have looking := entering.moves
    (show Worker.step _ .none _ = some (_, some (.lookupHost session.hostUrl session.port)) by
      simp [Worker.step, found])
    rfl entering.session
  obtain ⟨address, rest, url, state, creating⟩ := serves_addresses looking
  obtain ⟨sockFd, unused⟩ := Infinite.exists_notMem_finset state.openFds.toFinset
  obtain ⟨_, connecting⟩ := creating.moves
    (show Worker.step _ (.socket (some sockFd)) state =
        some ({ state with openFds := sockFd :: state.openFds },
          some (.connect sockFd (address :: rest))) by
      have free : sockFd ∉ state.openFds := by simpa using unused
      simp [Worker.step, free])
    rfl creating.session
  obtain ⟨live, liveFound, -⟩ := connecting.session
  have resending := connecting.moves
    (show Worker.step _ (.network (fun _ _ => .connected)) _ = some (_, some (.resend sockFd)) by
      simp [Worker.step, url, named, liveFound])
    rfl connecting.session
  obtain ⟨_, setting⟩ := serves_resent resending
  obtain ⟨last, lastFound, -⟩ := setting.session
  obtain ⟨_, replying⟩ := setting.moves
    (show Worker.step _ .none _ = some (_, some (.connectReply sockFd)) by simp [Worker.step, lastFound])
    rfl setting.session
  exact ⟨sockFd, replying.replies rfl rfl rfl⟩

/-! ### Registering its pair -/

theorem serves_registered {sockFd : Fd}
    (serves : Serves settings sockets sessionId host (.sent (.hostConnectResult sessionId sockFd true))) :
    ∃ next, Reached settings next ∧ next.Quiet ∧ next.sockets.length = sockets.length + 2 := by
  obtain ⟨state, serving⟩ := serves
  obtain ⟨session, found, -⟩ := serving.session
  have pipe : state.pipe = [.hostConnectResult sessionId sockFd true] := serving.pipe
  have stepped := connected_step settings pipe found none 0 (true, true)
  have grown := command_sockets stepped
  have one : state.connected = true := by rw [connected, pipe]
  rw [one] at grown
  rw [← serving.sockets]
  exact ⟨_, serving.reached.step (by exact rfl) stepped, ⟨serving.queue, rfl, serving.workers⟩, grown⟩

/-! ### Accepting it -/

theorem serves_accepted (reached : Reached settings state) (quiet : state.Quiet) :
    ∃ sessionId host,
      Serves settings state.sockets sessionId host (.queued (.asyncDetector sessionId)) := by
  obtain ⟨history, run⟩ := reached
  obtain ⟨clientFd, fresh⟩ := Infinite.exists_notMem_finset state.openFds.toFinset
  have unused : clientFd ∉ state.openFds := by simpa using fresh
  let storage : SessionStorage := ⟨false, 0, 0, 0⟩
  let sessionId := state.sessions.sessionId
  have created := createSession_new (run_sound run) unused storage 0
  let sessions := (state.sessions.createSession storage clientFd 0).1
  have stepped : state.step settings (.accept storage 0 clientFd []) =
      some ((State.updateSession { state with sessions, openFds := clientFd :: state.openFds } sessionId
        (fun session => session.setClientAddress [])).dispatch (.asyncDetector sessionId)) := by
    simp only [State.step, unused, if_false, SocketManager.handleServerSocketRead, created]
    rfl
  have listed :
      sessionId ∈ (sessions.update sessionId (fun session => session.setClientAddress [])).ids := by
    simp [sessions, SessionManager.createSession, SessionManager.update, SessionManager.ids,
      Session.make, sessionId, Session.setClientAddress]
  obtain ⟨session, found⟩ := SessionManager.mem_ids_iff.mp listed
  have queue : state.queue ++ [.asyncDetector sessionId] = [.asyncDetector sessionId] := by
    simp [quiet.queue]
  have served : Reached settings _ := ⟨_, run.snoc (by exact trivial) stepped⟩
  exact ⟨sessionId, session.hostUrl, _, served, rfl, ⟨session, found, rfl⟩, queue, quiet.workers,
    quiet.pipe⟩

/-- However many sockets are registered, another client gets its pair. -/
theorem serve_more (noAuth : settings.authEnabled = false) (noPolicies : settings.policies = [])
    (reached : Reached settings state) (quiet : state.Quiet) :
    ∃ next, Reached settings next ∧ next.Quiet ∧ next.sockets.length = state.sockets.length + 2 := by
  obtain ⟨data, detection, detected, named⟩ : ∃ data detection,
      Detector.asyncDetector (.data data) [] = some detection ∧ detection.host ≠ sinkhole :=
    ⟨bytes "CONNECT example.com:443 HTTP/1.1\r\n\r\n", _, rfl, by decide⟩
  obtain ⟨sessionId, host, accepted⟩ := serves_accepted reached quiet
  have admitted := serves_admitted noAuth noPolicies (serves_detector accepted detected)
  obtain ⟨sockFd, connected⟩ := serves_connector named admitted
  exact serves_registered connected

theorem serve_many (noAuth : settings.authEnabled = false) (noPolicies : settings.policies = [])
    (clients : Nat) :
    ∃ state, Reached settings state ∧ state.Quiet ∧ state.sockets.length = 2 + 2 * clients := by
  induction clients with
  | zero =>
    have started : Run (proxySystem settings) Registers [] (initial 3 4 [3, 4] 0) := .start initially
    exact ⟨_, ⟨_, started⟩, ⟨rfl, rfl, rfl⟩, rfl⟩
  | succ clients inductionHypothesis =>
    obtain ⟨state, reached, quiet, registered⟩ := inductionHypothesis
    obtain ⟨next, reachedNext, quietNext, more⟩ := serve_more noAuth noPolicies reached quiet
    exact ⟨next, reachedNext, quietNext, by omega⟩

end State

/-! ## Whole runs -/

namespace EventLoop

variable {settings : Settings} {loop next : EventLoop}

/-- Where `epoll_wait` times out, at most 200 sockets stay. -/
theorem idle_prunes {now : Nat → UInt64} {logTime : UInt64}
    (stepped : loop.step settings (.idle now logTime) = some next) :
    next.state.sockets.length ≤ SocketManager.maxSockets := by
  cases (steps_of_step stepped).2 with
  | idle _ timedOut => exact SocketManager.handleTimeout_bound timedOut

/-- The socket that the next event of the batch is for. -/
def event (loop : EventLoop) : Option Socket :=
  loop.batch.head?.bind (fun fd => lookup Socket.fd fd loop.state.sockets)

/-- The step reads the message of a successful connection. -/
def readsConnection (entry : EventLoop × LoopAction) : Bool :=
  match entry.2, entry.1.event with
  | .dispatch _, some (.command _) => entry.1.state.connected
  | _, _ => false

/-- The step handles the event of a socket that has had its end of stream or an error. -/
def hangsUp (entry : EventLoop × LoopAction) : Bool :=
  match entry.2, entry.1.event with
  | .dispatch _, some (.client socket) => !socket.isActive
  | _, _ => false

def connections (call : LoopHistory) : Nat := call.countP readsConnection

def hangUps (call : LoopHistory) : Nat := call.countP hangsUp

/-- The states that a run has been in. -/
def visited (history : LoopHistory) (loop : EventLoop) : List EventLoop := history.map Prod.fst ++ [loop]

/-- A call of `ProcessSockets` that has come to its end: its steps, and those of the pool meanwhile,
from the state in which `epoll_wait` has returned events. -/
def IsCall (history : LoopHistory) (loop polled : EventLoop) (call : LoopHistory) : Prop :=
  ∃ before events rest ended later, history = before ++ (polled, .poll events) :: (call ++ rest) ∧
    visited rest loop = ended :: later ∧ ended.batch = [] ∧ ∀ entry ∈ call, entry.1.batch ≠ []

def WithinLimit (loop : EventLoop) : Prop := loop.state.sockets.length ≤ maxConcurrentConnections

instance (loop : EventLoop) : Decidable loop.WithinLimit := inferInstanceAs (Decidable (_ ≤ _))

theorem event_of_first {fd : Fd} {batch : List Fd} (first : loop.batch = fd :: batch) :
    loop.event = lookup Socket.fd fd loop.state.sockets := by
  simp [event, first]

/-- Between two calls no socket is added. -/
theorem sockets_idle_le {action : LoopAction} (empty : loop.batch = []) (stillEmpty : next.batch = [])
    (stepped : loop.step settings action = some next) :
    next.state.sockets.length ≤ loop.state.sockets.length := by
  cases (steps_of_step stepped).2 with
  | take taken =>
    cases State.steps_of_step taken with
    | take => exact le_rfl
  | work worked => exact (congrArg List.length (State.work_sockets worked)).le
  | idle _ timedOut => exact State.timeout_sockets_le timedOut
  | interrupted | failed => exact le_rfl
  | poll _ ready => exact absurd stillEmpty ready.1
  | skipped first | accept first | command first | relay first =>
    exact absurd (first.symm.trans empty) (List.cons_ne_nil _ _)
  | acceptFails => exact le_rfl

/-- What a step of a call does to the number of sockets. -/
theorem sockets_step {action : LoopAction} (sound : loop.state.ledger.Sound) (inside : loop.batch ≠ [])
    (registers : LoopRegisters loop action) (stepped : loop.step settings action = some next) :
    next.state.sockets.length + 2 * (hangsUp (loop, action)).toNat =
      loop.state.sockets.length + 2 * (readsConnection (loop, action)).toNat := by
  cases (steps_of_step stepped).2 with
  | take taken =>
    cases State.steps_of_step taken with
    | take => rfl
  | work worked => exact congrArg List.length (State.work_sockets worked)
  | skipped first gone => simp [hangsUp, readsConnection, event_of_first first, gone]
  | acceptFails first found => simp [hangsUp, readsConnection, event_of_first first, found]
  | accept first found accepted =>
    cases State.steps_of_step accepted with
    | accept =>
      simp [hangsUp, readsConnection, event_of_first first, found, State.dispatch, State.updateSession]
  | command first found handled =>
    obtain rfl := registers
    simp only [hangsUp, readsConnection, event_of_first first, found]
    exact State.command_sockets handled
  | relay first found relayed =>
    simp only [hangsUp, readsConnection, event_of_first first, found]
    exact State.relay_sockets sound found relayed
  | poll empty | idle empty | interrupted empty | failed empty => exact absurd empty inside

theorem hangUps_snoc (call : LoopHistory) (entry : EventLoop × LoopAction) :
    hangUps (call ++ [entry]) = hangUps call + (hangsUp entry).toNat := by
  rw [hangUps, List.countP_append, List.countP_singleton]
  cases hangsUp entry <;> rfl

theorem connections_snoc (call : LoopHistory) (entry : EventLoop × LoopAction) :
    connections (call ++ [entry]) = connections call + (readsConnection entry).toNat := by
  rw [connections, List.countP_append, List.countP_singleton]
  cases readsConnection entry <;> rfl

theorem visited_snoc (history : LoopHistory) (loop next : EventLoop) (action : LoopAction) :
    visited (history ++ [(loop, action)]) next = visited history loop ++ [next] := by
  simp [visited]

/-- In a call the sockets become two more for each connection, and two fewer for each pair that hangs up. -/
theorem sockets_of_call {before call : LoopHistory} {events : List Fd}
    (run : Run (loopSystem settings) LoopRegisters (before ++ (polled, .poll events) :: call) loop)
    (inside : ∀ entry ∈ call, entry.1.batch ≠ []) :
    loop.state.sockets.length + 2 * hangUps call =
      polled.state.sockets.length + 2 * connections call := by
  refine run.sinceAll (fun entry => entry.1.batch ≠ []) (fun call loop =>
    loop.state.sockets.length + 2 * hangUps call =
      polled.state.sockets.length + 2 * connections call) ?_ ?_ inside
  · intro next polls
    cases (steps_of_step polls).2 with
    | poll empty ready => rfl
  · intro call loop action next earlier soFar counted inside registers stepped
    have change := sockets_step (run_sound earlier) inside registers stepped
    rw [hangUps_snoc, connections_snoc]
    omega

/-- A batch has been polled, and all steps since then are of the same call. -/
theorem open_call {history : LoopHistory} {allowed : EventLoop → LoopAction → Prop}
    (run : Run (loopSystem settings) allowed history loop) (inside : loop.batch ≠ []) :
    ∃ before polled events call, history = before ++ (polled, .poll events) :: call ∧
      ∀ entry ∈ call, entry.1.batch ≠ [] := by
  induction run with
  | start initially => exact absurd initially.2.1 inside
  | @snoc history loop next action earlier permitted stepped inductionHypothesis =>
    have further : loop.batch ≠ [] → ∃ before polled events call,
        history ++ [(loop, action)] = before ++ (polled, .poll events) :: call ∧
          ∀ entry ∈ call, entry.1.batch ≠ [] := by
      intro insideBefore
      obtain ⟨before, polled, events, call, rfl, all⟩ := inductionHypothesis insideBefore
      refine ⟨before, polled, events, call ++ [(loop, action)], by simp, ?_⟩
      exact List.forall_mem_append.mpr ⟨all, List.forall_mem_singleton.mpr insideBefore⟩
    cases (steps_of_step stepped).2 with
    | poll empty ready => exact ⟨history, loop, _, [], rfl, by simp⟩
    | take | work => exact further inside
    | skipped first | accept first | command first | relay first => exact further (by simp [first])
    | acceptFails | idle | failed => exact absurd rfl inside
    | interrupted empty => exact absurd empty inside

/-- The run up to the end of a call. -/
theorem IsCall.run {history call : LoopHistory} {allowed : EventLoop → LoopAction → Prop}
    (run : Run (loopSystem settings) allowed history loop) (isCall : IsCall history loop polled call) :
    ∃ before events ended, Run (loopSystem settings) allowed (before ++ (polled, .poll events) :: call) ended ∧
      ended ∈ visited history loop ∧ ended.batch = [] ∧ ∀ entry ∈ call, entry.1.batch ≠ [] := by
  obtain ⟨before, events, rest, ended, later, rfl, visits, empty, inside⟩ := isCall
  have reached : ended ∈ visited rest loop := by simp [visits]
  refine ⟨before, events, ended, ?_, ?_, empty, inside⟩
  · rw [← List.cons_append, ← List.append_assoc] at run
    cases rest with
    | nil =>
      cases visits
      simpa using run
    | cons entry rest =>
      obtain ⟨state, action⟩ := entry
      cases visits
      exact run.opened.1
  · simp only [visited, List.map_append, List.map_cons, List.mem_append, List.mem_cons] at reached ⊢
    tauto

theorem IsCall.snoc {history call : LoopHistory} {action : LoopAction}
    (isCall : IsCall history loop polled call) : IsCall (history ++ [(loop, action)]) next polled call := by
  obtain ⟨before, events, rest, ended, later, rfl, visits, ends⟩ := isCall
  refine ⟨before, events, rest ++ [(loop, action)], ended, later ++ [next], by simp, ?_, ends⟩
  rw [visited_snoc, visits, List.cons_append]

/-- A polled state stands between two calls. -/
theorem polled_between {before call : LoopHistory} {events : List Fd}
    (run : Run (loopSystem settings) LoopRegisters (before ++ (polled, .poll events) :: call) loop) :
    polled.batch = [] := by
  obtain ⟨-, -, next, polls⟩ := run.opened
  cases (steps_of_step polls).2 with
  | poll empty ready => exact empty

/-- The events until the pair of a first client is registered. -/
def firstClient : List LoopAction :=
  [.poll [3], .dispatch (.accept ⟨false, 0, 0, 0⟩ 7 (some (5, bytes "10.0.0.2"))),
    .take, .work 0 .none, .work 0 (.read (.data (bytes "CONNECT example.com:443 HTTP/1.1\r\n\r\n")) []),
    .work 0 .none, .work 0 .none, .work 0 .none, .work 0 .none, .work 0 .none,
    .poll [4], .dispatch (.command none 8 (true, true)),
    .take, .work 0 .none, .work 0 (.clock (fun _ => 8)),
    .work 0 (.resolver (fun _ _ => some [⟨true, bytes "10.0.0.9"⟩]) 9), .work 0 .none,
    .work 0 (.socket (some 6)), .work 0 (.network (fun _ _ => .connected)),
    .work 0 (.write (.accepts 19)), .work 0 .none, .work 0 .none,
    .poll [4], .dispatch (.command none 10 (true, true))]

end EventLoop

end NermalProxy
