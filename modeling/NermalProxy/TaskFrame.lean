import NermalProxy.Decisions

/-! # What a step does not look at

Neither a handler of the main thread nor a step of a worker looks at the queue or at the
other workers.  So what it does is the same whoever keeps them. -/

namespace NermalProxy

open NermalProxy.CString NermalProxy.KeyedList NermalProxy.Config NermalProxy.SocketManager

namespace State

/-- The state with another queue and other busy workers. -/
def withTasks (queue : List Task) (workers : List Worker) (state : State) : State :=
  { state with queue, workers }

variable {settings : Settings} (queue : List Task) (workers : List Worker) (state : State)

@[simp] theorem withTasks_sessions : (state.withTasks queue workers).sessions = state.sessions := rfl

@[simp] theorem withTasks_sockets : (state.withTasks queue workers).sockets = state.sockets := rfl

@[simp] theorem withTasks_pipe : (state.withTasks queue workers).pipe = state.pipe := rfl

@[simp] theorem withTasks_openFds : (state.withTasks queue workers).openFds = state.openFds := rfl

@[simp] theorem withTasks_stats : (state.withTasks queue workers).stats = state.stats := rfl

@[simp] theorem withTasks_getSession (sessionId : Nat) :
    (state.withTasks queue workers).getSession sessionId = state.getSession sessionId := rfl

theorem destroy_withTasks (socket : Socket) :
    destroy socket (state.withTasks queue workers) = (destroy socket state).withTasks queue workers := by
  cases socket <;> rfl

theorem addSocket_withTasks (registered : Bool) (socket : Socket) :
    addSocket registered socket (state.withTasks queue workers) =
      (addSocket registered socket state).withTasks queue workers := by
  cases registered with
  | false => exact destroy_withTasks queue workers state socket
  | true => rfl

theorem removeSocket_withTasks (fd : Fd) :
    removeSocket fd (state.withTasks queue workers) = (removeSocket fd state).withTasks queue workers := by
  unfold removeSocket
  rw [withTasks_sockets]
  cases lookup Socket.fd fd state.sockets with
  | none => rfl
  | some socket =>
    exact destroy_withTasks queue workers { state with sockets := remove Socket.fd fd state.sockets } socket

theorem endSession_withTasks (now : UInt64) (sessionId : Nat) :
    (state.withTasks queue workers).endSession settings now sessionId =
      (state.endSession settings now sessionId).withTasks queue workers := rfl

theorem updateSession_withTasks (sessionId : Nat) (change : Session → Session) :
    (state.withTasks queue workers).updateSession sessionId change =
      (state.updateSession sessionId change).withTasks queue workers := rfl

theorem reject_withTasks (now : UInt64) (session : Session) (response : Bytes) :
    reject settings now session response (state.withTasks queue workers) =
      (reject settings now session response state).withTasks queue workers := rfl

@[simp] theorem reject_queue (now : UInt64) (session : Session) (response : Bytes) :
    (reject settings now session response state).queue = state.queue := rfl

theorem teardown_withTasks (now : UInt64) (socket : ClientSocket) :
    teardown settings now socket (state.withTasks queue workers) =
      (teardown settings now socket state).withTasks queue workers := by
  unfold teardown
  rw [removeSocket_withTasks, removeSocket_withTasks, endSession_withTasks]

theorem evictOldest_withTasks (now : UInt64) :
    evictOldest settings now (state.withTasks queue workers) =
      (evictOldest settings now state).map (withTasks queue workers) := by
  unfold evictOldest
  rw [withTasks_sockets]
  cases state.sockets.find? isClient with
  | none => rfl
  | some socket =>
    cases socket with
    | client socket =>
      have removed := removeSocket_withTasks queue workers
        (destroy (.client socket) { state with sockets := state.sockets.eraseP isClient }) socket.peerFd
      exact congrArg (fun removed => some (endSession settings now removed socket.sessionId)) removed
    | _ => rfl

theorem pruneLoop_withTasks (now : Nat → UInt64) (turns : Nat) :
    pruneLoop settings now turns (state.withTasks queue workers) =
      (pruneLoop settings now turns state).map (withTasks queue workers) := by
  induction turns generalizing state with
  | zero =>
    by_cases crowded : state.sockets.length > maxSockets
    · have still : (state.withTasks queue workers).sockets.length > maxSockets := crowded
      simp only [pruneLoop, if_pos crowded, if_pos still, Option.map_none]
    · have still : ¬ (state.withTasks queue workers).sockets.length > maxSockets := crowded
      simp only [pruneLoop, if_neg crowded, if_neg still, Option.map_some]
  | succ turns inductionHypothesis =>
    by_cases crowded : state.sockets.length > maxSockets
    · have still : (state.withTasks queue workers).sockets.length > maxSockets := crowded
      simp only [pruneLoop, if_pos crowded, if_pos still, evictOldest_withTasks]
      cases evictOldest settings (now turns) state with
      | none => rfl
      | some evicted => exact inductionHypothesis evicted
    · have still : ¬ (state.withTasks queue workers).sockets.length > maxSockets := crowded
      simp only [pruneLoop, if_neg crowded, if_neg still, Option.map_some]

theorem handleTimeout_withTasks (now : Nat → UInt64) (logTime : UInt64) :
    handleTimeout settings now logTime (state.withTasks queue workers) =
      (handleTimeout settings now logTime state).map (withTasks queue workers) := by
  unfold handleTimeout pruneExcessConnections
  rw [pruneLoop_withTasks, withTasks_sockets]
  cases pruneLoop settings now state.sockets.length state with
  | none => rfl
  | some pruned =>
    by_cases ready : pruned.stats.readyToLog logTime
    · have still : (pruned.withTasks queue workers).stats.readyToLog logTime := ready
      simp only [Option.map_some, if_pos ready, if_pos still]
      rfl
    · have still : ¬ (pruned.withTasks queue workers).stats.readyToLog logTime := ready
      simp only [Option.map_some, if_neg ready, if_neg still]

theorem handleClientSocketRead_withTasks (now : UInt64) (memory : ClientSocket.Memory)
    (reads : List ReadResult) (writes : List WriteResult) (socket : ClientSocket) :
    handleClientSocketRead settings now memory reads writes socket (state.withTasks queue workers) =
      (handleClientSocketRead settings now memory reads writes socket state).map
        (withTasks queue workers) := by
  unfold handleClientSocketRead
  cases Relay.relay socket memory reads writes with
  | pending transfer => rfl
  | teardown => simp only [teardown_withTasks, Option.map_some]
  | relayed after numRead numWritten transfer =>
    simp only [withTasks_getSession, withTasks_sockets]
    cases state.getSession socket.sessionId <;> rfl

section Dispatches

variable (empty : state.queue = [])

include empty

theorem connectProxy_withTasks (sessionId : Nat) :
    connectProxy settings sessionId (state.withTasks queue workers) =
      (connectProxy settings sessionId state).map
        (fun next => next.withTasks (queue ++ next.queue) workers) := by
  unfold connectProxy
  rw [withTasks_getSession]
  cases state.getSession sessionId with
  | none => rfl
  | some session =>
    by_cases blocked : !isAllowed settings.blacklists settings.policies session.userName session.hostUrl
    · simp only [if_pos blocked, Option.map_some, writeMessage, empty, List.append_nil]
      rfl
    · simp only [if_neg blocked, Option.map_some, dispatch, empty, List.nil_append]
      rfl

theorem handleServerSocketRead_withTasks (storage : SessionStorage) (now : UInt64) (clientFd : Fd)
    (clientIp : Bytes) :
    handleServerSocketRead storage now clientFd clientIp (state.withTasks queue workers) =
      (handleServerSocketRead storage now clientFd clientIp state).map
        (fun next => next.withTasks (queue ++ next.queue) workers) := by
  simp only [handleServerSocketRead, withTasks_sessions]
  cases state.sessions.createSession storage clientFd now with
  | mk sessions created =>
    cases created with
    | none => rfl
    | some session =>
      simp only [Option.map_some, dispatch, updateSession, empty, List.nil_append]
      rfl

/-- What a handler dispatches is put behind the tasks that are there. -/
theorem handleMessage_withTasks (localTime : Option LocalTime) (now : UInt64)
    (registered : Bool × Bool) (message : Message) :
    handleMessage settings localTime now registered message (state.withTasks queue workers) =
      (handleMessage settings localTime now registered message state).map
        (fun next => next.withTasks (queue ++ next.queue) workers) := by
  cases message with
  | hostDetectResult sessionId success =>
    simp only [handleMessage, withTasks_getSession]
    cases state.getSession sessionId with
    | none => rfl
    | some session =>
      cases success with
      | false => simp [reject_queue, empty, reject_withTasks]
      | true =>
        simp only [Bool.true_eq_false, if_false, updateSession_withTasks]
        cases (authorize settings localTime session).refusal with
        | none =>
          exact connectProxy_withTasks queue workers (state.updateSession sessionId
            (setVerdictName (authorize settings localTime session))) empty sessionId
        | some response =>
          have unsaid : (state.updateSession sessionId
            (setVerdictName (authorize settings localTime session))).queue = [] := empty
          simp [reject_queue, unsaid, reject_withTasks]
  | hostConnectResult sessionId proxyFd success =>
    simp only [handleMessage, withTasks_getSession]
    cases state.getSession sessionId with
    | none => rfl
    | some session =>
      cases success with
      | false => simp [reject_queue, empty, reject_withTasks]
      | true =>
        obtain ⟨_, _, _, same⟩ := addSockets_frame registered.1 registered.2
          (.client (.make session.clientFd proxyFd sessionId true))
          (.client (.make proxyFd session.clientFd sessionId false)) state
        simp only [Bool.true_eq_false, if_false, addSocket_withTasks, Option.map_some, same, empty,
          List.append_nil]

/-- A handler that dispatches nothing. -/
theorem frame_withTasks {handler : State → Option State}
    (frame : ∀ state : State, ∀ queue workers, handler (state.withTasks queue workers) =
      (handler state).map (withTasks queue workers)) :
    handler (state.withTasks queue workers) =
      (handler state).map (fun next => next.withTasks (queue ++ next.queue) workers) := by
  rw [frame]
  cases handled : handler state with
  | none => rfl
  | some next =>
    have own : handler (state.withTasks [] state.workers) = handler state := by
      rw [← empty]
      rfl
    rw [frame, handled, Option.map_some] at own
    have none : next.queue = [] := by rw [← Option.some.inj own]; rfl
    rw [Option.map_some, Option.map_some, none, List.append_nil]

end Dispatches

end State

/-- The actions of the main thread. -/
def Action.onMain : Action → Bool
  | .take | .work .. => false
  | _ => true

namespace State

variable {settings : Settings} {state next : State}

/-- A handler of the main thread does not look at the tasks, and puts those it dispatches behind them. -/
theorem step_withTasks {action : Action} (main : action.onMain = true) (empty : state.queue = [])
    (queue : List Task) (workers : List Worker) :
    (state.withTasks queue workers).step settings action =
      (state.step settings action).map (fun next => next.withTasks (queue ++ next.queue) workers) := by
  cases action with
  | accept storage now clientFd clientIp =>
    by_cases used : clientFd ∈ state.openFds
    · have still : clientFd ∈ (state.withTasks queue workers).openFds := used
      simp only [step, if_pos used, if_pos still, Option.map_none]
    · have still : clientFd ∉ (state.withTasks queue workers).openFds := used
      simp only [step, if_neg used, if_neg still]
      exact handleServerSocketRead_withTasks queue workers state empty storage now clientFd clientIp
  | command localTime now registered =>
    simp only [step, handleCommandSocketRead, withTasks_pipe]
    cases state.pipe with
    | nil => rfl
    | cons message rest =>
      exact handleMessage_withTasks queue workers { state with pipe := rest } empty localTime now registered
        message
  | relay fd now memory reads writes =>
    simp only [step, withTasks_sockets]
    cases lookup Socket.fd fd state.sockets with
    | none => rfl
    | some socket =>
      cases socket with
      | client socket =>
        exact frame_withTasks queue workers state empty (fun state queue workers =>
          handleClientSocketRead_withTasks queue workers state now memory reads writes socket)
      | _ => rfl
  | timeout now logTime =>
    exact frame_withTasks queue workers state empty
      (fun state queue workers => handleTimeout_withTasks queue workers state now logTime)
  | take | work index input => cases main

/-- A handler dispatches one task at most, and leaves the workers alone. -/
theorem step_dispatches {action : Action} (main : action.onMain = true) (empty : state.queue = [])
    (stepped : state.step settings action = some next) :
    next.workers = state.workers ∧ (next.queue = [] ∨ ∃ task, next.queue = [task]) := by
  have own : (state.withTasks [] state.workers).step settings action = state.step settings action := by
    rw [← empty]
    rfl
  rw [step_withTasks main empty, stepped, Option.map_some] at own
  have workers : next.workers = state.workers := by
    rw [← Option.some.inj own]
    rfl
  refine ⟨workers, ?_⟩
  cases steps_of_step stepped with
  | accept unused created => exact .inr ⟨_, congrArg (· ++ [_]) empty⟩
  | admitted pipe found => exact .inr ⟨_, congrArg (· ++ [_]) empty⟩
  | connected pipe found =>
    obtain ⟨_, _, _, same⟩ := addSockets_frame _ _ _ _ _
    rw [same]
    exact .inl empty
  | teardown search =>
    obtain ⟨_, _, _, _, _, same⟩ := @teardown_frame settings _ _ state
    rw [same]
    exact .inl empty
  | timeout evictions | logged evictions =>
    obtain ⟨_, _, _, _, _, rfl⟩ := evictions_frame evictions
    exact .inl empty
  | take | moved | done => cases main
  | _ => exact .inl empty

end State

/-- A worker does not look at the tasks. -/
theorem Worker.step_withTasks (worker : Worker) (input : Input) (state : State) (queue : List Task)
    (workers : List Worker) :
    worker.step input (state.withTasks queue workers) =
      (worker.step input state).map (fun (next, after) => (next.withTasks queue workers, after)) := by
  obtain ⟨sessionId, pc⟩ := worker
  cases pc with
  | detectorEnter =>
    cases input with
    | none =>
      simp only [step, State.withTasks_getSession]
      cases state.getSession sessionId <;> rfl
    | _ => rfl
  | read clientFd =>
    cases input with
    | read result beyond =>
      simp only [step]
      cases Detector.asyncDetector result beyond <;> rfl
    | _ => rfl
  | connectorEnter =>
    cases input with
    | none =>
      simp only [step, State.withTasks_getSession]
      cases state.getSession sessionId <;> rfl
    | _ => rfl
  | resolve host port =>
    cases input with
    | resolver getaddrinfo now =>
      simp only [step]
      cases getaddrinfo host port with
      | none => rfl
      | some results =>
        cases found : firstAddress host results now with
        | none => simp [found]
        | some entry => simp [found]
    | _ => rfl
  | socket addresses =>
    cases input with
    | socket sockFd =>
      cases sockFd with
      | none => rfl
      | some sockFd =>
        by_cases used : sockFd ∈ state.openFds
        · have still : sockFd ∈ (state.withTasks queue workers).openFds := used
          simp only [step, if_pos used, if_pos still, Option.map_none]
        · have still : sockFd ∉ (state.withTasks queue workers).openFds := used
          simp only [step, if_neg used, if_neg still]
          rfl
    | _ => rfl
  | connect sockFd addresses =>
    cases addresses with
    | nil => cases input <;> rfl
    | cons address rest =>
      cases input with
      | network connect =>
        simp only [step, State.withTasks_getSession]
        split
        · rfl
        · cases state.getSession sessionId with
          | none => rfl
          | some session =>
            simp only
            cases connect address session.port <;> rfl
      | _ => rfl
  | clearCache =>
    cases input with
    | freed garbage =>
      simp only [step, State.withTasks_getSession]
      cases state.getSession sessionId <;> rfl
    | _ => rfl
  | resend sockFd =>
    cases input with
    | write result =>
      simp only [step, State.withTasks_getSession]
      cases state.getSession sessionId with
      | none => rfl
      | some session =>
        simp only
        split <;> rfl
    | _ => rfl
  | setOptions sockFd =>
    cases input with
    | none =>
      simp only [step, State.withTasks_getSession]
      cases state.getSession sessionId <;> rfl
    | _ => rfl
  | _ => cases input <;> rfl

end NermalProxy
