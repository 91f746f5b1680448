import NermalProxy.SocketTable

/-! # What decides a message

The outcomes of the messages in the pipe, each with everything that was looked at for it,
and where a registered socket comes from. -/

namespace NermalProxy

open NermalProxy.CString NermalProxy.KeyedList NermalProxy.Config NermalProxy.SocketManager

/-- What becomes of a message that has been taken out of the pipe. -/
inductive Decides (settings : Settings) (localTime : Option LocalTime) (now : UInt64)
    (registered : Bool × Bool) (state : State) : Message → State → Prop
  | undetected {sessionId : Nat} {session : Session} (found : state.getSession sessionId = some session) :
      Decides settings localTime now registered state (.hostDetectResult sessionId false)
        (reject settings now session clientError state)
  | refused {sessionId : Nat} {session : Session} {response : Bytes}
      (found : state.getSession sessionId = some session)
      (refusal : (authorize settings localTime session).refusal = some response) :
      Decides settings localTime now registered state (.hostDetectResult sessionId true)
        (reject settings now session response
          (state.updateSession sessionId (setVerdictName (authorize settings localTime session))))
  | blocked {sessionId : Nat} {session : Session} (found : state.getSession sessionId = some session)
      (noRefusal : (authorize settings localTime session).refusal = none)
      (blocked : isAllowed settings.blacklists settings.policies
        (setVerdictName (authorize settings localTime session) session).userName session.hostUrl = false) :
      Decides settings localTime now registered state (.hostDetectResult sessionId true)
        ((state.updateSession sessionId (setVerdictName (authorize settings localTime session))).writeMessage
          (.hostConnectResult sessionId (-1) false))
  | admitted {sessionId : Nat} {session : Session} (found : state.getSession sessionId = some session)
      (noRefusal : (authorize settings localTime session).refusal = none)
      (allowed : isAllowed settings.blacklists settings.policies
        (setVerdictName (authorize settings localTime session) session).userName session.hostUrl = true) :
      Decides settings localTime now registered state (.hostDetectResult sessionId true)
        ((state.updateSession sessionId (setVerdictName (authorize settings localTime session))).dispatch
          (.asyncConnector sessionId))
  | unconnected {sessionId : Nat} {proxyFd : Fd} {session : Session}
      (found : state.getSession sessionId = some session) :
      Decides settings localTime now registered state (.hostConnectResult sessionId proxyFd false)
        (reject settings now session notFound state)
  | connected {sessionId : Nat} {proxyFd : Fd} {session : Session}
      (found : state.getSession sessionId = some session) :
      Decides settings localTime now registered state (.hostConnectResult sessionId proxyFd true)
        (addSocket registered.2 (.client (.make proxyFd session.clientFd sessionId false))
          (addSocket registered.1 (.client (.make session.clientFd proxyFd sessionId true)) state))

section

variable {settings : Settings} {localTime : Option LocalTime} {now : UInt64} {registered : Bool × Bool}
  {state next : State}

theorem setVerdictName_hostUrl (verdict : Verdict) (session : Session) :
    (setVerdictName verdict session).hostUrl = session.hostUrl := by
  unfold setVerdictName
  split <;> rfl

theorem decides_of_handled {message : Message}
    (handled : handleMessage settings localTime now registered message state = some next) :
    Decides settings localTime now registered state message next := by
  cases message with
  | hostDetectResult sessionId success =>
    simp only [handleMessage] at handled
    split at handled
    · cases handled
    · rename_i session found
      cases success with
      | false =>
        cases handled
        exact .undetected found
      | true =>
        have named := State.getSession_update_key
          (State.setVerdictName_key (authorize settings localTime session)) found
        simp only [Bool.true_eq_false, if_false] at handled
        split at handled
        · rename_i refusal
          cases handled
          exact .refused found refusal
        · rename_i noRefusal
          simp only [connectProxy, named, setVerdictName_hostUrl] at handled
          split at handled
          · rename_i blocked
            cases handled
            exact .blocked found noRefusal (by simpa using blocked)
          · rename_i allowed
            cases handled
            exact .admitted found noRefusal (by simpa using allowed)
  | hostConnectResult sessionId proxyFd success =>
    simp only [handleMessage] at handled
    split at handled
    · cases handled
    · rename_i session found
      cases success with
      | false =>
        cases handled
        exact .unconnected found
      | true =>
        cases handled
        exact .connected found

/-- The step of the main thread on the message that it takes out of the pipe. -/
theorem decides_of_step
    (stepped : state.step settings (.command localTime now registered) = some next) :
    ∃ message rest, state.pipe = message :: rest ∧
      Decides settings localTime now registered { state with pipe := rest } message next := by
  simp only [State.step, handleCommandSocketRead] at stepped
  split at stepped
  · cases stepped
  · rename_i message rest pipe
    exact ⟨message, rest, pipe, decides_of_handled stepped⟩

end

/-! ## What the registered sockets have nothing to do with -/

namespace SocketManager

variable {settings : Settings} {state next : State}

theorem destroy_frame (socket : Socket) (state : State) :
    ∃ openFds closed, destroy socket state = { state with openFds, closed } := by
  cases socket <;> exact ⟨_, _, rfl⟩

theorem addSocket_frame (registered : Bool) (socket : Socket) (state : State) :
    ∃ sockets openFds closed, addSocket registered socket state = { state with sockets, openFds, closed } := by
  unfold addSocket
  split
  · exact ⟨_, _, _, rfl⟩
  · obtain ⟨openFds, closed, same⟩ := destroy_frame socket state
    exact ⟨_, _, _, same⟩

theorem addSockets_frame (first second : Bool) (one other : Socket) (state : State) :
    ∃ sockets openFds closed, addSocket second other (addSocket first one state) =
      { state with sockets, openFds, closed } := by
  obtain ⟨_, _, _, added⟩ := addSocket_frame first one state
  obtain ⟨_, _, _, both⟩ := addSocket_frame second other (addSocket first one state)
  rw [both, added]
  exact ⟨_, _, _, rfl⟩

theorem removeSocket_frame (fd : Fd) (state : State) :
    ∃ sockets openFds closed, removeSocket fd state = { state with sockets, openFds, closed } := by
  unfold removeSocket
  split
  · exact ⟨_, _, _, rfl⟩
  · rename_i socket _
    obtain ⟨openFds, closed, same⟩ :=
      destroy_frame socket { state with sockets := remove Socket.fd fd state.sockets }
    exact ⟨_, _, _, same⟩

theorem teardown_frame (now : UInt64) (socket : ClientSocket) (state : State) :
    ∃ sockets openFds closed sessions stats, teardown settings now socket state =
      { state with sockets, openFds, closed, sessions, stats } := by
  obtain ⟨_, _, _, first⟩ := removeSocket_frame socket.socketFd state
  obtain ⟨_, _, _, second⟩ := removeSocket_frame socket.peerFd (removeSocket socket.socketFd state)
  unfold teardown
  rw [second, first]
  exact ⟨_, _, _, _, _, rfl⟩

theorem evictions_frame (evictions : Relation.ReflTransGen (Evicts settings) state next) :
    ∃ sockets openFds closed sessions stats,
      next = { state with sockets, openFds, closed, sessions, stats } := by
  induction evictions with
  | refl => exact ⟨_, _, _, _, _, rfl⟩
  | tail _ eviction inductionHypothesis =>
    obtain ⟨_, _, _, _, _, rfl⟩ := inductionHypothesis
    obtain ⟨now, evicted⟩ := eviction
    unfold evictOldest at evicted
    split at evicted
    · cases evicted
      obtain ⟨_, _, first⟩ := destroy_frame _ _
      obtain ⟨_, _, _, second⟩ := removeSocket_frame _ _
      rw [second, first]
      exact ⟨_, _, _, _, _, rfl⟩
    · cases evicted

end SocketManager

namespace State

variable {state next : State} {settings : Settings}

/-- Where a registered relay socket has come from in a step: it was there, or it is one of the pair
that a message has had registered. -/
inductive Registered (state : State) (action : Action) (socket : ClientSocket) : Prop
  | older {before : ClientSocket} (member : .client before ∈ state.sockets)
      (same : before.link = socket.link) (direction : before.isClientToProxy = socket.isClientToProxy) :
      Registered state action socket
  | paired {localTime : Option LocalTime} {now : UInt64} {registered : Bool × Bool} {sessionId : Nat}
      {proxyFd : Fd} {rest : List Message} {session : Session}
      (isCommand : action = .command localTime now registered)
      (pipe : state.pipe = .hostConnectResult sessionId proxyFd true :: rest)
      (found : state.getSession sessionId = some session)
      (isEnd : socket.clientEnd = ⟨sessionId, session.clientFd, proxyFd⟩) : Registered state action socket

theorem step_registers (sound : state.ledger.Sound) {action : Action}
    (stepped : state.step settings action = some next) {socket : ClientSocket}
    (member : .client socket ∈ next.sockets) : Registered state action socket := by
  have kept : .client socket ∈ state.sockets → Registered state action socket :=
    fun older => .older older rfl rfl
  cases steps_of_step stepped with
  | connected pipe found =>
    rw [addSocket_sockets, addSocket_sockets] at member
    rcases List.mem_append.mp member with earlier | proxy
    · rcases List.mem_append.mp earlier with older | client
      · exact kept older
      · split at client
        · cases List.mem_singleton.mp client
          exact .paired rfl pipe found rfl
        · cases client
    · split at proxy
      · cases List.mem_singleton.mp proxy
        exact .paired rfl pipe found rfl
      · cases proxy
  | teardown search =>
    obtain rfl := Socket.socketFd_of_lookup search
    rw [teardown_eq search] at member
    exact kept (unlink_older sound search _ member)
  | @relayed _ _ _ _ _ one after _ _ _ search same found =>
    obtain rfl := Socket.socketFd_of_lookup search
    rcases List.mem_cons.mp ((perm_cons_adjust search).subset member) with isAfter | older
    · cases isAfter
      rw [same]
      exact .older (mem_of_lookup search) rfl rfl
    · exact kept (mem_of_mem_remove older)
  | timeout evictions => exact kept (evictions_older sound evictions _ member)
  | logged evictions => exact kept (evictions_older sound evictions _ member)
  | moved at_ worked => exact kept ((step_frame worked).sockets ▸ member)
  | done at_ worked => exact kept ((step_frame worked).sockets ▸ member)
  | _ => exact kept member

end State

end NermalProxy
