import NermalProxy.Proxy

/-! # The steps of the proxy by what they found

Every branch of a handler that has an outcome, with that outcome written out.  Nothing
is assumed of the state or of the results of `epoll_ctl`. -/

namespace NermalProxy.State

open NermalProxy.CString NermalProxy.KeyedList NermalProxy.Config NermalProxy.SocketManager

inductive Steps (settings : Settings) (state : State) : Action → State → Prop
  | accept {storage : SessionStorage} {now : UInt64} {clientFd : Fd} {clientIp : Bytes}
      {sessions : SessionManager} {session : Session} (unused : clientFd ∉ state.openFds)
      (created : state.sessions.createSession storage clientFd now = (sessions, some session)) :
      Steps settings state (.accept storage now clientFd clientIp)
        ((State.updateSession { state with sessions, openFds := clientFd :: state.openFds }
          session.sessionId (fun session => session.setClientAddress clientIp)).dispatch
          (.asyncDetector session.sessionId))
  | undetected {localTime : Option LocalTime} {now : UInt64} {registered : Bool × Bool}
      {sessionId : Nat} {rest : List Message} {session : Session}
      (pipe : state.pipe = .hostDetectResult sessionId false :: rest)
      (found : state.getSession sessionId = some session) :
      Steps settings state (.command localTime now registered)
        (reject settings now session clientError { state with pipe := rest })
  | refused {localTime : Option LocalTime} {now : UInt64} {registered : Bool × Bool}
      {sessionId : Nat} {rest : List Message} {session : Session} {response : Bytes}
      (pipe : state.pipe = .hostDetectResult sessionId true :: rest)
      (found : state.getSession sessionId = some session)
      (refusal : (authorize settings localTime session).refusal = some response) :
      Steps settings state (.command localTime now registered)
        (reject settings now session response (State.updateSession { state with pipe := rest } sessionId
          (setVerdictName (authorize settings localTime session))))
  | blocked {localTime : Option LocalTime} {now : UInt64} {registered : Bool × Bool}
      {sessionId : Nat} {rest : List Message} {session : Session}
      (pipe : state.pipe = .hostDetectResult sessionId true :: rest)
      (found : state.getSession sessionId = some session) :
      Steps settings state (.command localTime now registered)
        ((State.updateSession { state with pipe := rest } sessionId
          (setVerdictName (authorize settings localTime session))).writeMessage
          (.hostConnectResult sessionId (-1) false))
  | admitted {localTime : Option LocalTime} {now : UInt64} {registered : Bool × Bool}
      {sessionId : Nat} {rest : List Message} {session : Session}
      (pipe : state.pipe = .hostDetectResult sessionId true :: rest)
      (found : state.getSession sessionId = some session) :
      Steps settings state (.command localTime now registered)
        ((State.updateSession { state with pipe := rest } sessionId
          (setVerdictName (authorize settings localTime session))).dispatch (.asyncConnector sessionId))
  | unconnected {localTime : Option LocalTime} {now : UInt64} {registered : Bool × Bool}
      {sessionId : Nat} {proxyFd : Fd} {rest : List Message} {session : Session}
      (pipe : state.pipe = .hostConnectResult sessionId proxyFd false :: rest)
      (found : state.getSession sessionId = some session) :
      Steps settings state (.command localTime now registered)
        (reject settings now session notFound { state with pipe := rest })
  | connected {localTime : Option LocalTime} {now : UInt64} {registered : Bool × Bool}
      {sessionId : Nat} {proxyFd : Fd} {rest : List Message} {session : Session}
      (pipe : state.pipe = .hostConnectResult sessionId proxyFd true :: rest)
      (found : state.getSession sessionId = some session) :
      Steps settings state (.command localTime now registered)
        (addSocket registered.2 (.client (.make proxyFd session.clientFd sessionId false))
          (addSocket registered.1 (.client (.make session.clientFd proxyFd sessionId true))
            { state with pipe := rest }))
  | teardown {fd : Fd} {now : UInt64} {memory : ClientSocket.Memory} {reads : List ReadResult}
      {writes : List WriteResult} {socket : ClientSocket}
      (search : lookup Socket.fd fd state.sockets = some (.client socket)) :
      Steps settings state (.relay fd now memory reads writes)
        (SocketManager.teardown settings now socket state)
  | relayed {fd : Fd} {now : UInt64} {memory : ClientSocket.Memory} {reads : List ReadResult}
      {writes : List WriteResult} {socket after : ClientSocket} {numRead numWritten : Nat}
      {session : Session} (search : lookup Socket.fd fd state.sockets = some (.client socket))
      (same : ClientSocket.SameSocket socket after)
      (found : state.getSession socket.sessionId = some session) :
      Steps settings state (.relay fd now memory reads writes)
        (State.updateSession
          { state with
            sockets := adjust Socket.fd socket.socketFd (fun _ => .client after) state.sockets }
          socket.sessionId (countBytes socket numRead numWritten))
  | timeout {now : Nat → UInt64} {logTime : UInt64} {pruned : State}
      (evictions : Relation.ReflTransGen (Evicts settings) state pruned) :
      Steps settings state (.timeout now logTime) pruned
  | logged {now : Nat → UInt64} {logTime : UInt64} {pruned : State}
      (evictions : Relation.ReflTransGen (Evicts settings) state pruned) :
      Steps settings state (.timeout now logTime)
        { pruned with stats := GlobalStats.logAndReset logTime }
  | take {task : Task} {queue : List Task} (first : state.queue = task :: queue) :
      Steps settings state .take { state with queue, workers := state.workers ++ [task.worker] }
  | moved {index : Nat} {input : Input} {worker : Worker} {shared : State} {pc : Pc}
      (at_ : state.workers[index]? = some worker)
      (stepped : worker.step input state = some (shared, some pc)) :
      Steps settings state (.work index input)
        { shared with workers := shared.workers.set index { worker with pc } }
  | done {index : Nat} {input : Input} {worker : Worker} {shared : State}
      (at_ : state.workers[index]? = some worker)
      (stepped : worker.step input state = some (shared, none)) :
      Steps settings state (.work index input)
        { shared with workers := shared.workers.eraseIdx index }

variable {settings : Settings} {state next : State}

theorem steps_of_message {localTime : Option LocalTime} {now : UInt64} {registered : Bool × Bool}
    {message : Message} {rest : List Message} (pipe : state.pipe = message :: rest)
    (handled : handleMessage settings localTime now registered message { state with pipe := rest } =
      some next) : Steps settings state (.command localTime now registered) next := by
  cases message with
  | hostDetectResult sessionId success =>
    simp only [handleMessage] at handled
    split at handled
    · cases handled
    · rename_i session found
      cases success with
      | false =>
        cases handled
        exact .undetected pipe found
      | true =>
        simp only [Bool.true_eq_false, if_false] at handled
        split at handled
        · rename_i refusal
          cases handled
          exact .refused pipe found refusal
        · unfold connectProxy at handled
          split at handled
          · cases handled
          · split at handled
            · cases handled
              exact .blocked pipe found
            · cases handled
              exact .admitted pipe found
  | hostConnectResult sessionId proxyFd success =>
    simp only [handleMessage] at handled
    split at handled
    · cases handled
    · rename_i session found
      cases success with
      | false =>
        cases handled
        exact .unconnected pipe found
      | true =>
        cases handled
        exact .connected pipe found

theorem steps_of_step {action : Action} (stepped : state.step settings action = some next) :
    Steps settings state action next := by
  cases action with
  | accept storage now clientFd clientIp =>
    simp only [step] at stepped
    split at stepped
    · cases stepped
    · rename_i unused
      unfold handleServerSocketRead at stepped
      cases created : state.sessions.createSession storage clientFd now with
      | mk sessions session =>
        cases session with
        | none => simp [created] at stepped
        | some session =>
          simp only [created, Option.some.injEq] at stepped
          exact stepped ▸ .accept unused created
  | command localTime now registered =>
    simp only [step, handleCommandSocketRead] at stepped
    split at stepped
    · cases stepped
    · rename_i pipe
      exact steps_of_message pipe stepped
  | relay fd now memory reads writes =>
    simp only [step] at stepped
    split at stepped
    · rename_i socket search
      cases relayEnds_of_handled stepped with
      | teardown outcome => exact .teardown search
      | relayed outcome found => exact .relayed search (Relay.relay_sameSocket outcome) found
    · cases stepped
  | timeout now logTime =>
    obtain ⟨pruned, evictions, rfl | rfl⟩ := handleTimeout_evicts stepped
    · exact .timeout evictions
    · exact .logged evictions
  | take =>
    simp only [step, State.take] at stepped
    split at stepped
    · cases stepped
    · rename_i first
      split at stepped
      · cases stepped
        exact .take first
      · cases stepped
  | work index input =>
    obtain ⟨worker, shared, after, at_, outcome, rfl⟩ := exists_of_work stepped
    cases after with
    | none => exact .done at_ outcome
    | some pc => exact .moved at_ outcome

end NermalProxy.State
