import NermalProxy.ArrayBounds
import NermalProxy.StaleEvents

/-! # What one client can do to the others

The handlers of a batch leave every session alone that no event and no message of the batch
is for.  All their results go into the one result of `ProcessSockets`, which ends the
process when it is false: that happens where `accept` fails. -/

namespace NermalProxy

open NermalProxy.CString NermalProxy.KeyedList NermalProxy.Config NermalProxy.Transition

namespace State

variable {state next : State} {settings : Settings} {sessionId : Nat}

/-! ## One step and another session -/

/-- The step changes neither the session nor its sockets. -/
structure Leaves (sessionId : Nat) (state next : State) : Prop where
  session : next.getSession sessionId = state.getSession sessionId
  sockets : next.socketsOf sessionId = state.socketsOf sessionId

theorem Leaves.refl (sessionId : Nat) (state : State) : Leaves sessionId state state := ⟨rfl, rfl⟩

theorem Leaves.trans {between : State} (first : Leaves sessionId state between)
    (second : Leaves sessionId between next) : Leaves sessionId state next :=
  ⟨second.session.trans first.session, second.sockets.trans first.sockets⟩

theorem Leaves.of_reject {session : Session} (other : sessionId ≠ session.sessionId) (now : UInt64)
    (response : Bytes) :
    Leaves sessionId state (SocketManager.reject settings now session response state) :=
  ⟨getSession_endSession_other other now, rfl⟩

theorem Leaves.of_update {named : Nat} (other : sessionId ≠ named) {change : Session → Session}
    (unchanged : ∀ x, (change x).key = x.key) :
    Leaves sessionId state (state.updateSession named change) :=
  ⟨getSession_updateSession_other change unchanged other, rfl⟩

theorem Leaves.of_addSocket (registered : Bool) {socket : ClientSocket}
    (other : sessionId ≠ socket.sessionId) :
    Leaves sessionId state (SocketManager.addSocket registered (.client socket) state) where
  session := SocketManager.addSocket_getSession registered socket sessionId
  sockets := by
    have outside : Socket.ofSession? sessionId (.client socket) = none := if_neg (Ne.symm other)
    rw [socketsOf_eq, socketsOf_eq, SocketManager.addSocket_sockets, List.filterMap_append]
    cases registered with
    | true => simp [outside]
    | false => simp

theorem Leaves.of_teardown (sound : state.ledger.Sound) {socket : ClientSocket}
    (search : lookup Socket.fd socket.socketFd state.sockets = some (.client socket))
    (other : sessionId ≠ socket.sessionId) (now : UInt64) :
    Leaves sessionId state (SocketManager.teardown settings now socket state) := by
  rw [teardown_eq search]
  constructor
  · obtain ⟨peer, found, -, -⟩ := lookup_peer sound (perm_cons_remove search)
    rw [removeSocket_peer found]
    exact getSession_endSession_other other now
  · rw [socketsOf_eq, socketsOf_eq]
    apply unlink_filterMap sound search
    intro client same
    exact if_neg (fun equal => other (equal.symm.trans same))

theorem Leaves.of_relayed {socket after : ClientSocket}
    (search : lookup Socket.fd socket.socketFd state.sockets = some (.client socket))
    (same : ClientSocket.SameSocket socket after) (other : sessionId ≠ socket.sessionId)
    (numRead numWritten : Nat) :
    Leaves sessionId state (State.updateSession
      { state with sockets := adjust Socket.fd socket.socketFd (fun _ => .client after) state.sockets }
      socket.sessionId (SocketManager.countBytes socket numRead numWritten)) where
  session := getSession_updateSession_other _ (countBytes_key socket numRead numWritten) other
  sockets := by
    have sameId : after.sessionId = socket.sessionId := by rw [same]
    have outside : ∀ client : ClientSocket, client.sessionId = socket.sessionId →
        Socket.ofSession? sessionId (.client client) = none :=
      fun client same => if_neg (fun equal => other (equal.symm.trans same))
    rw [socketsOf_eq, socketsOf_eq]
    exact filterMap_adjust search ((outside after sameId).trans (outside socket rfl).symm)

theorem leaves_relay (sound : state.ledger.Sound) {fd : Fd} {now : UInt64}
    {memory : ClientSocket.Memory} {reads : List ReadResult} {writes : List WriteResult}
    {socket : ClientSocket} (search : lookup Socket.fd fd state.sockets = some (.client socket))
    (other : sessionId ≠ socket.sessionId)
    (stepped : state.step settings (.relay fd now memory reads writes) = some next) :
    Leaves sessionId state next := by
  obtain rfl := Socket.socketFd_of_lookup search
  cases steps_of_step stepped with
  | teardown found =>
    rw [search] at found
    cases found
    exact .of_teardown sound search other now
  | relayed found same live =>
    rw [search] at found
    cases found
    exact .of_relayed search same other _ _

theorem leaves_command {message : Message} {rest : List Message} (pipe : state.pipe = message :: rest)
    (other : sessionId ≠ message.sessionId) {localTime : Option LocalTime} {now : UInt64}
    {registered : Bool × Bool}
    (stepped : state.step settings (.command localTime now registered) = some next) :
    Leaves sessionId state next := by
  have popped : ∀ rest : List Message, Leaves sessionId state { state with pipe := rest } :=
    fun _ => ⟨rfl, rfl⟩
  cases steps_of_step stepped with
  | undetected samePipe found | unconnected samePipe found =>
    rw [pipe] at samePipe
    cases samePipe
    have sameId := SessionManager.getSession_sessionId found
    exact (popped rest).trans (.of_reject (sameId ▸ other) now _)
  | refused samePipe found refusal =>
    rw [pipe] at samePipe
    cases samePipe
    have sameId := SessionManager.getSession_sessionId found
    exact ((popped rest).trans (.of_update other (setVerdictName_key _))).trans (.of_reject (sameId ▸ other) now _)
  | @blocked _ _ _ _ _ session samePipe found | @admitted _ _ _ _ _ session samePipe found =>
    rw [pipe] at samePipe
    cases samePipe
    have unchanged := setVerdictName_key (SocketManager.authorize settings localTime session)
    exact ((popped rest).trans (.of_update other unchanged)).trans ⟨rfl, rfl⟩
  | connected samePipe found =>
    rw [pipe] at samePipe
    cases samePipe
    exact ((popped rest).trans (.of_addSocket _ other)).trans (.of_addSocket _ other)

theorem leaves_accept (sound : state.ledger.Sound) {session : Session}
    (live : state.getSession sessionId = some session) {storage : SessionStorage} {now : UInt64}
    {clientFd : Fd} {clientIp : Bytes}
    (stepped : state.step settings (.accept storage now clientFd clientIp) = some next) :
    Leaves sessionId state next := by
  cases steps_of_step stepped with
  | accept unused created =>
    have new := createSession_new sound unused storage now
    rw [created] at new
    cases new
    have older : sessionId ≠ state.sessions.sessionId := (lt_of_getSession sound live).ne
    refine ⟨(getSession_updateSession_other (fun session => session.setClientAddress clientIp)
      (fun _ => rfl) older).trans ?_, rfl⟩
    cases congrArg Prod.fst created
    have inList : lookup Session.sessionId sessionId state.sessions.sessionList = some session := live
    change lookup _ _ (_ ++ _) = _
    rw [lookup_append, inList, live]
    rfl

theorem leaves_take (taken : state.step settings .take = some next) : Leaves sessionId state next := by
  cases steps_of_step taken with
  | take first => exact ⟨rfl, rfl⟩

theorem work_socketsOf (sessionId : Nat) {worker : Worker} {input : Input} {shared : State}
    {after : Option Pc} (worked : worker.step input state = some (shared, after)) :
    shared.socketsOf sessionId = state.socketsOf sessionId := by
  rw [socketsOf_eq, socketsOf_eq, (step_frame worked).sockets]

theorem leaves_work {index : Nat} {input : Input} {worker : Worker}
    (at_ : state.workers[index]? = some worker) (other : sessionId ≠ worker.sessionId)
    (stepped : state.step settings (.work index input) = some next) :
    Leaves sessionId state next := by
  cases steps_of_step stepped with
  | moved found worked | done found worked =>
    rw [at_] at found
    cases found
    have sameSession := getSession_step_other worked other
    have sameSockets := work_socketsOf sessionId worked
    exact ⟨sameSession, sameSockets⟩

/-- A worker leaves its session where it is. -/
theorem work_key (sound : next.ledger.Sound) {index : Nat} {input : Input}
    (stepped : state.step settings (.work index input) = some next) {session : Session}
    (live : state.getSession sessionId = some session) :
    next.socketsOf sessionId = state.socketsOf sessionId ∧
      ∃ after, next.getSession sessionId = some after ∧ after.key = session.key := by
  have key := getSession_key live
  have named := SessionManager.getSession_sessionId live
  cases steps_of_step stepped with
  | @moved _ _ _ shared _ at_ worked | @done _ _ _ shared at_ worked =>
    have sameSockets := work_socketsOf sessionId worked
    have stays : (sessionId, session.clientFd) ∈ shared.sessions.keys := by
      rw [(step_frame worked).keys]
      exact key
    obtain ⟨after, found, same⟩ := getSession_of_key sound stays
    exact ⟨sameSockets, after, found, by rw [same, Session.key, named]⟩

end State

namespace EventLoop

variable {settings : Settings} {polled loop next : EventLoop} {events : List Fd} {sessionId : Nat}

/-- Neither an event of the batch nor the message that it reads is for the session. -/
structure Untouched (polled : EventLoop) (events : List Fd) (sessionId : Nat) : Prop where
  noEvent : ∀ socket ∈ polled.state.socketsOf sessionId, socket.socketFd ∉ events
  noMessage : ∀ fd ∈ events, Socket.command fd ∈ polled.state.sockets →
    ∀ message rest, polled.state.pipe = message :: rest → message.sessionId ≠ sessionId

/-- The session's own worker has gone on. -/
def Works (sessionId : Nat) (entry : EventLoop × LoopAction) : Prop :=
  ∃ index input worker, entry.2 = .work index input ∧ entry.1.state.workers[index]? = some worker ∧
    worker.sessionId = sessionId

/-- Session and sockets are as they were, up to what the session's own worker has set. -/
structure Kept (polled : EventLoop) (after : LoopHistory) (loop : EventLoop) (sessionId : Nat)
    (session : Session) :
    Prop where
  sockets : loop.state.socketsOf sessionId = polled.state.socketsOf sessionId
  live : ∃ now, loop.state.getSession sessionId = some now ∧ now.key = session.key
  same : (∀ entry ∈ after, ¬ Works sessionId entry) → loop.state.getSession sessionId = some session

/-- The event of the listening socket for which `accept` fails. -/
def AcceptFails (entry : EventLoop × LoopAction) : Prop :=
  ∃ fd batch serverFd storage now, entry.1.batch = fd :: batch ∧
    lookup Socket.fd fd entry.1.state.sockets = some (.server serverFd) ∧
    entry.2 = .dispatch (.accept storage now none)

theorem Kept.leave {after : LoopHistory} {action : LoopAction} {session : Session}
    (kept : Kept polled after loop sessionId session)
    (leaves : State.Leaves sessionId loop.state next.state) :
    Kept polled (after ++ [(loop, action)]) next sessionId session where
  sockets := leaves.sockets.trans kept.sockets
  live := by
    rw [leaves.session]
    exact kept.live
  same idle := leaves.session.trans (kept.same (fun entry member => idle entry (List.mem_append_left _ member)))

/-- The socket that handles an event is of a session that the batch has an event for. -/
theorem SincePoll.other_session {after : LoopHistory} (since : SincePoll polled events after loop)
    (untouched : Untouched polled events sessionId) {fd : Fd} {batch : List Fd}
    (first : loop.batch = fd :: batch) {socket : ClientSocket}
    (found : lookup Socket.fd fd loop.state.sockets = some (.client socket)) :
    sessionId ≠ socket.sessionId := by
  intro same
  have inBatch : fd ∈ loop.batch := by simp [first]
  rcases since.objects fd inBatch with gone | ⟨unchanged, -⟩
  · rw [found] at gone
    cases gone
  · unfold Unchanged at unchanged
    cases before : lookup Socket.fd fd polled.state.sockets with
    | none => simp [found, before] at unchanged
    | some object =>
      rw [found, before, Option.map_some, Option.map_some, Option.some.injEq] at unchanged
      cases object with
      | client object =>
        simp only [Socket.identity, Socket.client.injEq, ClientSocket.mk.injEq] at unchanged
        have isSocket :=
          State.mem_socketsOf.mpr ⟨mem_of_lookup before, unchanged.2.2.2.2.symm.trans same.symm⟩
        have named : object.socketFd = fd := Socket.socketFd_of_lookup before
        exact untouched.noEvent object isSocket (named ▸ since.rest.subset inBatch)
      | server serverFd => cases unchanged
      | command commandFd => cases unchanged

theorem Kept.step {after : LoopHistory} {action : LoopAction} {session : Session}
    (kept : Kept polled after loop sessionId session) (since : SincePoll polled events after loop)
    (untouched : Untouched polled events sessionId) (sound : loop.state.ledger.Sound)
    (nextSound : next.state.ledger.Sound) (inCall : action.InCall)
    (stepped : loop.step settings action = some next) :
    Kept polled (after ++ [(loop, action)]) next sessionId session := by
  obtain ⟨now, live, key⟩ := kept.live
  cases (steps_of_step stepped).2 with
  | take taken => exact kept.leave (State.leaves_take taken)
  | @work index input state worked =>
    cases at_ : loop.state.workers[index]? with
    | none => simp [State.step, State.work, at_] at worked
    | some worker =>
      by_cases own : sessionId = worker.sessionId
      · obtain ⟨sockets, after, found, same⟩ := State.work_key nextSound worked live
        refine ⟨sockets.trans kept.sockets, ⟨after, found, same.trans key⟩, fun idle => ?_⟩
        have works : Works sessionId (loop, .work index input) :=
          ⟨index, input, worker, rfl, at_, own.symm⟩
        exact absurd works (idle _ (List.mem_append_right _ (List.mem_singleton_self _)))
      · exact kept.leave (State.leaves_work at_ own worked)
  | skipped first gone => exact kept.leave (.refl _ _)
  | acceptFails first found => exact kept.leave (.refl _ _)
  | accept first found accepted => exact kept.leave (State.leaves_accept sound live accepted)
  | @command _ _ _ fd _ _ _ first found handled =>
    obtain ⟨isListener, message, rest, more, polledPipe, pipe⟩ := since.message first found
    have inEvents : fd ∈ events := since.rest.subset (by simp [first])
    have other := untouched.noMessage fd inEvents (mem_listeners.mp isListener).1 message rest polledPipe
    exact kept.leave (State.leaves_command pipe (Ne.symm other) handled)
  | relay first found relayed =>
    exact kept.leave (State.leaves_relay sound found (since.other_session untouched first found) relayed)
  | poll | idle | interrupted | failed => cases inCall

theorem running_iff {action : LoopAction} (inCall : action.InCall)
    (stepped : loop.step settings action = some next) :
    next.running = true ↔ ¬ AcceptFails (loop, action) := by
  cases (steps_of_step stepped).2 with
  | skipped first gone =>
    simp only [true_iff]
    rintro ⟨fd, batch, serverFd, storage, now, again, found, -⟩
    rw [first] at again
    cases again
    rw [gone] at found
    cases found
  | acceptFails first found =>
    simp only [Bool.false_eq_true, false_iff, not_not]
    exact ⟨_, _, _, _, _, first, found, rfl⟩
  | poll | idle | interrupted | failed => cases inCall
  | _ => simp [AcceptFails]

/-! ## No handler gets stuck -/

/-- What the calls of the event's handler can return: a new descriptor is not open yet, and the
transfer of a relay socket comes to its end. -/
def Answers (state : State) (fd : Fd) (outcome : Outcome) : Prop :=
  match lookup Socket.fd fd state.sockets, outcome with
  | none, _ => True
  | some (.server _), .accept _ _ none => True
  | some (.server _), .accept _ _ (some (clientFd, _)) => clientFd ∉ state.openFds
  | some (.command _), .command .. => True
  | some (.client socket), .relay _ memory reads writes =>
    ∀ transfer, Relay.relay socket memory reads writes ≠ .pending transfer
  | _, _ => False

theorem dispatch_isSome {after : LoopHistory} (since : SincePoll polled events after loop)
    (sound : loop.state.ledger.Sound) (running : loop.running = true) {fd : Fd} {batch : List Fd}
    (first : loop.batch = fd :: batch) {outcome : Outcome} (answers : Answers loop.state fd outcome) :
    (loop.step settings (.dispatch outcome)).isSome = true := by
  simp only [step, running, Bool.true_eq_false, if_false, first]
  unfold Answers at answers
  cases found : lookup Socket.fd fd loop.state.sockets with
  | none => simp only [handle, found, Option.isSome_some]
  | some socket =>
    cases socket with
    | server serverFd =>
      cases outcome with
      | accept storage now accepted =>
        cases accepted with
        | none => simp only [handle, found, Option.isSome_some]
        | some accepted =>
          simp only [found] at answers
          simp [handle, found, State.step, answers, SocketManager.handleServerSocketRead,
            State.createSession_new sound answers]
      | command | relay => simp [found] at answers
    | command commandFd =>
      cases outcome with
      | command localTime now registered =>
        obtain ⟨-, message, rest, more, -, pipe⟩ := since.message first found
        have inPipe : message.sessionId ∈ loop.state.messageIds := by simp [State.messageIds, pipe]
        obtain ⟨session, live⟩ := State.live_of_token sound (State.token_of_messageIds inPipe)
        have stillLive : ({ loop.state with pipe := more } : State).getSession message.sessionId =
            some session := live
        have handled : (SocketManager.handleMessage settings localTime now registered message
            { loop.state with pipe := more }).isSome = true :=
          State.handleMessage_isSome stillLive localTime now registered
        simpa [handle, found, State.step, SocketManager.handleCommandSocketRead, pipe] using handled
      | accept | relay => simp [found] at answers
    | client socket =>
      cases outcome with
      | relay now memory reads writes =>
        have isSocket : Socket.client socket ∈ loop.state.sockets := mem_of_lookup found
        obtain ⟨session, live⟩ := State.live_of_token sound (State.token_of_socket sound isSocket)
        simp only [found] at answers
        have handled : (SocketManager.handleClientSocketRead settings now memory reads writes socket
            loop.state).isSome = true := State.handleClientSocketRead_isSome live answers
        simpa [handle, found, State.step] using handled
      | accept | command => simp [found] at answers

/-! ## A whole call -/

theorem running_of_run {before after : LoopHistory}
    (run : Run (loopSystem settings) LoopRegisters (before ++ (polled, .poll events) :: after) loop)
    (inCall : ∀ entry ∈ after, entry.2.InCall) :
    loop.running = true ↔ ∀ entry ∈ after, ¬ AcceptFails entry := by
  refine run.sinceAll (fun entry => entry.2.InCall)
    (fun after loop => loop.running = true ↔ ∀ entry ∈ after, ¬ AcceptFails entry) ?_ ?_ inCall
  · intro next polls
    cases (steps_of_step polls).2 with
    | poll empty ready => simp
  · intro after loop action next _ _ soFar inCall registers stepped
    have soFarNone := soFar.mp (steps_of_step stepped).1
    rw [running_iff inCall stepped, List.forall_mem_append, List.forall_mem_singleton]
    exact (and_iff_right soFarNone).symm

theorem kept_of_run {before after : LoopHistory}
    (run : Run (loopSystem settings) LoopRegisters (before ++ (polled, .poll events) :: after) loop)
    (inCall : ∀ entry ∈ after, entry.2.InCall) (untouched : Untouched polled events sessionId)
    {session : Session} (live : polled.state.getSession sessionId = some session) :
    Kept polled after loop sessionId session := by
  refine run.sinceAll (fun entry => entry.2.InCall)
    (fun after loop => Kept polled after loop sessionId session) ?_ ?_ inCall
  · intro next polls
    cases (steps_of_step polls).2 with
    | poll empty ready => exact ⟨rfl, ⟨session, live, rfl⟩, fun _ => live⟩
  · intro after loop action next earlier soFar kept inCall registers stepped
    have since := (sincePoll_of_run earlier soFar).2
    have nextSound := run_sound (earlier.snoc registers stepped)
    exact kept.step since untouched (run_sound earlier) nextSound inCall stepped

end EventLoop

end NermalProxy
