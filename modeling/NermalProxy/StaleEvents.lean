import NermalProxy.EventLoop

/-! # Events that have gone stale

An event is matched to a socket by its descriptor, and while a batch is being handled its
descriptors may be closed, given out again and registered again.  At most one message is
read in a batch, and it is one that was in the pipe when the batch was polled: the
descriptors of the pair it has registered were open then, and not registered, so no event
of the batch is for them. -/

namespace NermalProxy

open NermalProxy.CString NermalProxy.KeyedList NermalProxy.Config NermalProxy.Transition

/-- A step inside a call of `ProcessSockets`, behind its `epoll_wait`, or one of the pool. -/
def LoopAction.InCall : LoopAction → Prop
  | .dispatch _ | .take | .work .. => True
  | _ => False

instance : DecidablePred LoopAction.InCall
  | .dispatch _ | .take | .work .. => inferInstanceAs (Decidable True)
  | .poll _ | .idle .. | .interrupted | .failed => inferInstanceAs (Decidable False)

namespace State

variable {state next : State} {settings : Settings}

/-- The descriptors of a session that has a message in the pipe are not registered. -/
theorem unregistered_of_message (sound : state.ledger.Sound) {sessionId : Nat} {fd : Fd}
    (owner : (sessionId, fd) ∈ state.owners) (message : sessionId ∈ state.messageIds) :
    fd ∉ state.sockets.map Socket.fd := by
  intro registered
  obtain ⟨socket, member, named⟩ := List.mem_map.mp registered
  obtain ⟨session, found⟩ := live_of_token sound (token_of_messageIds message)
  have sameId := SessionManager.getSession_sessionId found
  subst sameId
  have none := no_socket_of_message sound (SessionManager.mem_of_getSession found) message
  cases socket with
  | client socket =>
    have whose := (Owns.socket member named).unique sound owner
    simp only [Option.some.injEq] at whose
    have inSockets := mem_socketsOf.mpr ⟨member, whose⟩
    simp [none] at inSockets
  | server serverFd =>
    have whose := (Owns.fixed member (congrArg some named)).unique sound owner
    cases whose
  | command commandFd =>
    have whose := (Owns.fixed member (congrArg some named)).unique sound owner
    cases whose

end State

namespace EventLoop

variable {settings : Settings} {polled loop next : EventLoop} {events : List Fd}

/-- The object under a descriptor is still the one that was polled. -/
def Unchanged (fd : Fd) (polled loop : EventLoop) : Prop :=
  (lookup Socket.fd fd loop.state.sockets).map Socket.identity =
    (lookup Socket.fd fd polled.state.sockets).map Socket.identity

/-- What holds of the rest of a batch since it was polled. -/
structure SincePoll (polled : EventLoop) (events : List Fd) (after : LoopHistory)
    (loop : EventLoop) : Prop where
  rest : loop.batch.Sublist events
  listeners : loop.state.listeners = polled.state.listeners
  ledger : Relation.ReflTransGen Ledger.Step polled.state.ledger loop.state.ledger
  /-- The message of the batch is the one that was first in the pipe. -/
  unread : ∀ fd ∈ loop.batch, Socket.command fd ∈ polled.state.sockets →
    ∃ message rest more, polled.state.pipe = message :: rest ∧ loop.state.pipe = message :: more
  objects : ∀ fd ∈ loop.batch, lookup Socket.fd fd loop.state.sockets = none ∨
    Unchanged fd polled loop ∧ ∀ entry ∈ after, Unchanged fd polled entry.1

theorem SincePoll.start (ready : Ready polled.state events) :
    SincePoll polled events [] ⟨polled.state, events, true⟩ where
  rest := List.Sublist.refl _
  listeners := rfl
  ledger := .refl
  unread fd member command := by
    have readable := (ready.2.2.2 fd member).2 command
    cases pipe : polled.state.pipe with
    | nil => exact absurd pipe readable
    | cons message rest => exact ⟨message, rest, rest, rfl, rfl⟩
  objects fd member := .inr ⟨rfl, by simp⟩

/-- An object that is found now was found under its descriptor before the step. -/
theorem SincePoll.objects_step {after : LoopHistory} {action : LoopAction}
    (since : SincePoll polled events after loop) (sound : loop.state.ledger.Sound) {fd : Fd}
    (inBatch : fd ∈ loop.batch)
    (older : ∀ socket ∈ next.state.sockets, socket.fd = fd →
      ∃ before ∈ loop.state.sockets, before.identity = socket.identity) :
    lookup Socket.fd fd next.state.sockets = none ∨
      Unchanged fd polled next ∧ ∀ entry ∈ after ++ [(loop, action)], Unchanged fd polled entry.1 := by
  cases search : lookup Socket.fd fd next.state.sockets with
  | none => exact .inl rfl
  | some socket =>
    have named : socket.fd = fd := key_of_lookup search
    obtain ⟨before, member, same⟩ := older socket (mem_of_lookup search) named
    have found := lookup_registered sound member
    rw [Socket.fd_of_identity same, named] at found
    rcases since.objects fd inBatch with gone | ⟨unchanged, always⟩
    · rw [found] at gone
      cases gone
    · refine .inr ⟨?_, State.forall_snoc always unchanged⟩
      unfold Unchanged at unchanged ⊢
      rw [← unchanged, search, found, Option.map_some, Option.map_some, same]

theorem SincePoll.advance {after : LoopHistory} {action : LoopAction}
    (since : SincePoll polled events after loop) (sound : loop.state.ledger.Sound)
    (rest : next.batch.Sublist loop.batch) (listeners : next.state.listeners = loop.state.listeners)
    (ledger : Relation.ReflTransGen Ledger.Step loop.state.ledger next.state.ledger)
    (older : ∀ fd ∈ next.batch, ∀ socket ∈ next.state.sockets, socket.fd = fd →
      ∃ before ∈ loop.state.sockets, before.identity = socket.identity)
    (unread : ∀ fd ∈ next.batch, Socket.command fd ∈ polled.state.sockets →
      ∃ message rest more, polled.state.pipe = message :: rest ∧ next.state.pipe = message :: more) :
    SincePoll polled events (after ++ [(loop, action)]) next where
  rest := rest.trans since.rest
  listeners := listeners.trans since.listeners
  ledger := since.ledger.trans ledger
  unread := unread
  objects fd member := since.objects_step sound (rest.subset member) (older fd member)

/-- An event that nobody handles, or whose handler fails. -/
theorem SincePoll.drop {after : LoopHistory} {action : LoopAction}
    (since : SincePoll polled events after loop) (sound : loop.state.ledger.Sound) {batch : List Fd}
    (rest : batch.Sublist loop.batch) (running : Bool) :
    SincePoll polled events (after ++ [(loop, action)]) ⟨loop.state, batch, running⟩ :=
  since.advance sound rest rfl .refl (fun _ _ socket member _ => ⟨socket, member, rfl⟩)
    (fun fd member command => since.unread fd (rest.subset member) command)

/-- A step that reads no message. -/
theorem SincePoll.perform {after : LoopHistory} {action : LoopAction} {performed : Action}
    {state : State} (since : SincePoll polled events after loop) (sound : loop.state.ledger.Sound)
    (stepped : loop.state.step settings performed = some state)
    (registers : Registers loop.state performed)
    (notCommand : ∀ localTime now registered, performed ≠ .command localTime now registered)
    {batch : List Fd} (rest : batch.Sublist loop.batch) :
    SincePoll polled events (after ++ [(loop, action)]) ⟨state, batch, true⟩ := by
  refine since.advance sound rest (State.step_listeners sound registers stepped)
    (State.step_ledger sound registers stepped) ?_ ?_
  · intro fd _ socket member _
    rcases State.step_older sound stepped member with
      older | ⟨localTime, now, registered, _, _, _, _, isCommand, _⟩
    · exact older
    · exact absurd isCommand (notCommand localTime now registered)
  · intro fd member command
    obtain ⟨message, before, more, first, pipe⟩ := since.unread fd (rest.subset member) command
    rcases State.step_pipe stepped with ⟨localTime, now, registered, isCommand⟩ | ⟨appended, grown⟩
    · exact absurd isCommand (notCommand localTime now registered)
    · exact ⟨message, before, more ++ appended, first, by rw [grown, pipe, List.cons_append]⟩

/-- The pair that the batch's message has had registered is of descriptors that were open, and not
registered, when the batch was polled. -/
theorem SincePoll.registered_fresh {after : LoopHistory} (since : SincePoll polled events after loop)
    (polledSound : polled.state.ledger.Sound) {sessionId : Nat} {proxyFd : Fd} {rest : List Message}
    (first : polled.state.pipe = .hostConnectResult sessionId proxyFd true :: rest) {session : Session}
    (found : loop.state.getSession sessionId = some session) {fd : Fd}
    (registers : fd = session.clientFd ∨ fd = proxyFd) : fd ∉ polled.state.sockets.map Socket.fd := by
  have message : sessionId ∈ polled.state.messageIds := by
    simp [State.messageIds, first, Message.sessionId]
  apply State.unregistered_of_message polledSound ?_ message
  rcases registers with rfl | rfl
  · rcases Ledger.steps_sessions since.ledger (State.getSession_key found) with older | newer
    · exact Multiset.mem_add.mpr (.inl (Multiset.mem_add.mpr (.inl older)))
    · have token := polledSound.ids_lt sessionId
      rw [← polledSound.tokens_eq] at token
      exact absurd (token (State.token_of_messageIds message)) (Nat.not_lt.mpr newer)
  · rw [State.owners_pop first]
    exact Multiset.mem_add.mpr (.inl (List.mem_cons_self ..))

/-- An event of the pipe finds the message there that was first when the batch was polled. -/
theorem SincePoll.message {after : LoopHistory} (since : SincePoll polled events after loop)
    {fd commandFd : Fd} {batch : List Fd} (first : loop.batch = fd :: batch)
    (found : lookup Socket.fd fd loop.state.sockets = some (.command commandFd)) :
    Socket.command fd ∈ polled.state.listeners ∧
      ∃ message rest more, polled.state.pipe = message :: rest ∧ loop.state.pipe = message :: more := by
  have named : commandFd = fd := key_of_lookup found
  subst named
  have isListener : Socket.command commandFd ∈ polled.state.listeners := by
    rw [← since.listeners]
    exact mem_listeners.mpr ⟨mem_of_lookup found, by simp⟩
  exact ⟨isListener, since.unread commandFd (by simp [first]) (mem_listeners.mp isListener).1⟩

theorem SincePoll.read {after : LoopHistory} {action : LoopAction} {localTime : Option LocalTime}
    {now : UInt64} {registered : Bool × Bool} {state : State}
    (since : SincePoll polled events after loop) (polledSound : polled.state.ledger.Sound)
    (ready : Ready polled.state events)
    (listening : ∃ serverFd commandFd, polled.state.listeners = [.server serverFd, .command commandFd])
    (sound : loop.state.ledger.Sound)
    (registers : Registers loop.state (.command localTime now registered))
    (stepped : loop.state.step settings (.command localTime now registered) = some state)
    {fd commandFd : Fd} {batch : List Fd} (first : loop.batch = fd :: batch)
    (found : lookup Socket.fd fd loop.state.sockets = some (.command commandFd)) :
    SincePoll polled events (after ++ [(loop, action)]) ⟨state, batch, true⟩ := by
  obtain ⟨isListener, message, before, more, polledPipe, pipe⟩ := since.message first found
  have rest : batch.Sublist loop.batch := by
    rw [first]
    exact List.sublist_cons_self _ _
  refine since.advance sound rest (State.step_listeners sound registers stepped)
    (State.step_ledger sound registers stepped) ?_ ?_
  · intro fd member socket inSockets named
    rcases State.step_older sound stepped inSockets with older |
      ⟨_, _, _, sessionId, proxyFd, _, session, _, samePipe, live, onPair⟩
    · exact older
    · rw [pipe, List.cons.injEq] at samePipe
      rw [samePipe.1] at polledPipe
      have fresh := since.registered_fresh polledSound polledPipe live onPair
      rw [named] at fresh
      have inEvents := since.rest.subset (rest.subset member)
      exact absurd (ready.2.2.2 fd inEvents).1 fresh
  · intro fd member command
    obtain ⟨serverFd, onlyFd, listeners⟩ := listening
    have alsoListener : Socket.command fd ∈ polled.state.listeners := mem_listeners.mpr ⟨command, by simp⟩
    simp only [listeners, List.mem_cons, List.not_mem_nil, or_false, reduceCtorEq, false_or,
      Socket.command.injEq] at isListener alsoListener
    have nodup := since.rest.nodup ready.2.2.1
    rw [first, List.nodup_cons] at nodup
    rw [alsoListener, ← isListener] at member
    exact absurd member nodup.1

theorem SincePoll.step {after : LoopHistory} {action : LoopAction}
    (since : SincePoll polled events after loop) (polledSound : polled.state.ledger.Sound)
    (ready : Ready polled.state events)
    (listening : ∃ serverFd commandFd, polled.state.listeners = [.server serverFd, .command commandFd])
    (sound : loop.state.ledger.Sound) (registers : LoopRegisters loop action) (inCall : action.InCall)
    (stepped : loop.step settings action = some next) :
    SincePoll polled events (after ++ [(loop, action)]) next := by
  have tail : ∀ {fd : Fd} {batch : List Fd}, loop.batch = fd :: batch → batch.Sublist loop.batch := by
    intro fd batch first
    rw [first]
    exact List.sublist_cons_self _ _
  cases (steps_of_step stepped).2 with
  | take taken => exact since.perform sound taken trivial (by simp) (List.Sublist.refl _)
  | work worked => exact since.perform sound worked trivial (by simp) (List.Sublist.refl _)
  | skipped first gone => exact since.drop sound (tail first) true
  | acceptFails first found => exact since.drop sound (List.nil_sublist _) false
  | accept first found accepted => exact since.perform sound accepted trivial (by simp) (tail first)
  | command first found handled =>
    exact since.read polledSound ready listening sound registers handled first found
  | relay first found relayed => exact since.perform sound relayed trivial (by simp) (tail first)
  | poll | idle | interrupted | failed => cases inCall

theorem sincePoll_of_run {before after : LoopHistory}
    (run : Run (loopSystem settings) LoopRegisters (before ++ (polled, .poll events) :: after) loop)
    (inCall : ∀ entry ∈ after, entry.2.InCall) :
    Ready polled.state events ∧ SincePoll polled events after loop := by
  obtain ⟨earlier, -, next, poll⟩ := run.opened
  have proxyRun := run_shown (fun _ initially => initially.1) registers_of_performs earlier
  have ready : Ready polled.state events := by
    cases (steps_of_step poll).2 with
    | poll _ ready => exact ready
  refine ⟨ready, run.sinceAll (fun entry => entry.2.InCall) (SincePoll polled events) ?_ ?_ inCall⟩
  · intro next polls
    cases (steps_of_step polls).2 with
    | poll _ _ => exact .start ready
  · intro after loop action next soFar _ since inCall registers stepped
    exact since.step (State.run_sound proxyRun) ready (run_listeners proxyRun) (run_sound soFar) registers
      inCall stepped

/-- The next event of a batch is handled by the object that was registered under its descriptor when
the batch was polled, and has been ever since, or by none. -/
theorem stale_events {history : LoopHistory}
    (run : Run (loopSystem settings) LoopRegisters history loop) {before after : LoopHistory}
    (polledAt : history = before ++ (polled, .poll events) :: after)
    (inCall : ∀ entry ∈ after, entry.2.InCall) {fd : Fd} {batch : List Fd}
    (first : loop.batch = fd :: batch) :
    (lookup Socket.fd fd polled.state.sockets).isSome = true ∧
      ((lookup Socket.fd fd loop.state.sockets = none ∧
          ∀ outcome next, loop.step settings (.dispatch outcome) = some next → next.state = loop.state) ∨
        Unchanged fd polled loop ∧ ∀ entry ∈ after, Unchanged fd polled entry.1) := by
  subst polledAt
  obtain ⟨ready, since⟩ := sincePoll_of_run run inCall
  have inBatch : fd ∈ loop.batch := by simp [first]
  constructor
  · obtain ⟨socket, member, named⟩ := List.mem_map.mp (ready.2.2.2 fd (since.rest.subset inBatch)).1
    have found : ∃ found, lookup Socket.fd socket.fd polled.state.sockets = some found :=
      exists_lookup member
    rw [named] at found
    exact Option.isSome_iff_exists.mpr found
  · rcases since.objects fd inBatch with gone | unchanged
    · refine .inl ⟨gone, fun outcome next dispatched => ?_⟩
      obtain ⟨running, -⟩ := steps_of_step dispatched
      simp only [step, running, first, handle, gone] at dispatched
      cases dispatched
      rfl
    · exact .inr unchanged

/-- In one batch a pair is torn down, a new client gets its number, and the event of the old socket
comes up: nobody handles it. -/
theorem stale_events_reused : ∃ polled loop : EventLoop,
    (lookup Socket.fd 6 polled.state.sockets).isSome = true ∧ loop.batch = [6] ∧ 6 ∈ loop.state.openFds ∧
      ∀ outcome next, loop.step ⟨10080, false, [], [], []⟩ (.dispatch outcome) = some next →
        next.state = loop.state := by
  let relayed : List Action :=
    State.connect ++ [.command none 10 (true, true), .relay 5 11 (fun _ => 0) [.endOfStream] []]
  have executed : ∃ history state socket torn accepted,
      runActions (State.step State.unrestricted) [] (State.initial 3 4 [3, 4] 0) relayed = some (history, state) ∧
      state.sockets.map Socket.fd = [3, 4, 5, 6] ∧ (∀ fd ∈ [5, 3, 6], Socket.command fd ∉ state.sockets) ∧
      lookup Socket.fd 5 state.sockets = some (.client socket) ∧
      state.step State.unrestricted (.relay 5 12 (fun _ => 0) [] []) = some torn ∧
      lookup Socket.fd 3 torn.sockets = some (.server 3) ∧
      torn.step State.unrestricted (.accept ⟨false, 0, 0, 0⟩ 12 6 (bytes "10.0.0.3")) = some accepted ∧
      6 ∈ accepted.openFds ∧ lookup Socket.fd 6 accepted.sockets = none :=
    ⟨_, _, _, _, _, rfl, by decide, by decide, rfl, rfl, by decide, rfl, by decide, by decide⟩
  obtain ⟨history, state, socket, torn, accepted, executed, registered, notPipe, client, tornDown,
    server, accepts, reused, gone⟩ := executed
  have registers : ∀ action ∈ relayed, ∀ state, Registers state action :=
    List.forall_mem_append.mpr ⟨State.registers_connect, by simp [Registers]⟩
  have relays := State.run_of_executed registers executed
  obtain ⟨lifted, run, -⟩ := exists_lifted relays
  have ready : Ready state [5, 3, 6] := by
    refine ⟨by simp, by simp [eventsToProcess], by decide, fun fd member => ⟨?_, ?_⟩⟩
    · rw [registered]
      revert fd
      decide
    · exact fun isPipe => absurd isPipe (notPipe fd member)
  have polled : EventLoop.step State.unrestricted ⟨state, [], true⟩ (.poll [5, 3, 6]) =
      some ⟨state, [5, 3, 6], true⟩ := by
    simp [step, ready]
  have first : EventLoop.step State.unrestricted ⟨state, [5, 3, 6], true⟩
      (.dispatch (.relay 12 (fun _ => 0) [] [])) = some ⟨torn, [3, 6], true⟩ := by
    simp [step, handle, client, tornDown]
  have second : EventLoop.step State.unrestricted ⟨torn, [3, 6], true⟩
      (.dispatch (.accept ⟨false, 0, 0, 0⟩ 12 (some (6, bytes "10.0.0.3")))) =
        some ⟨accepted, [6], true⟩ := by
    simp [step, handle, server, accepts]
  have tornRun := (run.snoc (by exact trivial) polled).snoc (by exact trivial) first
  have batch := tornRun.snoc (by exact trivial) second
  rw [List.append_assoc, List.append_assoc] at batch
  obtain ⟨isRegistered, outcome⟩ := stale_events batch rfl (by simp [LoopAction.InCall]) rfl
  refine ⟨⟨state, [], true⟩, ⟨accepted, [6], true⟩, isRegistered, rfl, reused, ?_⟩
  rcases outcome with ⟨-, ignored⟩ | ⟨unchanged, -⟩
  · exact ignored
  · obtain ⟨socket, found⟩ := Option.isSome_iff_exists.mp isRegistered
    simp [Unchanged, gone, found] at unchanged

end EventLoop

end NermalProxy
