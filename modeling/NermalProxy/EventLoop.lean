import NermalProxy.Library.Simulation
import NermalProxy.SocketTable

/-! # The loop of the main thread

`ProcessSockets` waits for a batch of events and matches each of them to a socket by its
descriptor, in the order of the batch; between any two of its handlers the pool's threads
may go on.  `main` calls it until it returns false.  Seen from outside, the loop is the
proxy: every run of the one is a run of the other. -/

namespace NermalProxy

open NermalProxy.CString NermalProxy.KeyedList NermalProxy.Config NermalProxy.Transition

/-- `main` in its loop. -/
structure EventLoop where
  state : State
  /-- The events of the batch that have not been handled yet. -/
  batch : List Fd
  /-- Whether no call of `ProcessSockets` has returned false. -/
  running : Bool

/-- What the system calls of a handler return. -/
inductive Outcome where
  /-- `accept` fails or returns a descriptor and an address. -/
  | accept (storage : SessionStorage) (now : UInt64) (accepted : Option (Fd × Bytes))
  | command (localTime : Option LocalTime) (now : UInt64) (registered : Bool × Bool)
  | relay (now : UInt64) (memory : ClientSocket.Memory) (reads : List ReadResult) (writes : List WriteResult)

inductive LoopAction where
  /-- `epoll_wait` returns these events. -/
  | poll (events : List Fd)
  /-- `epoll_wait` times out. -/
  | idle (now : Nat → UInt64) (logTime : UInt64)
  /-- `epoll_wait` fails, with `EAGAIN` or `EINTR` or otherwise. -/
  | interrupted
  | failed
  /-- The next event of the batch. -/
  | dispatch (outcome : Outcome)
  | take
  | work (index : Nat) (input : Input)

namespace EventLoop

/-- `m_eventsToProcess`. -/
def eventsToProcess : Nat := 10

/-- What `epoll_wait` returns: registered descriptors, each at most once, and that of the pipe only
when there is a message in it. -/
def Ready (state : State) (events : List Fd) : Prop :=
  events ≠ [] ∧ events.length ≤ eventsToProcess ∧ events.Nodup ∧
    ∀ fd ∈ events, fd ∈ state.sockets.map Socket.fd ∧
      (Socket.command fd ∈ state.sockets → state.pipe ≠ [])

instance (state : State) (events : List Fd) : Decidable (Ready state events) :=
  inferInstanceAs (Decidable (_ ∧ _))

/-- The handler of an event and the rest of the batch. -/
def handle (settings : Settings) (fd : Fd) (batch : List Fd) (outcome : Outcome) (state : State) :
    Option EventLoop :=
  match lookup Socket.fd fd state.sockets, outcome with
  | none, _ => some ⟨state, batch, true⟩
  -- the only result of a handler that is false
  | some (.server _), .accept _ _ none => some ⟨state, [], false⟩
  | some (.server _), .accept storage now (some (clientFd, clientIp)) =>
    (state.step settings (.accept storage now clientFd clientIp)).map (⟨·, batch, true⟩)
  | some (.command _), .command localTime now registered =>
    (state.step settings (.command localTime now registered)).map (⟨·, batch, true⟩)
  | some (.client _), .relay now memory reads writes =>
    (state.step settings (.relay fd now memory reads writes)).map (⟨·, batch, true⟩)
  | _, _ => none

def step (settings : Settings) (loop : EventLoop) (action : LoopAction) : Option EventLoop :=
  if loop.running = false then none
  else
    match action with
    | .take => loop.state.take.map (⟨·, loop.batch, true⟩)
    | .work index input => (loop.state.work index input).map (⟨·, loop.batch, true⟩)
    | .dispatch outcome =>
      match loop.batch with
      | [] => none
      | fd :: batch => handle settings fd batch outcome loop.state
    | .poll events =>
      if loop.batch = [] ∧ Ready loop.state events then some ⟨loop.state, events, true⟩ else none
    | .idle now logTime =>
      if loop.batch = [] then (loop.state.step settings (.timeout now logTime)).map (⟨·, [], true⟩) else none
    | .interrupted => if loop.batch = [] then some loop else none
    | .failed => if loop.batch = [] then some ⟨loop.state, [], false⟩ else none

def Initial (loop : EventLoop) : Prop := loop.state.Initial ∧ loop.batch = [] ∧ loop.running = true

end EventLoop

def loopSystem (settings : Settings) : System EventLoop LoopAction :=
  System.ofFunction EventLoop.Initial (EventLoop.step settings)

abbrev LoopHistory := List (EventLoop × LoopAction)

/-- `epoll_ctl` does not fail. -/
def LoopRegisters (_ : EventLoop) : LoopAction → Prop
  | .dispatch (.command _ _ registered) => registered = (true, true)
  | _ => True

namespace EventLoop

variable {settings : Settings} {loop next : EventLoop} {state : State} {history : History}
  {lifted : LoopHistory}

theorem started {allowed : EventLoop → LoopAction → Prop} :
    Run (loopSystem settings) allowed [] ⟨State.initial 3 4 [3, 4] 0, [], true⟩ :=
  .start ⟨State.initially, rfl, rfl⟩

/-- The steps of the loop by what they found. -/
inductive Steps (settings : Settings) (loop : EventLoop) : LoopAction → EventLoop → Prop
  | take {state : State} (stepped : loop.state.step settings .take = some state) :
      Steps settings loop .take ⟨state, loop.batch, true⟩
  | work {index : Nat} {input : Input} {state : State}
      (stepped : loop.state.step settings (.work index input) = some state) :
      Steps settings loop (.work index input) ⟨state, loop.batch, true⟩
  | skipped {outcome : Outcome} {fd : Fd} {batch : List Fd} (first : loop.batch = fd :: batch)
      (gone : lookup Socket.fd fd loop.state.sockets = none) :
      Steps settings loop (.dispatch outcome) ⟨loop.state, batch, true⟩
  | acceptFails {storage : SessionStorage} {now : UInt64} {fd serverFd : Fd} {batch : List Fd}
      (first : loop.batch = fd :: batch)
      (found : lookup Socket.fd fd loop.state.sockets = some (.server serverFd)) :
      Steps settings loop (.dispatch (.accept storage now none)) ⟨loop.state, [], false⟩
  | accept {storage : SessionStorage} {now : UInt64} {clientFd : Fd} {clientIp : Bytes} {fd serverFd : Fd}
      {batch : List Fd} {state : State} (first : loop.batch = fd :: batch)
      (found : lookup Socket.fd fd loop.state.sockets = some (.server serverFd))
      (stepped : loop.state.step settings (.accept storage now clientFd clientIp) = some state) :
      Steps settings loop (.dispatch (.accept storage now (some (clientFd, clientIp))))
        ⟨state, batch, true⟩
  | command {localTime : Option LocalTime} {now : UInt64} {registered : Bool × Bool} {fd commandFd : Fd}
      {batch : List Fd} {state : State} (first : loop.batch = fd :: batch)
      (found : lookup Socket.fd fd loop.state.sockets = some (.command commandFd))
      (stepped : loop.state.step settings (.command localTime now registered) = some state) :
      Steps settings loop (.dispatch (.command localTime now registered)) ⟨state, batch, true⟩
  | relay {now : UInt64} {memory : ClientSocket.Memory} {reads : List ReadResult}
      {writes : List WriteResult} {fd : Fd} {socket : ClientSocket} {batch : List Fd} {state : State}
      (first : loop.batch = fd :: batch)
      (found : lookup Socket.fd fd loop.state.sockets = some (.client socket))
      (stepped : loop.state.step settings (.relay fd now memory reads writes) = some state) :
      Steps settings loop (.dispatch (.relay now memory reads writes)) ⟨state, batch, true⟩
  | poll {events : List Fd} (empty : loop.batch = []) (ready : Ready loop.state events) :
      Steps settings loop (.poll events) ⟨loop.state, events, true⟩
  | idle {now : Nat → UInt64} {logTime : UInt64} {state : State} (empty : loop.batch = [])
      (stepped : loop.state.step settings (.timeout now logTime) = some state) :
      Steps settings loop (.idle now logTime) ⟨state, [], true⟩
  | interrupted (empty : loop.batch = []) : Steps settings loop .interrupted loop
  | failed (empty : loop.batch = []) : Steps settings loop .failed ⟨loop.state, [], false⟩

theorem steps_of_handle {fd : Fd} {batch : List Fd} {outcome : Outcome} (first : loop.batch = fd :: batch)
    (handled : handle settings fd batch outcome loop.state = some next) :
    Steps settings loop (.dispatch outcome) next := by
  unfold handle at handled
  split at handled
  · rename_i gone
    cases handled
    exact .skipped first gone
  · rename_i found
    cases handled
    exact .acceptFails first found
  · rename_i found
    obtain ⟨state, stepped, rfl⟩ := Option.map_eq_some_iff.mp handled
    exact .accept first found stepped
  · rename_i found
    obtain ⟨state, stepped, rfl⟩ := Option.map_eq_some_iff.mp handled
    exact .command first found stepped
  · rename_i found
    obtain ⟨state, stepped, rfl⟩ := Option.map_eq_some_iff.mp handled
    exact .relay first found stepped
  · cases handled

theorem steps_of_step {action : LoopAction} (stepped : loop.step settings action = some next) :
    loop.running = true ∧ Steps settings loop action next := by
  unfold step at stepped
  split at stepped
  · cases stepped
  · rename_i running
    refine ⟨by simpa using running, ?_⟩
    cases action with
    | take =>
      obtain ⟨state, taken, rfl⟩ := Option.map_eq_some_iff.mp stepped
      exact .take taken
    | work index input =>
      obtain ⟨state, worked, rfl⟩ := Option.map_eq_some_iff.mp stepped
      exact .work worked
    | dispatch outcome =>
      cases first : loop.batch with
      | nil => simp [first] at stepped
      | cons fd batch =>
        simp only [first] at stepped
        exact steps_of_handle first stepped
    | poll events =>
      simp only at stepped
      split at stepped
      · rename_i polled
        cases stepped
        exact .poll polled.1 polled.2
      · cases stepped
    | idle now logTime =>
      simp only at stepped
      split at stepped
      · rename_i empty
        obtain ⟨state, handled, rfl⟩ := Option.map_eq_some_iff.mp stepped
        exact .idle empty handled
      · cases stepped
    | interrupted =>
      simp only at stepped
      split at stepped
      · rename_i empty
        cases stepped
        exact .interrupted empty
      · cases stepped
    | failed =>
      simp only at stepped
      split at stepped
      · rename_i empty
        cases stepped
        exact .failed empty
      · cases stepped

/-! ## The loop is the proxy -/

/-- What a step of the loop is as a step of the proxy. -/
inductive Performs : LoopAction → Action → Prop
  | take : Performs .take .take
  | work {index : Nat} {input : Input} : Performs (.work index input) (.work index input)
  | accept {storage : SessionStorage} {now : UInt64} {clientFd : Fd} {clientIp : Bytes} :
      Performs (.dispatch (.accept storage now (some (clientFd, clientIp))))
        (.accept storage now clientFd clientIp)
  | command {localTime : Option LocalTime} {now : UInt64} {registered : Bool × Bool} :
      Performs (.dispatch (.command localTime now registered)) (.command localTime now registered)
  | relay {fd : Fd} {now : UInt64} {memory : ClientSocket.Memory} {reads : List ReadResult}
      {writes : List WriteResult} :
      Performs (.dispatch (.relay now memory reads writes)) (.relay fd now memory reads writes)
  | idle {now : Nat → UInt64} {logTime : UInt64} : Performs (.idle now logTime) (.timeout now logTime)

/-- What a step of the loop does to the proxy: an event whose socket is gone, a failing `accept` and
the calls of `epoll_wait` do nothing. -/
def shows : EventLoop × LoopAction → Option (State × Action)
  | (loop, .take) => some (loop.state, .take)
  | (loop, .work index input) => some (loop.state, .work index input)
  | (loop, .idle now logTime) => some (loop.state, .timeout now logTime)
  | (loop, .dispatch outcome) =>
    match loop.batch with
    | [] => none
    | fd :: _ =>
      match lookup Socket.fd fd loop.state.sockets, outcome with
      | some (.server _), .accept storage now (some (clientFd, clientIp)) =>
        some (loop.state, .accept storage now clientFd clientIp)
      | some (.command _), .command localTime now registered =>
        some (loop.state, .command localTime now registered)
      | some (.client _), .relay now memory reads writes => some (loop.state, .relay fd now memory reads writes)
      | _, _ => none
  | _ => none

/-- A step of the loop is one of the proxy, or changes nothing in it. -/
theorem Steps.shown {action : LoopAction} (steps : Steps settings loop action next) :
    (shows (loop, action) = none ∧ next.state = loop.state) ∨
      ∃ performed, shows (loop, action) = some (loop.state, performed) ∧ Performs action performed ∧
        loop.state.step settings performed = some next.state := by
  cases steps with
  | take stepped => exact .inr ⟨_, rfl, .take, stepped⟩
  | work stepped => exact .inr ⟨_, rfl, .work, stepped⟩
  | accept first found stepped => exact .inr ⟨_, by simp [shows, first, found], .accept, stepped⟩
  | command first found stepped => exact .inr ⟨_, by simp [shows, first, found], .command, stepped⟩
  | relay first found stepped => exact .inr ⟨_, by simp [shows, first, found], .relay, stepped⟩
  | idle empty stepped => exact .inr ⟨_, rfl, .idle, stepped⟩
  | skipped first gone => exact .inl ⟨by simp [shows, first, gone], rfl⟩
  | acceptFails first found => exact .inl ⟨by simp [shows, first, found], rfl⟩
  | poll | interrupted | failed => exact .inl ⟨rfl, rfl⟩

/-- What a run of the loop does to the proxy is a run of the proxy. -/
theorem run_shown {initially : EventLoop → Prop} (starts : ∀ loop, initially loop → loop.state.Initial)
    {allowed : EventLoop → LoopAction → Prop} {permissive : State → Action → Prop}
    (weaker : ∀ loop action performed, allowed loop action → Performs action performed →
      permissive loop.state performed)
    (run : Run (System.ofFunction initially (step settings)) allowed lifted loop) :
    Run (proxySystem settings) permissive (lifted.filterMap shows) loop.state := by
  induction run with
  | start isInitial => exact .start (starts _ isInitial)
  | @snoc lifted loop next action earlier permitted stepped inductionHypothesis =>
    rw [filterMap_snoc]
    rcases (steps_of_step stepped).2.shown with ⟨hidden, same⟩ | ⟨performed, shown, performs, proxyStep⟩
    · rw [hidden, same, Option.toList_none, List.append_nil]
      exact inductionHypothesis
    · rw [shown, Option.toList_some]
      exact inductionHypothesis.snoc (weaker loop action performed permitted performs) proxyStep

theorem registers_of_performs (loop : EventLoop) (action : LoopAction) (performed : Action)
    (registers : LoopRegisters loop action) (performs : Performs action performed) :
    Registers loop.state performed := by
  cases performs with
  | command => exact registers
  | _ => trivial

theorem run_sound (run : Run (loopSystem settings) LoopRegisters lifted loop) :
    loop.state.ledger.Sound :=
  State.run_sound (run_shown (fun _ initially => initially.1) registers_of_performs run)

theorem run_listeners
    (run : Run (proxySystem settings) Registers history state) :
    ∃ serverFd commandFd, state.listeners = [.server serverFd, .command commandFd] := by
  refine (run.historyInvariant (fun history state => state.ledger.Sound ∧
    ∃ serverFd commandFd, state.listeners = [.server serverFd, .command commandFd]) ?_ ?_).2
  · rintro state ⟨serverFd, commandFd, openFds, now, differ, server, command, rfl⟩
    exact ⟨State.initial_sound serverFd commandFd openFds now differ server command, serverFd,
      commandFd, rfl⟩
  · rintro history state action next - ⟨sound, listening⟩ registers stepped
    refine ⟨Ledger.steps_sound (State.step_ledger sound registers stepped) sound, ?_⟩
    rw [State.step_listeners sound registers stepped]
    exact listening

theorem mem_listeners {socket : Socket} :
    socket ∈ state.listeners ↔ socket ∈ state.sockets ∧ ∀ client, socket ≠ .client client := by
  unfold State.listeners
  rw [List.mem_filterMap]
  constructor
  · rintro ⟨listener, member, isListener⟩
    cases listener <;> cases isListener <;> exact ⟨member, by simp⟩
  · rintro ⟨member, notClient⟩
    refine ⟨socket, member, ?_⟩
    cases socket with
    | client client => exact absurd rfl (notClient client)
    | _ => rfl

/-- A registered socket is the one that is found under its descriptor. -/
theorem lookup_registered (sound : state.ledger.Sound) {socket : Socket}
    (registered : socket ∈ state.sockets) : lookup Socket.fd socket.fd state.sockets = some socket :=
  lookup_of_mem (State.fds_nodup sound) registered

section Lifts

variable (run : Run (proxySystem settings) Registers history state)
  (earlier : Run (loopSystem settings) LoopRegisters lifted ⟨state, [], true⟩)

include run earlier

/-- An event that a batch of its own is polled for. -/
theorem answers_dispatch {socket : Socket} (member : socket ∈ state.sockets) (outcome : Outcome)
    {action : Action} {after : State} (permitted : LoopRegisters ⟨state, [socket.fd], true⟩ (.dispatch outcome))
    (readable : (∃ fd, socket = .command fd) → state.pipe ≠ [])
    (shown : shows (⟨state, [socket.fd], true⟩, .dispatch outcome) = some (state, action))
    (handled : handle settings socket.fd [] outcome state = some ⟨after, [], true⟩) :
    ∃ more, Run (loopSystem settings) LoopRegisters (lifted ++ more) ⟨after, [], true⟩ ∧
      more.filterMap shows = [(state, action)] := by
  have sound := State.run_sound run
  have ready : Ready state [socket.fd] := by
    refine ⟨by simp, by simp [eventsToProcess], by simp, fun fd only => ?_⟩
    rw [List.mem_singleton.mp only]
    refine ⟨List.mem_map_of_mem member, fun isCommand => readable ⟨socket.fd, ?_⟩⟩
    have own := lookup_registered sound member
    rw [show socket.fd = Socket.fd (.command socket.fd) from rfl, lookup_registered sound isCommand] at own
    exact (Option.some.inj own).symm
  have polled : step settings ⟨state, [], true⟩ (.poll [socket.fd]) = some ⟨state, [socket.fd], true⟩ := by
    simp [step, ready]
  have polls : LoopRegisters ⟨state, [], true⟩ (.poll [socket.fd]) := trivial
  have longer := (earlier.snoc polls polled).snoc permitted handled
  rw [List.append_assoc] at longer
  refine ⟨_, longer, ?_⟩
  have hidden : shows (⟨state, [], true⟩, .poll [socket.fd]) = none := rfl
  simp [hidden, shown]

omit run in
/-- A step that the loop takes without an event. -/
theorem answers_alone (lone : LoopAction) {action : Action} {after : State}
    (permitted : LoopRegisters ⟨state, [], true⟩ lone)
    (shown : shows (⟨state, [], true⟩, lone) = some (state, action))
    (stepped : step settings ⟨state, [], true⟩ lone = some ⟨after, [], true⟩) :
    ∃ more, Run (loopSystem settings) LoopRegisters (lifted ++ more) ⟨after, [], true⟩ ∧
      more.filterMap shows = [(state, action)] :=
  ⟨_, earlier.snoc permitted stepped, by simp [shown]⟩

/-- Between two batches the loop answers each step of the proxy. -/
theorem loop_answers {action : Action} {after : State} (registers : Registers state action)
    (stepped : state.step settings action = some after) :
    ∃ more, Run (loopSystem settings) LoopRegisters (lifted ++ more) ⟨after, [], true⟩ ∧
      more.filterMap shows = [(state, action)] := by
  have sound := State.run_sound run
  obtain ⟨serverFd, commandFd, listening⟩ := run_listeners run
  have server : Socket.server serverFd ∈ state.sockets := (mem_listeners.mp (by simp [listening])).1
  have command : Socket.command commandFd ∈ state.sockets := (mem_listeners.mp (by simp [listening])).1
  have serverFound := lookup_registered sound server
  have commandFound := lookup_registered sound command
  cases action with
  | accept storage now clientFd clientIp =>
    refine answers_dispatch run earlier server (.accept storage now (some (clientFd, clientIp))) ?_ ?_ ?_ ?_
    · trivial
    · rintro ⟨fd, same⟩
      cases same
    · simp [shows, serverFound]
    · simp [handle, serverFound, stepped]
  | command localTime now registered =>
    refine answers_dispatch run earlier command (.command localTime now registered) registers ?_ ?_ ?_
    · intro _ empty
      simp [State.step, SocketManager.handleCommandSocketRead, empty] at stepped
    · simp [shows, commandFound]
    · simp [handle, commandFound, stepped]
  | relay fd now memory reads writes =>
    cases found : lookup Socket.fd fd state.sockets with
    | none => simp [State.step, found] at stepped
    | some socket =>
      obtain rfl : socket.fd = fd := key_of_lookup found
      cases socket with
      | client socket =>
        refine answers_dispatch run earlier (mem_of_lookup found) (.relay now memory reads writes) ?_ ?_ ?_ ?_
        · trivial
        · rintro ⟨fd, same⟩
          cases same
        · simp [shows, found]
        · simp [handle, found, stepped]
      | _ => simp [State.step, found] at stepped
  | timeout now logTime =>
    refine answers_alone earlier (.idle now logTime) ?_ rfl ?_
    · trivial
    · simp [step, stepped]
  | take =>
    refine answers_alone earlier .take ?_ rfl ?_
    · trivial
    · simp only [State.step] at stepped
      simp [step, stepped]
  | work index input =>
    refine answers_alone earlier (.work index input) ?_ rfl ?_
    · trivial
    · simp only [State.step] at stepped
      simp [step, stepped]

end Lifts

/-- Every run of the proxy is what a run of the loop does. -/
theorem exists_lifted (run : Run (proxySystem settings) Registers history state) :
    ∃ lifted, Run (loopSystem settings) LoopRegisters lifted ⟨state, [], true⟩ ∧
      lifted.filterMap shows = history := by
  obtain ⟨lifted, loop, answering, rfl, same⟩ := run.answered (loopSystem settings) LoopRegisters some shows
    (fun state loop => loop = ⟨state, [], true⟩)
    (fun state initially => ⟨_, ⟨initially, rfl, rfl⟩, rfl⟩) (by
      rintro history state action next earlier _ soFar answering rfl registers stepped
      obtain ⟨more, longer, shown⟩ := loop_answers soFar answering registers stepped
      exact ⟨more, _, longer, rfl, shown⟩)
  exact ⟨lifted, answering, by rw [same, List.filterMap_some]⟩

/-- The loop over its batches and the proxy have the same runs: what a run of the loop does to the proxy,
step by step and with the states it is done in, is a run of the proxy that ends in the same state, under
whatever the loop's steps are permitted by; and every run of the proxy whose `epoll_ctl` calls succeed is
what some such run of the loop does. -/
theorem loop_refines (settings : Settings) :
    (∀ {allowed : EventLoop → LoopAction → Prop} {permissive : State → Action → Prop} {lifted : LoopHistory}
      {loop : EventLoop},
      (∀ loop action performed, allowed loop action → Performs action performed →
        permissive loop.state performed) →
      Run (loopSystem settings) allowed lifted loop →
        Run (proxySystem settings) permissive (lifted.filterMap shows) loop.state) ∧
    ∀ {history : History} {state : State}, Run (proxySystem settings) Registers history state →
      ∃ lifted, Run (loopSystem settings) LoopRegisters lifted ⟨state, [], true⟩ ∧
        lifted.filterMap shows = history :=
  ⟨fun weaker run => run_shown (fun _ initially => initially.1) weaker run, exists_lifted⟩

/-- A first client is accepted after a call that was interrupted, and a thread takes its package. -/
theorem loop_refines_accept : ∃ lifted loop,
    runActions (step State.unrestricted) [] ⟨State.initial 3 4 [3, 4] 0, [], true⟩
      [.interrupted, .poll [3], .dispatch (.accept ⟨false, 0, 0, 0⟩ 7 (some (5, bytes "10.0.0.2"))), .take] =
        some (lifted, loop) ∧
    (lifted.filterMap shows).length = 2 ∧
    Run (proxySystem State.unrestricted) Registers (lifted.filterMap shows) loop.state ∧
    ∃ other, Run (loopSystem State.unrestricted) LoopRegisters other ⟨loop.state, [], true⟩ ∧
      other.filterMap shows = lifted.filterMap shows := by
  have executed : ∃ lifted loop, runActions (step State.unrestricted) [] ⟨State.initial 3 4 [3, 4] 0, [], true⟩
      [.interrupted, .poll [3], .dispatch (.accept ⟨false, 0, 0, 0⟩ 7 (some (5, bytes "10.0.0.2"))), .take] =
        some (lifted, loop) ∧ (lifted.filterMap shows).length = 2 := ⟨_, _, rfl, rfl⟩
  obtain ⟨lifted, loop, executed, twice⟩ := executed
  have run : Run (loopSystem State.unrestricted) LoopRegisters lifted loop :=
    run_of_runActions started (by simp [LoopRegisters]) executed
  have shown := (loop_refines State.unrestricted).1 registers_of_performs run
  exact ⟨lifted, loop, executed, twice, shown, (loop_refines State.unrestricted).2 shown⟩

end EventLoop

end NermalProxy
