import NermalProxy.Decisions
import NermalProxy.HandBack
import NermalProxy.Library.Potential

/-! # Requests are carried through

How many steps of the workers and of the main thread a request can still need, by where
it is.  The table of addresses is what makes the bound large: a connector tries every
address that the cache has of its host. -/

namespace NermalProxy

open NermalProxy.CString NermalProxy.KeyedList NermalProxy.Config NermalProxy.HostInfoCache
  NermalProxy.Transition

/-! ## What a request still needs -/

/-- The steps left to a worker, with the reading of its message and all that follows. -/
def Pc.remaining : Pc → Nat
  | .clearCache => 1
  | .abort | .connectReply _ => 2
  | .giveUp | .setOptions _ => 3
  | .resend _ => 4
  | .connect _ addresses => addresses.length + 4
  | .socket addresses => addresses.length + 5
  | .store _ => 7
  | .resolve _ _ => 8
  | .lookupHost _ _ => maxCacheSize + 6
  | .connectorEnter => maxCacheSize + 7
  | .detectReply _ => maxCacheSize + 10
  | .setTransparent _ => maxCacheSize + 11
  | .setRequest _ => maxCacheSize + 12
  | .setPort _ => maxCacheSize + 13
  | .setHost _ => maxCacheSize + 14
  | .read _ => maxCacheSize + 15
  | .detectorEnter => maxCacheSize + 16

def Message.remaining : Message → Nat
  | .hostDetectResult _ _ => maxCacheSize + 9
  | .hostConnectResult _ _ _ => 1

def Task.remaining (task : Task) : Nat := task.worker.pc.remaining + 1

/-- The steps that carry requests on: those of the workers and the handling of their messages. -/
def Action.carried : Action → Nat
  | .command .. | .take | .work .. => 1
  | .accept .. | .relay .. | .timeout .. => 0

def Action.clients : Action → Nat
  | .accept .. => 1
  | _ => 0

/-- The most that the request of one client can need. -/
def requestBound : Nat := maxCacheSize + 17

namespace State

variable {state next : State} {settings : Settings} {history : History}

def messagesRemaining (state : State) : Nat := (state.pipe.map Message.remaining).sum

def pending (state : State) : Nat :=
  (state.queue.map Task.remaining).sum + (state.workers.map (fun worker => worker.pc.remaining)).sum +
    state.messagesRemaining

/-! ## One step -/

theorem messagesRemaining_snoc {message : Message} (pipe : next.pipe = state.pipe ++ [message]) :
    next.messagesRemaining = state.messagesRemaining + message.remaining := by
  simp [messagesRemaining, pipe]

/-- Every step of a worker is one less to go, with what it has written counted in. -/
theorem steps_remaining {sessionId : Nat} {pc : Pc} {input : Input} {after : Option Pc}
    (bounded : state.cache.length ≤ maxCacheSize)
    (steps : Worker.Steps sessionId state pc input next after) :
    next.messagesRemaining + (after.map Pc.remaining).getD 0 + 1 ≤
      state.messagesRemaining + pc.remaining := by
  have written : ∀ message : Message,
      (state.writeMessage message).messagesRemaining = state.messagesRemaining + message.remaining :=
    fun message => messagesRemaining_snoc rfl
  have size : maxCacheSize = 2048 := rfl
  cases steps with
  | detectReply =>
    simp only [written, Message.remaining, Pc.remaining, Option.map_none, Option.getD_none]
    omega
  | abort | giveUp | connectReply =>
    simp [sendErrorResponse, sendResponse, written, Message.remaining, Pc.remaining]
  | @cached host port now =>
    have results := getCachedResults_length now host state.cache
    simp only [Option.map_some, Option.getD_some, Pc.remaining, messagesRemaining]
    omega
  | _ =>
    simp only [Option.map_some, Option.map_none, Option.getD_some, Option.getD_none, Pc.remaining,
      messagesRemaining, State.updateSession, List.length_cons, List.length_nil]
    omega

theorem pending_of_sheds (sheds : Sheds state next) : next.pending = state.pending := by
  simp only [pending, messagesRemaining, sheds.queue, sheds.workers, sheds.pipe]

/-- One worker's part of the sum is exchanged. -/
theorem workers_sum {index : Nat} {worker : Worker} (at_ : state.workers[index]? = some worker)
    (after : Option Pc) :
    ((placed index worker state.workers after).map (fun worker => worker.pc.remaining)).sum +
        worker.pc.remaining =
      (state.workers.map (fun worker => worker.pc.remaining)).sum + (after.map Pc.remaining).getD 0 := by
  obtain ⟨inside, rfl⟩ := List.getElem?_eq_some_iff.mp at_
  have taken := ((List.getElem_cons_eraseIdx_perm inside).map (fun worker => worker.pc.remaining)).sum_nat
  rw [List.map_cons, List.sum_cons] at taken
  cases after with
  | none =>
    simp only [placed, Option.map_none, Option.getD_none]
    omega
  | some pc =>
    have put := ((List.set_perm_cons_eraseIdx inside ⟨state.workers[index].sessionId, pc⟩).map
      (fun worker => worker.pc.remaining)).sum_nat
    simp only [List.map_cons, List.sum_cons] at put
    simp only [placed, Option.map_some, Option.getD_some]
    omega

theorem work_pending (bounded : state.cache.length ≤ maxCacheSize) {index : Nat} {input : Input}
    (worked : state.work index input = some next) : next.pending + 1 ≤ state.pending := by
  obtain ⟨worker, shared, after, at_, stepped, rfl⟩ := exists_of_work worked
  have frame := step_frame stepped
  have fewer := steps_remaining bounded (Worker.steps_of_step stepped)
  have exchanged := workers_sum at_ after
  simp only [pending, frame.queue, frame.workers] at exchanged ⊢
  change _ + shared.messagesRemaining + 1 ≤ _
  omega

theorem take_pending {task : Task} {queue : List Task} (first : state.queue = task :: queue) :
    pending { state with queue, workers := state.workers ++ [task.worker] } + 1 = state.pending := by
  simp only [pending, messagesRemaining, first, List.map_cons, List.sum_cons, List.map_append,
    List.sum_append, List.map_nil, List.sum_nil, Task.remaining]
  omega

/-- A message is taken out of the pipe, and tasks and messages come in that need less. -/
theorem pending_of_pop {message : Message} {rest : List Message} (pipe : state.pipe = message :: rest)
    (tasks : List Task) (messages : List Message) (queue : next.queue = state.queue ++ tasks)
    (workers : next.workers = state.workers) (behind : next.pipe = rest ++ messages)
    (fewer : (tasks.map Task.remaining).sum + (messages.map Message.remaining).sum + 1 ≤ message.remaining) :
    next.pending + 1 ≤ state.pending := by
  simp only [pending, messagesRemaining, queue, workers, behind, pipe, List.map_append, List.sum_append,
    List.map_cons, List.sum_cons]
  omega

theorem addSocket_work (registered : Bool) (socket : ClientSocket) :
    (SocketManager.addSocket registered (.client socket) state).queue = state.queue ∧
      (SocketManager.addSocket registered (.client socket) state).pipe = state.pipe := by
  unfold SocketManager.addSocket
  split <;> exact ⟨rfl, rfl⟩

/-- Handling a message is one less to go, even where it queues a task or writes a message. -/
theorem command_pending {localTime : Option LocalTime} {now : UInt64} {registered : Bool × Bool}
    (stepped : state.step settings (.command localTime now registered) = some next) :
    next.pending + 1 ≤ state.pending := by
  have unchanged : ∀ {α : Type} (list : List α), list = list ++ [] := fun list => (List.append_nil list).symm
  cases steps_of_step stepped with
  | undetected pipe found | refused pipe found refusal =>
    exact pending_of_pop pipe [] [] (unchanged _) rfl (unchanged _) (Nat.le_add_left _ _)
  | blocked pipe found =>
    exact pending_of_pop pipe [] [.hostConnectResult _ (-1) false] (unchanged _) rfl rfl
      (Nat.le_add_left _ _)
  | @admitted _ _ _ sessionId _ _ pipe found =>
    refine pending_of_pop pipe [.asyncConnector sessionId] [] rfl rfl (unchanged _) ?_
    simp [Task.remaining, Task.worker, Pc.remaining, Message.remaining]
  | unconnected pipe found =>
    exact pending_of_pop pipe [] [] (unchanged _) rfl (unchanged _) (Nat.le_refl _)
  | @connected _ _ _ sessionId proxyFd rest session pipe found =>
    refine pending_of_pop pipe [] [] ?_ ?_ ?_ (Nat.le_refl _)
    · rw [(addSocket_work _ _).1, (addSocket_work _ _).1, List.append_nil]
    · rw [workers_addSocket, workers_addSocket]
    · rw [(addSocket_work _ _).2, (addSocket_work _ _).2, List.append_nil]

theorem clients_of_carried {action : Action} (carries : action.carried = 1) : action.clients = 0 := by
  cases action with
  | accept storage now clientFd clientIp => cases carries
  | _ => rfl

/-- What carries requests on lowers what is pending; only a new client raises it. -/
theorem step_pending (bounded : state.cache.length ≤ maxCacheSize) {action : Action}
    (stepped : state.step settings action = some next) :
    next.pending + action.carried ≤ state.pending + requestBound * action.clients := by
  cases action with
  | accept storage now clientFd clientIp =>
    cases steps_of_step stepped with
    | accept unused created =>
      simp only [pending, messagesRemaining, dispatch, updateSession, List.map_append, List.sum_append,
        List.map_cons, List.map_nil, List.sum_cons, List.sum_nil, Task.remaining, Task.worker, Pc.remaining,
        Action.carried, Action.clients, requestBound]
      omega
  | command localTime now registered =>
    have less := command_pending stepped
    simp only [Action.carried, Action.clients]
    omega
  | relay fd now memory reads writes =>
    have same : next.pending = state.pending := by
      cases steps_of_step stepped with
      | teardown search => exact pending_of_sheds (teardown_sheds _ _)
      | relayed search same found => rfl
    simp [same, Action.carried]
  | timeout now logTime =>
    have same : next.pending = state.pending := pending_of_sheds (timeout_sheds stepped)
    simp [same, Action.carried]
  | take =>
    cases steps_of_step stepped with
    | take first =>
      have less := take_pending first
      simp only [Action.carried]
      omega
  | work index input =>
    have less := work_pending bounded stepped
    simp only [Action.carried]
    omega

/-! ## The cache -/

/-- Only the workers use the cache. -/
theorem step_cache {action : Action} (stepped : state.step settings action = some next) :
    next.cache = state.cache ∨ ∃ index input worker shared after, action = .work index input ∧
      state.workers[index]? = some worker ∧ worker.step input state = some (shared, after) ∧
      next.cache = shared.cache := by
  cases steps_of_step stepped with
  | teardown search =>
    obtain ⟨_, _, _, _, _, same⟩ := @SocketManager.teardown_frame settings _ _ state
    exact .inl (by rw [same])
  | timeout evictions | logged evictions =>
    obtain ⟨_, _, _, _, _, rfl⟩ := SocketManager.evictions_frame evictions
    exact .inl rfl
  | connected pipe found =>
    obtain ⟨_, _, _, same⟩ := SocketManager.addSockets_frame _ _ _ _ _
    exact .inl (by rw [same])
  | moved at_ worked => exact .inr ⟨_, _, _, _, _, rfl, at_, worked, rfl⟩
  | done at_ worked => exact .inr ⟨_, _, _, _, _, rfl, at_, worked, rfl⟩
  | _ => exact .inl rfl

/-- The cache after the step of a worker. -/
theorem work_cache_length {sessionId : Nat} {pc : Pc} {input : Input} {after : Option Pc}
    (bounded : state.cache.length ≤ maxCacheSize)
    (steps : Worker.Steps sessionId state pc input next after) : next.cache.length ≤ maxCacheSize := by
  cases steps with
  | @cached host port now | @uncached host port now =>
    exact (getCachedResults_onlyDrops now host state.cache).sublist.length_le.trans bounded
  | store => exact addResult_length bounded
  | @clearCache _ host =>
    exact (clearCacheForHost_onlyDrops host state.cache).sublist.length_le.trans bounded
  | _ => exact bounded

theorem run_cache_length {allowed : State → Action → Prop}
    (run : Run (proxySystem settings) allowed history state) : state.cache.length ≤ maxCacheSize := by
  apply run.invariant (fun state => state.cache.length ≤ maxCacheSize)
  · rintro state ⟨serverFd, commandFd, openFds, now, -, -, -, rfl⟩
    exact Nat.zero_le _
  · intro state action next bounded _ stepped
    rcases step_cache stepped with same | ⟨index, input, worker, shared, after, -, -, worked, same⟩
    · rwa [same]
    · rw [same]
      exact work_cache_length bounded (Worker.steps_of_step worked)

/-! ## Every run -/

/-- The steps that have carried requests on, and the clients that have been accepted. -/
def carriedOn (history : History) : Nat := tally Action.carried history

def clients (history : History) : Nat := tally Action.clients history

/-- In every run what the workers and the pipe have done and what they still have to do is bounded
by the number of clients. -/
theorem work_bounded {allowed : State → Action → Prop}
    (run : Run (proxySystem settings) allowed history state) :
    state.pending + carriedOn history ≤ requestBound * clients history := by
  rw [clients, ← tally_mul]
  apply run.amortized State.pending
  · rintro state ⟨serverFd, commandFd, openFds, now, -, -, -, rfl⟩
    rfl
  · exact fun history state action next earlier _ stepped => step_pending (run_cache_length earlier) stepped

/-- A client whose request is refused in the end. -/
theorem work_bounded_refuse : ∃ (history : History) (state : State),
    carriedOn history = 19 ∧ state.pending + carriedOn history ≤ requestBound * 1 := by
  have executed : ∃ history state,
      runActions (State.step unrestricted) [] (initial 3 4 [3, 4] 0) refuse = some (history, state) ∧
      carriedOn history = 19 ∧ clients history = 1 := ⟨_, _, rfl, by decide, by decide⟩
  obtain ⟨history, state, executed, carried, one⟩ := executed
  have bounded := work_bounded (run_of_executed registers_refuse executed)
  rw [one] at bounded
  exact ⟨history, state, carried, bounded⟩

/-! ## Nobody waits in vain -/

/-- A worker can always take its next step, whatever its system calls return. -/
theorem worker_enabled (sound : state.ledger.Sound) {worker : Worker} (member : worker ∈ state.workers) :
    ∃ input, (worker.step input state).isSome = true := by
  have live : worker.replied = false → ∃ session, state.getSession worker.sessionId = some session := by
    intro owing
    have isHolder : .worker worker ∈ state.holders := mem_holders.mpr ⟨member, owing⟩
    exact exists_session sound isHolder
  obtain ⟨sessionId, pc⟩ := worker
  cases pc with
  | detectorEnter | connectorEnter | setOptions _ =>
    obtain ⟨session, found⟩ := live rfl
    exact ⟨.none, by simp [Worker.step, found]⟩
  | read clientFd => exact ⟨.read .endOfStream [], rfl⟩
  | lookupHost host port => exact ⟨.clock (fun _ => 0), rfl⟩
  | resolve host port => exact ⟨.resolver (fun _ _ => none) 0, rfl⟩
  | socket addresses => exact ⟨.socket none, rfl⟩
  | connect sockFd addresses =>
    cases addresses with
    | nil => exact ⟨.none, rfl⟩
    | cons address rest =>
      obtain ⟨session, found⟩ := live rfl
      refine ⟨.network (fun _ _ => .refused), ?_⟩
      by_cases sinkholed : address.url = sinkhole
      · simp [Worker.step, sinkholed]
      · simp [Worker.step, sinkholed, found]
  | clearCache => exact ⟨.freed [], rfl⟩
  | resend sockFd =>
    obtain ⟨session, found⟩ := live rfl
    refine ⟨.write (.accepts 0), ?_⟩
    cases transparent : session.transparent <;> simp [Worker.step, found, transparent]
  | _ => exact ⟨.none, rfl⟩

theorem pending_eq_zero_iff :
    state.pending = 0 ↔ state.queue = [] ∧ state.workers = [] ∧ state.pipe = [] := by
  have positive : (∀ task : Task, task.remaining ≠ 0) ∧ (∀ pc : Pc, pc.remaining ≠ 0) ∧
      ∀ message : Message, message.remaining ≠ 0 := by
    refine ⟨fun task => Nat.succ_ne_zero _, fun pc => ?_, fun message => ?_⟩
    · cases pc <;> exact Nat.succ_ne_zero _
    · cases message <;> exact Nat.succ_ne_zero _
  obtain ⟨tasks, pcs, messages⟩ := positive
  cases queue : state.queue <;> cases workers : state.workers <;> cases pipe : state.pipe <;>
    simp [pending, messagesRemaining, queue, workers, pipe, tasks, pcs, messages]

/-- Where anything is pending, the main thread or a worker can go on. -/
theorem progress (sound : state.ledger.Sound) (busy : state.pending ≠ 0) :
    ∃ action, action.carried = 1 ∧ Registers state action ∧ (state.step settings action).isSome = true := by
  cases pipe : state.pipe with
  | cons message rest =>
    have inPipe : message.sessionId ∈ state.messageIds := by simp [messageIds, pipe]
    obtain ⟨session, found⟩ := live_of_token sound (token_of_messageIds inPipe)
    have popped : ({ state with pipe := rest } : State).getSession message.sessionId = some session := found
    refine ⟨.command none 0 (true, true), rfl, rfl, ?_⟩
    simp only [step, SocketManager.handleCommandSocketRead, pipe]
    exact handleMessage_isSome popped none 0 (true, true)
  | nil =>
    cases workers : state.workers with
    | cons worker others =>
      have member : worker ∈ state.workers := by simp [workers]
      obtain ⟨input, enabled⟩ := worker_enabled sound member
      obtain ⟨⟨shared, after⟩, stepped⟩ := Option.isSome_iff_exists.mp enabled
      have first : state.workers[0]? = some worker := by simp [workers]
      refine ⟨.work 0 input, rfl, trivial, ?_⟩
      cases after <;> simp [step, work, first, stepped]
    | nil =>
      cases queue : state.queue with
      | nil => exact absurd (pending_eq_zero_iff.mpr ⟨queue, workers, pipe⟩) busy
      | cons task rest =>
        have free : state.workers.length < threadPoolSize := by simp [workers, threadPoolSize]
        exact ⟨.take, rfl, trivial, by simp [step, take, queue, free]⟩

/-- Neither a task nor a message is left, and every session is being relayed. -/
structure Settled (state : State) : Prop where
  queue : state.queue = []
  workers : state.workers = []
  pipe : state.pipe = []
  relaying : ∀ session ∈ state.sessions.sessionList, ∃ one other : ClientSocket,
    state.socketsOf session.sessionId = [one, other] ∧ one.socketFd = other.peerFd ∧
      other.socketFd = one.peerFd ∧ (one.socketFd = session.clientFd ∨ other.socketFd = session.clientFd)

theorem settled_iff (sound : state.ledger.Sound) : state.Settled ↔ state.pending = 0 := by
  rw [pending_eq_zero_iff]
  constructor
  · exact fun settled => ⟨settled.queue, settled.workers, settled.pipe⟩
  · rintro ⟨queue, workers, pipe⟩
    refine ⟨queue, workers, pipe, fun session live => ?_⟩
    cases situation sound live with
    | inTask task noMessage noSocket => simp [taskIds, queue, workers] at task
    | inMessage noTask message noSocket => simp [messageIds, pipe] at message
    | relaying noTask noMessage sockets crossed opposite onClient =>
      exact ⟨_, _, sockets, crossed.1, crossed.2, onClient⟩

/-- From every reachable state, a number of steps of the workers and the pipe that the clients so far
bound lead to one where every session is relayed or has ended; only there none of them can go on. -/
theorem requests_settle (run : Run (proxySystem settings) Registers history state) :
    (∃ more final, Run (proxySystem settings) Registers (history ++ more) final ∧
      (∀ entry ∈ more, entry.2.carried = 1) ∧
      carriedOn history + more.length ≤ requestBound * clients history ∧ final.Settled) ∧
    ((∀ action, action.carried = 1 → Registers state action → state.step settings action = none) ↔
      state.Settled) := by
  constructor
  · obtain ⟨more, final, longer, all, short, done⟩ :=
      run.settles (fun action => action.carried = 1) State.pending <| by
        intro history state earlier busy
        obtain ⟨action, carries, registers, enabled⟩ := progress (run_sound earlier) busy
        obtain ⟨next, stepped⟩ := Option.isSome_iff_exists.mp enabled
        refine ⟨action, next, carries, registers, stepped, ?_⟩
        have less := step_pending (run_cache_length earlier) stepped
        rw [carries, clients_of_carried carries] at less
        omega
    have bound := work_bounded run
    exact ⟨more, final, longer, all, by omega, (settled_iff (run_sound longer)).mpr done⟩
  · have sound := run_sound run
    rw [settled_iff sound]
    constructor
    · intro stuck
      by_contra busy
      obtain ⟨action, carries, registers, enabled⟩ := progress sound busy
      rw [stuck action carries registers] at enabled
      cases enabled
    · intro done action carries _
      cases stepped : state.step settings action with
      | none => rfl
      | some next =>
        have less := step_pending (run_cache_length run) stepped
        rw [carries, clients_of_carried carries, done] at less
        omega

/-- A client whose connector has just reported. -/
theorem requests_settle_connect : ∃ (history more : History) (state final : State),
    state.pipe = [.hostConnectResult 0 6 true] ∧
    Run (proxySystem unrestricted) Registers (history ++ more) final ∧
    carriedOn history + more.length ≤ requestBound * 1 ∧ final.Settled := by
  have executed : ∃ history state,
      runActions (State.step unrestricted) [] (initial 3 4 [3, 4] 0) connect = some (history, state) ∧
      state.pipe = [.hostConnectResult 0 6 true] ∧ clients history = 1 := ⟨_, _, rfl, by decide, by decide⟩
  obtain ⟨history, state, executed, pipe, one⟩ := executed
  obtain ⟨⟨more, final, longer, -, short, settled⟩, -⟩ :=
    requests_settle (run_of_executed registers_connect executed)
  rw [one] at short
  exact ⟨history, more, state, final, pipe, longer, short, settled⟩

end State

end NermalProxy
