import NermalProxy.Descriptors

/-! # The account of the descriptors

Everything that the proxy opens is closed, belongs to somebody, or was the socket of a
connector that ran out of addresses.  Those sockets are all that the descriptor table of
an idle proxy has beyond what it had at the start. -/

namespace NermalProxy

open NermalProxy.CString NermalProxy.Config NermalProxy.Transition

/-- The socket that a connector leaves behind when it is out of addresses. -/
def Worker.leaves (worker : Worker) : Option (Nat × Fd) :=
  if worker.pc.exhausted then worker.holding else none

namespace State

/-- The socket that a step leaks, with the session it was for. -/
def leaks : State × Action → Option (Nat × Fd)
  | (state, .work index _) => (state.workers[index]?).bind Worker.leaves
  | _ => none

/-- What has been opened in the run. -/
def opened (history : History) : List (Nat × Fd) := history.flatMap (fun entry => entry.1.opens entry.2)

def leaked (history : History) : List (Nat × Fd) := history.filterMap leaks

/-- The descriptors that were open at the start of the run. -/
def startFds (history : History) (state : State) : List Fd :=
  match history with
  | [] => state.openFds
  | (first, _) :: _ => first.openFds

variable {state next : State} {settings : Settings} {history : History} {action : Action}

/-- What a connector that is out of addresses leaves behind. -/
theorem leaks_exhausted {index : Nat} {input : Input} {worker : Worker} {sockFd : Fd}
    (at_ : state.workers[index]? = some worker) (out : worker.pc = .connect sockFd []) :
    leaks (state, .work index input) = some (worker.sessionId, sockFd) := by
  simp [leaks, at_, Worker.leaves, Worker.holding, Worker.held, out, Pc.exhausted, Pc.held]

theorem exhausted_of_not_finds (notFinds : ¬ FindsConnection state action) :
    ∃ index input worker sockFd, action = .work index input ∧ state.workers[index]? = some worker ∧
      worker.pc = .connect sockFd [] := by
  cases action with
  | work index input =>
    simp only [FindsConnection, not_forall, not_not] at notFinds
    obtain ⟨sockFd, out⟩ := notFinds
    obtain ⟨worker, at_, isOut⟩ := Option.map_eq_some_iff.mp out
    exact ⟨index, input, worker, sockFd, rfl, at_, isOut⟩
  | _ => exact absurd trivial notFinds

theorem leaks_of_finds (finds : FindsConnection state action) : leaks (state, action) = none := by
  cases action with
  | work index input =>
    cases at_ : state.workers[index]? with
    | none => simp [leaks, at_]
    | some worker =>
      have searching : worker.pc.exhausted ≠ true := by
        rw [ne_eq, Pc.exhausted_iff]
        rintro ⟨sockFd, out⟩
        exact finds sockFd (by rw [at_, Option.map_some, out])
      simp [leaks, at_, Worker.leaves, searching]
  | _ => rfl

theorem length_leaked (history : History) :
    (leaked history).length = (history.filter (fun entry => ¬ FindsConnection entry.1 entry.2)).length := by
  rw [leaked, List.length_filterMap_eq_countP, ← List.countP_eq_length_filter]
  refine List.countP_congr fun entry _ => ?_
  by_cases finds : FindsConnection entry.1 entry.2
  · simp [leaks_of_finds finds, finds]
  · obtain ⟨index, input, worker, sockFd, same, at_, out⟩ := exhausted_of_not_finds finds
    obtain ⟨state, action⟩ := entry
    cases same
    simp [leaks_exhausted at_ out, finds]

/-- A step balances what it opens with what it closes, hands on and leaks. -/
structure Balances (state next : State) (opening closing leaking : List (Nat × Fd)) : Prop where
  closed : next.closed = state.closed ++ closing.map Prod.snd
  openFds : (next.openFds : Multiset Fd) + (closing.map Prod.snd : List Fd) =
    (opening.map Prod.snd : List Fd) + state.openFds
  owners : next.owners + (closing : Multiset (Nat × Fd)) + (leaking : Multiset (Nat × Fd)) =
    (opening : Multiset (Nat × Fd)) + state.owners

/-- A connector that is out of addresses lets go of its socket. -/
theorem balances_exhausted {index : Nat} {input : Input} {worker : Worker} {sockFd : Fd}
    (at_ : state.workers[index]? = some worker) (out : worker.pc = .connect sockFd [])
    (stepped : state.step settings (.work index input) = some next) :
    Balances state next (state.opens (.work index input)) [] [(worker.sessionId, sockFd)] := by
  obtain ⟨sessionId, pc⟩ := worker
  cases out
  have moved : next = { state with workers := state.workers.set index ⟨sessionId, .giveUp⟩ } := by
    obtain ⟨found, shared, after, sameAt, worked, placed⟩ := exists_of_work stepped
    cases at_.symm.trans sameAt
    have steps := Worker.steps_of_step worked
    cases steps with
    | exhausted => exact placed.symm
  have opensNone : state.opens (.work index input) = [] := by simp [opens, at_, Worker.opens]
  rw [opensNone, moved]
  refine ⟨by simp, by simp, ?_⟩
  have others := coe_eraseIdx at_
  have holding : (⟨sessionId, .connect sockFd []⟩ : Worker).holding = some (sessionId, sockFd) := rfl
  have nothing : (⟨sessionId, .giveUp⟩ : Worker).holding = none := rfl
  simp only [owners, ledger, coe_set at_, others, filterMap_cons_toList, holding, nothing, Option.toList_some,
    Option.toList_none, Multiset.coe_nil, Multiset.zero_add, Multiset.add_zero, Multiset.coe_singleton]
  abel

theorem step_balances (sound : state.ledger.Sound) (registers : Registers state action)
    (stepped : state.step settings action = some next) :
    ∃ closing, Balances state next (state.opens action) closing (leaks (state, action)).toList := by
  by_cases finds : FindsConnection state action
  · obtain ⟨closing, exchanged, -⟩ := step_exchanges sound registers finds stepped
    refine ⟨closing, exchanged.closed, exchanged.openFds, ?_⟩
    rw [leaks_of_finds finds, Option.toList_none, Multiset.coe_nil, Multiset.add_zero, exchanged.owners]
  · obtain ⟨index, input, worker, sockFd, rfl, at_, out⟩ := exhausted_of_not_finds finds
    rw [leaks_exhausted at_ out]
    exact ⟨[], balances_exhausted at_ out stepped⟩

/-- The books of a run. -/
structure DescriptorBooks (history : History) (state : State) : Prop where
  openFds : (state.openFds : Multiset Fd) =
    (startFds history state : Multiset Fd) + state.owners.map Prod.snd + ((leaked history).map Prod.snd : List Fd)
  all : ((opened history).map Prod.snd : Multiset Fd) =
    (state.closed : Multiset Fd) + state.owners.map Prod.snd + ((leaked history).map Prod.snd : List Fd)

theorem startFds_snoc (history : History) (state next : State) (action : Action) :
    startFds (history ++ [(state, action)]) next = startFds history state := by
  cases history with
  | nil => rfl
  | cons entry history => rfl

theorem leaked_snoc (history : History) (entry : State × Action) :
    leaked (history ++ [entry]) = leaked history ++ (leaks entry).toList :=
  filterMap_snoc leaks history entry

theorem opened_snoc (history : History) (entry : State × Action) :
    opened (history ++ [entry]) = opened history ++ entry.1.opens entry.2 := by
  simp [opened]

theorem DescriptorBooks.step (books : DescriptorBooks history state) {closing : List (Nat × Fd)}
    (balances : Balances state next (state.opens action) closing (leaks (state, action)).toList) :
    DescriptorBooks (history ++ [(state, action)]) next := by
  have owners := congrArg (Multiset.map Prod.snd) balances.owners
  simp only [Multiset.map_add, Multiset.map_coe] at owners
  constructor
  · rw [startFds_snoc, leaked_snoc, List.map_append, ← Multiset.coe_add]
    apply add_right_cancel (b := ((closing.map Prod.snd : List Fd) : Multiset Fd) + state.owners.map Prod.snd)
    calc
      (next.openFds : Multiset Fd) + (((closing.map Prod.snd : List Fd) : Multiset Fd) + state.owners.map Prod.snd)
          = ((state.opens action).map Prod.snd : List Fd) + state.owners.map Prod.snd + state.openFds := by
            rw [← Multiset.add_assoc, balances.openFds]
            abel
      _ = _ := by
        rw [← owners, books.openFds]
        abel
  · rw [opened_snoc, leaked_snoc, balances.closed]
    simp only [List.map_append, ← Multiset.coe_add]
    calc
      ((opened history).map Prod.snd : Multiset Fd) + ((state.opens action).map Prod.snd : List Fd)
          = (state.closed : Multiset Fd) + ((leaked history).map Prod.snd : List Fd) +
              (((state.opens action).map Prod.snd : List Fd) + state.owners.map Prod.snd) := by
            rw [books.all]
            abel
      _ = _ := by
        rw [← owners]
        abel

theorem books_of_run (run : Run (proxySystem settings) Registers history state) :
    DescriptorBooks history state := by
  apply run.historyInvariant DescriptorBooks
  · rintro state ⟨serverFd, commandFd, openFds, now, -, -, -, rfl⟩
    have nobody : (initial serverFd commandFd openFds now).owners = 0 := rfl
    constructor
    · rw [nobody]
      simp [startFds, leaked]
    · rw [nobody]
      rfl
  · intro history state action next earlier books registers stepped
    obtain ⟨closing, balances⟩ := step_balances (run_sound earlier) registers stepped
    exact books.step balances

/-- Without sessions nobody owns a descriptor. -/
theorem owners_of_idle (sound : state.ledger.Sound) (idle : state.sessions.sessionList = []) :
    state.owners = 0 := by
  have gone : ∀ sessionId, state.getSession sessionId = none := by
    intro sessionId
    rw [getSession, SessionManager.getSession, idle]
    rfl
  refine Multiset.eq_zero_of_forall_notMem fun owner member => ?_
  simp only [owners, Multiset.mem_add] at member
  rcases member with (inSessions | inSockets) | inWorkers | inPipe
  · obtain ⟨session, found, -⟩ := getSession_of_key sound inSessions
    cases (gone _).symm.trans found
  · obtain ⟨e, isEnd, -⟩ := Multiset.mem_map.mp inSockets
    obtain ⟨socket, member, rfl, -⟩ := mem_ends.mp isEnd
    obtain ⟨session, found⟩ := live_of_token sound (token_of_socket sound member)
    cases (gone _).symm.trans found
  · obtain ⟨worker, member, holding⟩ := (Multiset.mem_filterMap _ _).mp inWorkers
    obtain ⟨held, holds, -⟩ := Option.map_eq_some_iff.mp holding
    have owing : worker.replied = false := by
      cases pc : worker.pc with
      | clearCache => simp [Worker.held, pc, Pc.held] at holds
      | _ => simp [Worker.replied, pc]
    have isHolder : .worker worker ∈ state.holders := mem_holders.mpr ⟨member, owing⟩
    obtain ⟨session, found⟩ := exists_session sound isHolder
    cases (gone _).symm.trans found
  · obtain ⟨message, member, -⟩ := (Multiset.mem_filterMap _ _).mp inPipe
    have isHolder : .message message ∈ state.holders := mem_holders.mpr member
    obtain ⟨session, found⟩ := exists_session sound isHolder
    cases (gone _).symm.trans found

/-- In every run, what is open is what was open at the start, what live sessions own, and one socket
for each connector that ran out of addresses; everything else that was opened has been closed.  So
when no session is left, the table has grown by exactly the sockets of the failed connectors. -/
theorem descriptor_account (run : Run (proxySystem settings) Registers history state) :
    (state.openFds : Multiset Fd) =
      (startFds history state : Multiset Fd) + state.owners.map Prod.snd +
        ((leaked history).map Prod.snd : List Fd) ∧
    ((opened history).map Prod.snd : Multiset Fd) =
      (state.closed : Multiset Fd) + state.owners.map Prod.snd + ((leaked history).map Prod.snd : List Fd) ∧
    (state.sessions.sessionList = [] →
      state.openFds.length = (startFds history state).length +
        (history.filter (fun entry => ¬ FindsConnection entry.1 entry.2)).length) := by
  have books := books_of_run run
  refine ⟨books.openFds, books.all, fun idle => ?_⟩
  have size := congrArg Multiset.card books.openFds
  rw [owners_of_idle (run_sound run) idle] at size
  simp only [Multiset.card_add, Multiset.coe_card, Multiset.map_zero, Multiset.card_zero, Nat.add_zero,
    List.length_map, length_leaked] at size
  exact size

/-- The origin refuses the connection of an only client, and one more descriptor is open afterwards. -/
theorem descriptor_account_refuse : ∃ (history : History) (state : State),
    Run (proxySystem unrestricted) Registers history state ∧ state.sessions.sessionList = [] ∧
      state.openFds.length = 2 + 1 := by
  have executed : ∃ history state,
      runActions (State.step unrestricted) [] (initial 3 4 [3, 4] 0) refuse = some (history, state) ∧
      state.sessions.sessionList = [] ∧ (startFds history state).length = 2 ∧
      (history.filter (fun entry => ¬ FindsConnection entry.1 entry.2)).length = 1 :=
    ⟨_, _, rfl, by decide, by decide, by decide⟩
  obtain ⟨history, state, executed, idle, atStart, failed⟩ := executed
  have run := run_of_executed registers_refuse executed
  have grown := (descriptor_account run).2.2 idle
  exact ⟨history, state, run, idle, by rw [grown, atStart, failed]⟩

end State

end NermalProxy
