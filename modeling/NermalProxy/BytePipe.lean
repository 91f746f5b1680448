import NermalProxy.CommandRead
import NermalProxy.DescriptorAccount
import NermalProxy.Provenance

/-! # The pipe as bytes

The proxy's pipe holds messages; the program's holds bytes.  While every read of the pipe
delivers a whole message, and session ids and descriptors fit an `int`, the two have the
same runs, step by step. -/

namespace NermalProxy

open NermalProxy.CString NermalProxy.KeyedList NermalProxy.Config NermalProxy.Transition
  NermalProxy.LittleEndian

namespace State

variable {state next : State} {settings : Settings} {history : History} {action : Action}

/-- The descriptors that the kernel hands out and the id of the next session fit an `int`. -/
def InRange (state : State) (action : Action) : Prop :=
  Registers state action ∧ state.sessions.sessionId ≤ 2147483648 ∧
    ∀ opened ∈ state.opens action, FitsInt opened.2

instance (state : State) (action : Action) : Decidable (state.InRange action) :=
  inferInstanceAs (Decidable (_ ∧ _ ∧ ∀ opened ∈ state.opens action,
    -2147483648 ≤ opened.2 ∧ opened.2 < 2147483648))

/-- What a worker writes comes with a descriptor or with -1. -/
theorem work_writes {worker : Worker} {input : Input} {shared : State} {after : Option Pc}
    {sessionId : Nat} {proxyFd : Fd} (stepped : worker.step input state = some (shared, after))
    (pipe : shared.pipe = state.pipe ++ [.hostConnectResult sessionId proxyFd false]) : proxyFd = -1 := by
  have steps := Worker.steps_of_step stepped
  obtain ⟨own, pc⟩ := worker
  cases steps with
  | detectReply | connectReply =>
    simp only [sendResponse, writeMessage] at pipe
    cases List.append_cancel_left pipe
  | abort | giveUp =>
    simp only [sendErrorResponse, sendResponse, writeMessage] at pipe
    cases List.append_cancel_left pipe
    rfl
  | _ =>
    have lengths := congrArg List.length pipe
    simp [updateSession] at lengths

theorem failed_fd (run : Run (proxySystem settings) Registers history state) :
    ∀ sessionId proxyFd, .hostConnectResult sessionId proxyFd false ∈ state.pipe → proxyFd = -1 := by
  refine run.historyInvariant (fun _ state => ∀ sessionId proxyFd,
    .hostConnectResult sessionId proxyFd false ∈ state.pipe → proxyFd = -1) ?_ ?_
  · rintro state ⟨serverFd, commandFd, openFds, now, -, -, -, rfl⟩ sessionId proxyFd member
    cases member
  · intro history state action next earlier older registers stepped sessionId proxyFd member
    have isHolder : .message (.hostConnectResult sessionId proxyFd false) ∈ next.holders :=
      mem_holders.mpr member
    cases step_arrives (run_sound earlier) registers stepped isHolder with
    | kept was _ => exact older _ _ (mem_holders.mp was)
    | blocked => rfl
    | replied _ _ _ worked _ pipe _ => exact work_writes worked pipe

/-- A descriptor with an owner has been opened in the run. -/
theorem owner_opened (run : Run (proxySystem settings) Registers history state) {owner : Nat × Fd}
    (member : owner ∈ state.owners) : owner.2 ∈ (opened history).map Prod.snd := by
  have inAll : owner.2 ∈ ((opened history).map Prod.snd : Multiset Fd) := by
    rw [(books_of_run run).all, Multiset.mem_add, Multiset.mem_add]
    exact .inl (.inr (Multiset.mem_map_of_mem _ member))
  exact inAll

/-- Every message in the pipe is read back as it was written. -/
theorem message_fits (run : Run (proxySystem settings) InRange history state)
    (bound : state.sessions.sessionId ≤ 2147483648) : ∀ message ∈ state.pipe, message.Fits := by
  have registers := run.weaken fun _ _ permitted => permitted.1
  intro message member
  have isHolder : .message message ∈ state.holders := mem_holders.mpr member
  obtain ⟨session, found⟩ := exists_session (run_sound registers) isHolder
  have fitsId : FitsInt message.sessionId := by
    have small := lt_of_getSession (run_sound registers) found
    have sameId : Holder.sessionId (.message message) = message.sessionId := rfl
    rw [sameId] at small
    exact ⟨by omega, by omega⟩
  cases message with
  | hostDetectResult sessionId success => exact fitsId
  | hostConnectResult sessionId proxyFd success =>
    refine ⟨fitsId, ?_⟩
    cases success with
    | false =>
      rw [failed_fd registers sessionId proxyFd member]
      exact ⟨by decide, by decide⟩
    | true =>
      have owner : (sessionId, proxyFd) ∈ state.owners :=
        Multiset.mem_add.mpr (.inr (Multiset.mem_add.mpr (.inr
          ((Multiset.mem_filterMap _ _).mpr ⟨_, member, rfl⟩))))
      obtain ⟨pair, isOpened, same⟩ := List.mem_map.mp (owner_opened registers owner)
      obtain ⟨entry, inHistory, opens⟩ := List.mem_flatMap.mp isOpened
      have fits := (run.permitted entry inHistory).2.2 pair opens
      rwa [same] at fits

end State

namespace Piped

variable {settings : Settings} {piped next : Piped} {history : History} {state : State}
  {lifted : List (Piped × PipeAction)}

/-- The proxy's step: a read of the pipe is the event that it is read in. -/
def shown : PipeAction → Action
  | .proxy action => action
  | .read read => .command read.localTime read.now read.registered

/-- The pipe is only read by `::read`, which delivers a whole message. -/
def Bytewise (piped : Piped) (action : PipeAction) : Prop :=
  piped.state.InRange (shown action) ∧
    match action with
    | .proxy action => isCommand action = false
    | .read read => ¬ Short read.result

/-- With nothing torn, a read of a whole message delivers the first one in the pipe. -/
theorem first_delivered {read : CommandRead} (untorn : piped.torn = []) (whole : ¬ Short read.result)
    (delivers : Delivers read.result piped.contents) :
    ∃ message rest, piped.state.pipe = message :: rest ∧ read.result = .data message.encode := by
  cases result : read.result with
  | endOfStream | error _ =>
    rw [result] at whole
    exact absurd (by simp [Short, ClientSocket.delivered, messageSize]) whole
  | data data =>
    rw [result] at whole delivers
    obtain ⟨-, small, isFront⟩ := delivers
    have size : data.length = messageSize := Nat.le_antisymm small (Nat.not_lt.mp whole)
    rw [contents, untorn, List.nil_append, size] at isFront
    cases pipe : piped.state.pipe with
    | nil =>
      rw [pipe] at isFront
      rw [isFront] at size
      cases size
    | cons message rest =>
      refine ⟨message, rest, rfl, ?_⟩
      rw [pipe, List.flatMap_cons, ← length_encode message, List.take_left] at isFront
      rw [isFront]

/-- A read of a whole message is the proxy's own step. -/
theorem read_step {read : CommandRead} (untorn : piped.torn = []) (whole : ¬ Short read.result)
    (fits : ∀ message ∈ piped.state.pipe, message.Fits)
    (stepped : piped.step settings (.read read) = some next) :
    next.torn = [] ∧ piped.state.step settings (shown (.read read)) = some next.state := by
  obtain ⟨message, rest, first, delivered⟩ := first_delivered untorn whole (delivers_of_handleRead stepped)
  obtain ⟨torn, state⟩ := piped
  obtain ⟨localTime, now, registered, memory, result⟩ := read
  cases untorn
  cases delivered
  have fitsFirst : message.Fits := fits message (first ▸ List.mem_cons_self ..)
  have same := @handleRead_whole settings _ _ _ first fitsFirst localTime now registered memory
  change handleRead settings _ _ = some next at stepped
  rw [same] at stepped
  simp only [step, ne_eq, not_true_eq_false, and_false, if_false] at stepped
  obtain ⟨after, performed, rfl⟩ := Option.map_eq_some_iff.mp stepped
  exact ⟨rfl, performed⟩

/-- A read of a whole message leaves nothing of it behind. -/
theorem read_untorn {read : CommandRead} (untorn : piped.torn = []) (whole : ¬ Short read.result)
    (stepped : piped.step settings (.read read) = some next) : next.torn = [] := by
  have delivers := delivers_of_handleRead stepped
  obtain ⟨message, rest, first, delivered⟩ := first_delivered untorn whole delivers
  change handleRead settings read piped = some next at stepped
  simp only [handleRead, if_pos delivers] at stepped
  obtain ⟨state, -, rfl⟩ := Option.map_eq_some_iff.mp stepped
  have longer : ¬ message.encode.length ≤ 0 := by
    rw [length_encode]
    decide
  simp only [delivered, ClientSocket.delivered, consume, untorn, List.length_nil, if_neg longer, first,
    Nat.sub_zero, List.drop_length]

theorem untorn_of_run (run : Run (pipeSystem settings) Bytewise lifted piped) : piped.torn = [] := by
  apply run.invariant (fun piped => piped.torn = [])
  · exact fun piped initially => initially.1
  · intro piped action next untorn permitted stepped
    cases action with
    | proxy action =>
      change piped.step settings (.proxy action) = some next at stepped
      simp only [step] at stepped
      split at stepped
      · cases stepped
      · obtain ⟨state, -, rfl⟩ := Option.map_eq_some_iff.mp stepped
        exact untorn
    | read read => exact read_untorn untorn permitted.2 stepped

/-- The byte pipe and the pipe of messages have the same runs: what the bytes do is a run of the proxy,
step by step, and every run of the proxy is what some bytes do. -/
theorem bytes_refine :
    (∀ {lifted : List (Piped × PipeAction)} {piped : Piped}, Run (pipeSystem settings) Bytewise lifted piped →
      piped.torn = [] ∧
        Run (proxySystem settings) State.InRange
          (lifted.map (fun entry => (entry.1.state, shown entry.2))) piped.state) ∧
    ∀ {history : History} {state : State}, Run (proxySystem settings) State.InRange history state →
      ∃ lifted, Run (pipeSystem settings) Bytewise lifted ⟨[], state⟩ ∧
        lifted.map (fun entry => (entry.1.state, shown entry.2)) = history := by
  constructor
  · intro lifted piped run
    have starts : ∀ piped : Piped, (pipeSystem settings).initial piped →
        (proxySystem settings).initial piped.state := fun piped initially => initially.2
    refine ⟨untorn_of_run run, run.maps Piped.state shown starts ?_⟩
    intro history piped action next earlier shownRun permitted stepped
    refine ⟨permitted.1, ?_⟩
    cases action with
    | proxy action =>
      change piped.step settings (.proxy action) = some next at stepped
      simp only [step] at stepped
      split at stepped
      · cases stepped
      · obtain ⟨state, performed, rfl⟩ := Option.map_eq_some_iff.mp stepped
        exact performed
    | read read =>
      have fits := State.message_fits shownRun permitted.1.2.1
      exact (read_step (untorn_of_run earlier) permitted.2 fits stepped).2
  · intro history state run
    induction run with
    | start initially => exact ⟨[], .start ⟨rfl, initially⟩, rfl⟩
    | @snoc history state next action earlier permitted stepped inductionHypothesis =>
      obtain ⟨lifted, pipeRun, rfl⟩ := inductionHypothesis
      change state.step settings action = some next at stepped
      have alone : ∀ action, state.step settings action = some next →
          step settings ⟨[], state⟩ (.proxy action) = some ⟨[], next⟩ := by
        intro action stepped
        simp [step, stepped]
      have longer : ∀ lone, Bytewise ⟨[], state⟩ lone → shown lone = action →
          step settings ⟨[], state⟩ lone = some ⟨[], next⟩ →
          ∃ longer, Run (pipeSystem settings) Bytewise longer ⟨[], next⟩ ∧
            longer.map (fun entry => (entry.1.state, shown entry.2)) =
              lifted.map (fun entry => (entry.1.state, shown entry.2)) ++ [(state, action)] := by
        intro lone bytewise isShown steps
        refine ⟨_, pipeRun.snoc bytewise steps, ?_⟩
        rw [List.map_append, List.map_singleton, isShown]
      cases action with
      | command localTime now registered =>
        cases first : state.pipe with
        | nil => simp [State.step, SocketManager.handleCommandSocketRead, first] at stepped
        | cons message rest =>
          have fits := State.message_fits earlier permitted.2.1 message (first ▸ List.mem_cons_self ..)
          have whole : ¬ Short (.data message.encode) := by
            rw [Short, ClientSocket.delivered, length_encode]
            exact Nat.lt_irrefl _
          refine longer (.read ⟨localTime, now, registered, [], .data message.encode⟩) ⟨permitted, whole⟩ rfl ?_
          exact (handleRead_whole first fits localTime now registered []).trans (alone _ stepped)
      | _ => exact longer (.proxy _) ⟨permitted, rfl⟩ rfl (alone _ stepped)

/-- The bytes of a client's request whose origin refuses the connection. -/
theorem bytes_refine_refuse : ∃ (lifted : List (Piped × PipeAction)) (piped : Piped),
    Run (pipeSystem State.unrestricted) Bytewise lifted piped ∧ piped.torn = [] ∧
      (lifted.filter (fun entry => isCommand (shown entry.2))).length = 2 := by
  have executed : ∃ history state,
      runActions (State.step State.unrestricted) [] (State.initial 3 4 [3, 4] 0) State.refuse =
        some (history, state) ∧
      (∀ entry ∈ history, entry.1.InRange entry.2) ∧
      (history.filter (fun entry => isCommand entry.2)).length = 2 := ⟨_, _, rfl, by decide, by decide⟩
  obtain ⟨history, state, executed, inRange, commands⟩ := executed
  have run : Run (proxySystem State.unrestricted) State.InRange history state :=
    (State.run_of_executed State.registers_refuse executed).recorded inRange
  obtain ⟨lifted, pipeRun, same⟩ := bytes_refine.2 run
  refine ⟨lifted, _, pipeRun, (bytes_refine.1 pipeRun).1, ?_⟩
  rw [← same, List.filter_map, List.length_map] at commands
  exact commands

end Piped

end NermalProxy
