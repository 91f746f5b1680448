import Mathlib.Data.List.Basic
import Mathlib.Data.List.Induction

/-! # Runs of a transition system

A `System` has initial states and a labelled step relation.  `Run system allowed
history state` is a finite run that ends in `state`; `history` lists, oldest
first, each state the run left together with the action it took there, and every
taken step satisfies `allowed`.  Recording the states makes "this happened
earlier in the run" a statement about `history`, so a property over time is an
invariant of the pair of history and state. -/

namespace NermalProxy.Transition

structure System (State Action : Type*) where
  initial : State → Prop
  step : State → Action → State → Prop

variable {State Action : Type*}

inductive Run (system : System State Action) (allowed : State → Action → Prop) :
    List (State × Action) → State → Prop
  | start {state : State} (initially : system.initial state) : Run system allowed [] state
  | snoc {history : List (State × Action)} {state next : State} {action : Action}
      (earlier : Run system allowed history state) (permitted : allowed state action)
      (steps : system.step state action next) :
      Run system allowed (history ++ [(state, action)]) next

/-- Every entry of a history splits it. -/
theorem split_history {history : List (State × Action)} {index : Nat} {entry : State × Action}
    (at_ : history[index]? = some entry) :
    history = history.take index ++ (entry.1, entry.2) :: history.drop (index + 1) := by
  obtain ⟨inside, rfl⟩ := List.getElem?_eq_some_iff.mp at_
  rw [List.getElem_cons_drop, List.take_append_drop]

/-- What a history shows that grows by one step. -/
theorem filterMap_snoc {Shown : Type*} (shows : State × Action → Option Shown)
    (history : List (State × Action)) (entry : State × Action) :
    (history ++ [entry]).filterMap shows = history.filterMap shows ++ (shows entry).toList := by
  rw [List.filterMap_append]
  cases found : shows entry <;> simp [found]

section Rules

variable {system : System State Action} {allowed permissive : State → Action → Prop}
  {history : List (State × Action)} {state : State}

/-- The rule for properties of the pair of history and state. -/
theorem Run.historyInvariant (invariant : List (State × Action) → State → Prop)
    (initially : ∀ state, system.initial state → invariant [] state)
    (preserved : ∀ history state action next, Run system allowed history state →
      invariant history state → allowed state action → system.step state action next →
      invariant (history ++ [(state, action)]) next)
    (run : Run system allowed history state) : invariant history state := by
  induction run with
  | start initialState => exact initially _ initialState
  | snoc earlier permitted steps inductionHypothesis =>
    exact preserved _ _ _ _ earlier inductionHypothesis permitted steps

/-- The rule for properties of the reached state alone. -/
theorem Run.invariant (invariant : State → Prop)
    (initially : ∀ state, system.initial state → invariant state)
    (preserved : ∀ state action next, invariant state → allowed state action →
      system.step state action next → invariant next)
    (run : Run system allowed history state) : invariant state :=
  run.historyInvariant (fun _ state => invariant state) initially
    (fun _ state action next _ holds permitted steps =>
      preserved state action next holds permitted steps)

theorem Run.last {before : State} {action : Action}
    (run : Run system allowed (history ++ [(before, action)]) state) :
    Run system allowed history before ∧ allowed before action ∧ system.step before action state := by
  generalize all : history ++ [(before, action)] = recorded at run
  cases run with
  | start => simp at all
  | snoc earlier permitted steps =>
    obtain ⟨rfl, same⟩ := List.append_inj' all rfl
    simp only [List.cons.injEq, Prod.mk.injEq, and_true] at same
    obtain ⟨rfl, rfl⟩ := same
    exact ⟨earlier, permitted, steps⟩

/-- The rule for what holds of everything that follows a step of the run. -/
theorem Run.since {opening : State} {action : Action} {before after : List (State × Action)}
    (invariant : List (State × Action) → State → Prop)
    (starts : ∀ next, Run system allowed before opening → allowed opening action →
      system.step opening action next → invariant [] next)
    (preserved : ∀ after state later next, Run system allowed (before ++ (opening, action) :: after) state →
      invariant after state → allowed state later → system.step state later next →
      invariant (after ++ [(state, later)]) next)
    (run : Run system allowed (before ++ (opening, action) :: after) state) : invariant after state := by
  induction after using List.reverseRecOn generalizing state with
  | nil =>
    obtain ⟨earlier, permitted, steps⟩ := run.last
    exact starts state earlier permitted steps
  | append_singleton after entry inductionHypothesis =>
    obtain ⟨last, lastAction⟩ := entry
    rw [← List.cons_append, ← List.append_assoc] at run
    obtain ⟨earlier, permitted, steps⟩ := run.last
    exact preserved _ _ _ _ earlier (inductionHypothesis earlier) permitted steps

/-- Where a recorded step was taken. -/
theorem Run.opened {opening : State} {action : Action} {before after : List (State × Action)}
    (run : Run system allowed (before ++ (opening, action) :: after) state) :
    Run system allowed before opening ∧ allowed opening action ∧ ∃ next, system.step opening action next := by
  refine run.since (fun _ _ => Run system allowed before opening ∧ allowed opening action ∧
    ∃ next, system.step opening action next) ?_ ?_
  · exact fun next earlier permitted steps => ⟨earlier, permitted, next, steps⟩
  · exact fun _ _ _ _ _ holds _ _ => holds

/-- The rule for what holds as long as all the steps that follow a step are of one kind. -/
theorem Run.sinceAll {opening : State} {action : Action} {before after : List (State × Action)}
    (kind : State × Action → Prop) (invariant : List (State × Action) → State → Prop)
    (starts : ∀ next, system.step opening action next → invariant [] next)
    (preserved : ∀ after state later next, Run system allowed (before ++ (opening, action) :: after) state →
      (∀ entry ∈ after, kind entry) → invariant after state → kind (state, later) → allowed state later →
      system.step state later next → invariant (after ++ [(state, later)]) next)
    (run : Run system allowed (before ++ (opening, action) :: after) state)
    (all : ∀ entry ∈ after, kind entry) : invariant after state := by
  refine run.since (fun after state => (∀ entry ∈ after, kind entry) → invariant after state) ?_ ?_ all
  · exact fun next _ _ steps _ => starts next steps
  · intro after state later next earlier soFar permitted steps longer
    rw [List.forall_mem_append, List.forall_mem_singleton] at longer
    obtain ⟨older, last⟩ := longer
    exact preserved after state later next earlier older (soFar older) last permitted steps

/-- A run is a run under whatever its recorded steps satisfy. -/
theorem Run.recorded (run : Run system allowed history state)
    (all : ∀ entry ∈ history, permissive entry.1 entry.2) : Run system permissive history state := by
  induction run with
  | start initialState => exact .start initialState
  | snoc _ _ steps inductionHypothesis =>
    have older := inductionHypothesis (fun entry member => all entry (List.mem_append_left _ member))
    exact .snoc older (all _ (List.mem_append_right _ (List.mem_singleton_self _))) steps

theorem Run.weaken (weaker : ∀ state action, allowed state action → permissive state action)
    (run : Run system allowed history state) : Run system permissive history state := by
  induction run with
  | start initialState => exact .start initialState
  | snoc _ permitted steps inductionHypothesis => exact .snoc inductionHypothesis (weaker _ _ permitted) steps

/-- Every step that was taken was allowed. -/
theorem Run.permitted (run : Run system allowed history state) :
    ∀ entry ∈ history, allowed entry.1 entry.2 :=
  run.historyInvariant (fun history _ => ∀ entry ∈ history, allowed entry.1 entry.2)
    (fun _ _ _ member => absurd member List.not_mem_nil)
    (fun _ _ _ _ _ older permitted _ =>
      List.forall_mem_append.mpr ⟨older, List.forall_mem_singleton.mpr permitted⟩)

/-- A simulation that answers each step with one step. -/
theorem Run.maps {Other OtherAction : Type*} {other : System Other OtherAction}
    {otherAllowed : Other → OtherAction → Prop} (onState : State → Other) (onAction : Action → OtherAction)
    (initially : ∀ state, system.initial state → other.initial (onState state))
    (simulates : ∀ history state action next, Run system allowed history state →
      Run other otherAllowed (history.map (fun entry => (onState entry.1, onAction entry.2))) (onState state) →
      allowed state action → system.step state action next →
        otherAllowed (onState state) (onAction action) ∧
          other.step (onState state) (onAction action) (onState next))
    (run : Run system allowed history state) :
    Run other otherAllowed (history.map (fun entry => (onState entry.1, onAction entry.2)))
      (onState state) := by
  induction run with
  | start initialState => exact .start (initially _ initialState)
  | snoc earlier permitted steps inductionHypothesis =>
    obtain ⟨otherPermitted, otherSteps⟩ := simulates _ _ _ _ earlier inductionHypothesis permitted steps
    rw [List.map_append]
    exact .snoc inductionHypothesis otherPermitted otherSteps

end Rules

section Execution

variable {execute : State → Action → Option State}

/-- The system of a partial step function. -/
def System.ofFunction (initial : State → Prop) (execute : State → Action → Option State) :
    System State Action where
  initial := initial
  step state action next := execute state action = some next

/-- Runs the actions in order and records the history. -/
def runActions (execute : State → Action → Option State) :
    List (State × Action) → State → List Action → Option (List (State × Action) × State)
  | history, state, [] => some (history, state)
  | history, state, action :: actions =>
    match execute state action with
    | none => none
    | some next => runActions execute (history ++ [(state, action)]) next actions

/-- What `runActions` computes is a run, so a concrete run is found by evaluation. -/
theorem run_of_runActions {initial : State → Prop} {allowed : State → Action → Prop}
    {actions : List Action} {before history : List (State × Action)} {state final : State}
    (run : Run (System.ofFunction initial execute) allowed before state)
    (permitted : ∀ action ∈ actions, ∀ state, allowed state action)
    (executed : runActions execute before state actions = some (history, final)) :
    Run (System.ofFunction initial execute) allowed history final := by
  induction actions generalizing before state with
  | nil =>
    simp only [runActions, Option.some.injEq, Prod.mk.injEq] at executed
    obtain ⟨rfl, rfl⟩ := executed
    exact run
  | cons action actions inductionHypothesis =>
    simp only [runActions] at executed
    cases stepped : execute state action with
    | none => simp [stepped] at executed
    | some next =>
      rw [stepped] at executed
      have allowed_ := permitted action (List.mem_cons_self ..) state
      have others : ∀ action ∈ actions, ∀ state, allowed state action :=
        fun other member => permitted other (List.mem_cons_of_mem _ member)
      exact inductionHypothesis (.snoc run allowed_ stepped) others executed

end Execution

end NermalProxy.Transition
