import Mathlib.Algebra.GroupWithZero.Nat
import NermalProxy.Library.Transition

/-! # Potentials of a transition system

A potential is a bound on the work that is left.  Steps that work lower it, steps that
bring work in raise it, so over a whole run the work done is paid for by what came in. -/

namespace NermalProxy.Transition

variable {State Action : Type*} {system : System State Action}
  {allowed : State → Action → Prop} {history : List (State × Action)} {state : State}

/-- What the steps of a run cost or bring in, all together. -/
def tally (amount : Action → Nat) (history : List (State × Action)) : Nat :=
  (history.map (fun entry => amount entry.2)).sum

@[simp] theorem tally_nil (amount : Action → Nat) :
    tally amount ([] : List (State × Action)) = 0 := rfl

@[simp] theorem tally_snoc (amount : Action → Nat) (history : List (State × Action))
    (entry : State × Action) :
    tally amount (history ++ [entry]) = tally amount history + amount entry.2 := by
  simp [tally]

theorem tally_mul (factor : Nat) (amount : Action → Nat) (history : List (State × Action)) :
    tally (fun action => factor * amount action) history = factor * tally amount history := by
  simp only [tally]
  induction history with
  | nil => rfl
  | cons entry history inductionHypothesis =>
    simp only [List.map_cons, List.sum_cons, inductionHypothesis, Nat.mul_add]

/-- The rule for work that every step pays for out of the potential. -/
theorem Run.amortized {cost gain : Action → Nat} (potential : State → Nat)
    (initially : ∀ state, system.initial state → potential state = 0)
    (paid : ∀ history state action next, Run system allowed history state → allowed state action →
      system.step state action next → potential next + cost action ≤ potential state + gain action)
    (run : Run system allowed history state) :
    potential state + tally cost history ≤ tally gain history := by
  apply run.historyInvariant (fun history state => potential state + tally cost history ≤ tally gain history)
  · intro state initial
    simp [initially state initial]
  · intro history state action next earlier bounded permitted steps
    have step := paid history state action next earlier permitted steps
    simp only [tally_snoc]
    omega

/-- The rule for settling down: where a potential can be lowered until there is none, finitely many
steps lead from every reachable state to one without. -/
theorem Run.settles (working : Action → Prop) (potential : State → Nat)
    (progress : ∀ history state, Run system allowed history state → potential state ≠ 0 →
      ∃ action next, working action ∧ allowed state action ∧ system.step state action next ∧
        potential next < potential state)
    (run : Run system allowed history state) :
    ∃ more final, Run system allowed (history ++ more) final ∧ (∀ entry ∈ more, working entry.2) ∧
      more.length ≤ potential state ∧ potential final = 0 := by
  induction work : potential state using Nat.strongRecOn generalizing history state with
  | ind left inductionHypothesis =>
    by_cases done : potential state = 0
    · exact ⟨[], state, by simpa using run, by simp, by simp, done⟩
    · obtain ⟨action, next, works, permitted, steps, lower⟩ := progress history state run done
      obtain ⟨more, final, longer, all, short, settled⟩ :=
        inductionHypothesis (potential next) (work ▸ lower) (run.snoc permitted steps) rfl
      refine ⟨(state, action) :: more, final, by simpa using longer, ?_, ?_, settled⟩
      · rintro entry (_ | ⟨_, member⟩)
        · exact works
        · exact all entry member
      · simp only [List.length_cons]
        omega

end NermalProxy.Transition
