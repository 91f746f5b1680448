import NermalProxy.Library.Transition

/-! # Weak simulations

One system answers each step of another with a number of steps of its own, of which
there may be none, that show the same.  What a run shows is then also shown by a run
of the system that answers. -/

namespace NermalProxy.Transition

variable {State Action Other OtherAction Shown : Type*} {system : System State Action}
  {allowed : State → Action → Prop} {history : List (State × Action)} {state : State}

/-- The rule for a relation along which the other system answers. -/
theorem Run.answered (other : System Other OtherAction) (otherAllowed : Other → OtherAction → Prop)
    (shows : State × Action → Option Shown) (otherShows : Other × OtherAction → Option Shown)
    (relates : State → Other → Prop)
    (initially : ∀ state, system.initial state → ∃ answer, other.initial answer ∧ relates state answer)
    (answers : ∀ history state action next earlier answer, Run system allowed history state →
      Run other otherAllowed earlier answer → relates state answer → allowed state action →
      system.step state action next →
        ∃ more after, Run other otherAllowed (earlier ++ more) after ∧ relates next after ∧
          more.filterMap otherShows = (shows (state, action)).toList)
    (run : Run system allowed history state) :
    ∃ answering answer, Run other otherAllowed answering answer ∧ relates state answer ∧
      answering.filterMap otherShows = history.filterMap shows := by
  induction run with
  | start initialState =>
    obtain ⟨answer, isInitial, related⟩ := initially _ initialState
    exact ⟨[], answer, .start isInitial, related, rfl⟩
  | snoc earlier permitted steps inductionHypothesis =>
    obtain ⟨answering, answer, soFar, related, same⟩ := inductionHypothesis
    obtain ⟨more, after, longer, stays, shown⟩ := answers _ _ _ _ _ _ earlier soFar related permitted steps
    refine ⟨answering ++ more, after, longer, stays, ?_⟩
    rw [List.filterMap_append, same, shown, filterMap_snoc]

end NermalProxy.Transition
