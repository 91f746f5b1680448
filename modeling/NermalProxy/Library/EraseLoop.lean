import Mathlib.Data.List.Basic
import Mathlib.Data.List.Chain

/-! # Erasing from a list while walking it

`eraseLoop` is the loop `for (it = begin; it != end; it++) if (p(*it)) erase(it++);`
of a linked list: an erase moves the cursor to the next element and the loop header
moves it once more, so the element behind an erased one is never looked at.
`OnlyDrops p before after` says that `after` is `before` without some elements that
satisfy `p`: nothing else is missing, moved or changed. -/

namespace NermalProxy.EraseLoop

variable {α : Type*}

inductive OnlyDrops (p : α → Prop) : List α → List α → Prop
  | nil : OnlyDrops p [] []
  | keep (x : α) {before after : List α} (rest : OnlyDrops p before after) :
      OnlyDrops p (x :: before) (x :: after)
  | drop {x : α} {before after : List α} (dropped : p x) (rest : OnlyDrops p before after) :
      OnlyDrops p (x :: before) after

section OnlyDrops

variable {p q : α → Prop} {before after : List α}

theorem OnlyDrops.sublist (drops : OnlyDrops p before after) : after.Sublist before := by
  induction drops with
  | nil => exact List.Sublist.refl []
  | keep x _ inductionHypothesis => exact inductionHypothesis.cons_cons x
  | drop _ _ inductionHypothesis => exact inductionHypothesis.cons _

theorem OnlyDrops.mono (drops : OnlyDrops p before after) (weaker : ∀ x ∈ before, p x → q x) :
    OnlyDrops q before after := by
  induction drops with
  | nil => exact .nil
  | keep x _ inductionHypothesis =>
    exact .keep x (inductionHypothesis (fun y member => weaker y (by simp [member])))
  | drop dropped _ inductionHypothesis =>
    exact .drop (weaker _ (by simp) dropped)
      (inductionHypothesis (fun y member => weaker y (by simp [member])))

end OnlyDrops

/-- What a walk leaves: the list, the elements the body looked at and left, each with
its turn, and whether the header moved the cursor when it was already at the end. -/
structure Walk (α : Type*) where
  kept : List α
  passed : List (Nat × α)
  pastEnd : Bool

/-- `erases turn x` decides the `turn`-th element the body looks at. -/
def eraseLoop (erases : Nat → α → Bool) : Nat → List α → Walk α
  | _, [] => ⟨[], [], false⟩
  | turn, x :: rest =>
    if erases turn x then
      match rest with
      | [] => ⟨[], [], true⟩
      | skipped :: rest =>
        let walk := eraseLoop erases (turn + 1) rest
        { walk with kept := skipped :: walk.kept }
    else
      let walk := eraseLoop erases (turn + 1) rest
      { walk with kept := x :: walk.kept, passed := (turn, x) :: walk.passed }

/-- The step over an element the body leaves. -/
theorem eraseLoop_left {erases : Nat → α → Bool} {turn : Nat} {x : α}
    (left : ¬ erases turn x = true) (rest : List α) :
    eraseLoop erases turn (x :: rest) =
      { eraseLoop erases (turn + 1) rest with
        kept := x :: (eraseLoop erases (turn + 1) rest).kept
        passed := (turn, x) :: (eraseLoop erases (turn + 1) rest).passed } := by
  cases rest <;> simp [eraseLoop, left]

theorem eraseLoop_onlyDrops (erases : Nat → α → Bool) (turn : Nat) (list : List α) :
    OnlyDrops (fun x => ∃ visit < list.length, erases (turn + visit) x = true) list
      (eraseLoop erases turn list).kept := by
  have later : ∀ {tail list kept : List α} {turn : Nat}, tail.length < list.length →
      OnlyDrops (fun x => ∃ visit < tail.length, erases (turn + 1 + visit) x = true) tail kept →
      OnlyDrops (fun x => ∃ visit < list.length, erases (turn + visit) x = true) tail kept := by
    intro tail list kept turn shorter drops
    apply drops.mono
    rintro x - ⟨visit, bound, erased⟩
    exact ⟨visit + 1, by omega, by rwa [show turn + (visit + 1) = turn + 1 + visit by omega]⟩
  induction turn, list using eraseLoop.induct erases with
  | case1 turn => exact .nil
  | case2 turn x erased =>
    simp only [eraseLoop, erased, if_true]
    exact .drop ⟨0, by simp, erased⟩ .nil
  | case3 turn x erased skipped rest inductionHypothesis =>
    simp only [eraseLoop, erased, if_true]
    exact .drop ⟨0, by simp, erased⟩ (.keep skipped (later (by simp only [List.length_cons]; omega) inductionHypothesis))
  | case4 turn x rest left inductionHypothesis =>
    rw [eraseLoop_left left]
    exact .keep x (later (by simp) inductionHypothesis)

theorem eraseLoop_passed (erases : Nat → α → Bool) (turn : Nat) (list : List α) :
    ∀ passed ∈ (eraseLoop erases turn list).passed,
      passed.2 ∈ list ∧ ∃ visit < list.length, passed.1 = turn + visit ∧
        erases passed.1 passed.2 = false := by
  induction turn, list using eraseLoop.induct erases with
  | case1 turn => simp [eraseLoop]
  | case2 turn x erased => simp [eraseLoop, erased]
  | case3 turn x erased skipped rest inductionHypothesis =>
    intro passed member
    simp only [eraseLoop, erased, if_true] at member
    obtain ⟨inRest, visit, bound, at_, left⟩ := inductionHypothesis passed member
    refine ⟨by simp [inRest], visit + 1, ?_, by omega, left⟩
    simp only [List.length_cons]
    omega
  | case4 turn x rest left inductionHypothesis =>
    intro passed member
    rw [eraseLoop_left left] at member
    simp only [List.mem_cons] at member
    rcases member with rfl | member
    · exact ⟨by simp, 0, by simp, by simp, by simpa using left⟩
    · obtain ⟨inRest, visit, bound, at_, left⟩ := inductionHypothesis passed member
      refine ⟨by simp [inRest], visit + 1, ?_, by omega, left⟩
      simp only [List.length_cons]
      omega

/-! ## A fixed condition

The walk that erases every element with `p` and collects what it leaves with `q` does so
exactly when no element with `p` stands in front of one that the body has to act on. -/

section Fixed

variable {p q : α → Bool}

/-- Nothing but elements with `p` is erased. -/
theorem length_filter_le_kept (p : α → Bool) (turn : Nat) (list : List α) :
    (list.filter (fun x => !p x)).length ≤ (eraseLoop (fun _ => p) turn list).kept.length := by
  induction turn, list using eraseLoop.induct (fun _ => p) with
  | case1 turn => simp
  | case2 turn x erased => simp [erased]
  | case3 turn x erased skipped rest inductionHypothesis =>
    simp only [eraseLoop, erased, if_true, List.length_cons, Bool.not_true, Bool.false_eq_true,
      not_false_eq_true, List.filter_cons_of_neg]
    cases again : p skipped with
    | true =>
      simp only [again, Bool.not_true, Bool.false_eq_true, not_false_eq_true,
        List.filter_cons_of_neg]
      omega
    | false =>
      simp only [again, Bool.not_false, List.filter_cons_of_pos, List.length_cons]
      omega
  | case4 turn x rest left inductionHypothesis =>
    rw [eraseLoop_left left]
    simp [left, inductionHypothesis]

/-- Nothing is collected that should not be. -/
theorem length_passed_le_filter (p q : α → Bool) (turn : Nat) (list : List α) :
    (((eraseLoop (fun _ => p) turn list).passed.map Prod.snd).filter q).length ≤
      (list.filter (fun x => !p x && q x)).length := by
  induction turn, list using eraseLoop.induct (fun _ => p) with
  | case1 turn => simp [eraseLoop]
  | case2 turn x erased => simp [eraseLoop, erased]
  | case3 turn x erased skipped rest inductionHypothesis =>
    simp only [eraseLoop, erased, if_true]
    refine inductionHypothesis.trans (List.Sublist.length_le (List.Sublist.filter _ ?_))
    exact ((List.sublist_cons_self skipped rest).trans (List.sublist_cons_self x _))
  | case4 turn x rest left inductionHypothesis =>
    rw [eraseLoop_left left]
    cases wanted : q x with
    | true => simp [left, wanted, inductionHypothesis]
    | false => simp [left, wanted, inductionHypothesis]

/-- The body looks at no element twice. -/
theorem length_passed_le (erases : Nat → α → Bool) (turn : Nat) (list : List α) :
    (eraseLoop erases turn list).passed.length ≤ list.length := by
  induction turn, list using eraseLoop.induct erases with
  | case1 turn => simp [eraseLoop]
  | case2 turn x erased => simp [eraseLoop, erased]
  | case3 turn x erased skipped rest inductionHypothesis =>
    simp only [eraseLoop, erased, if_true, List.length_cons]
    omega
  | case4 turn x rest left inductionHypothesis =>
    rw [eraseLoop_left left]
    simpa using inductionHypothesis

theorem eraseLoop_exact_iff (p q : α → Bool) (turn : Nat) (list : List α) :
    ((eraseLoop (fun _ => p) turn list).kept = list.filter (fun x => !p x) ∧
      ((eraseLoop (fun _ => p) turn list).passed.map Prod.snd).filter q =
        list.filter (fun x => !p x && q x)) ↔
      list.IsChain (fun x next => p x = true → p next = false ∧ q next = false) := by
  induction turn, list using eraseLoop.induct (fun _ => p) with
  | case1 turn => simp [eraseLoop]
  | case2 turn x erased => simp [eraseLoop, erased]
  | case3 turn x erased skipped rest inductionHypothesis =>
    have kept := length_filter_le_kept p (turn + 1) rest
    have passed := length_passed_le_filter p q (turn + 1) rest
    simp only [eraseLoop, erased, if_true, Bool.not_true, Bool.false_eq_true, not_false_eq_true,
      List.filter_cons_of_neg, List.isChain_cons_cons, true_implies, Bool.false_and]
    cases again : p skipped with
    | true =>
      simp only [again, Bool.not_true, Bool.false_eq_true, not_false_eq_true,
        List.filter_cons_of_neg, Bool.true_eq_false, false_and, iff_false]
      rintro ⟨sameKept, -⟩
      have lengths := congrArg List.length sameKept
      simp only [List.length_cons] at lengths
      omega
    | false =>
      cases wanted : q skipped with
      | true =>
        simp only [again, wanted, Bool.not_false, Bool.true_and, List.filter_cons_of_pos,
          Bool.true_eq_false, and_false, false_and, iff_false]
        rintro ⟨-, samePassed⟩
        have lengths := congrArg List.length samePassed
        simp only [List.length_cons] at lengths
        omega
      | false =>
        have unrelated : (skipped :: rest).IsChain
            (fun x next => p x = true → p next = false ∧ q next = false) ↔
            rest.IsChain (fun x next => p x = true → p next = false ∧ q next = false) := by
          rw [List.isChain_cons]
          simp [again]
        rw [unrelated, ← inductionHypothesis]
        simp [again, wanted]
  | case4 turn x rest left inductionHypothesis =>
    have unrelated : (x :: rest).IsChain
        (fun x next => p x = true → p next = false ∧ q next = false) ↔
        rest.IsChain (fun x next => p x = true → p next = false ∧ q next = false) := by
      rw [List.isChain_cons]
      simp [left]
    rw [unrelated, ← inductionHypothesis, eraseLoop_left left]
    cases wanted : q x with
    | true => simp [left, wanted]
    | false => simp [left, wanted]

end Fixed

end NermalProxy.EraseLoop
