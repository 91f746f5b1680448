import Mathlib.Data.List.Basic
import Mathlib.Data.List.Nodup

/-! # Lists searched by key

A linked list whose entries are found by a key: the first entry with the key is the
one that a search returns, changes or removes.  Where the keys are distinct, that is
the entry with the key. -/

namespace NermalProxy.KeyedList

variable {α κ : Type*} [DecidableEq κ]

def lookup (key : α → κ) (k : κ) (list : List α) : Option α := list.find? (fun x => key x = k)

/-- Changes the first entry with the key. -/
def adjust (key : α → κ) (k : κ) (f : α → α) : List α → List α
  | [] => []
  | x :: list => if key x = k then f x :: list else x :: adjust key k f list

/-- Finds the entry or appends a fresh one, then changes it. -/
def upsert (key : α → κ) (k : κ) (fresh : α) (f : α → α) (list : List α) : List α :=
  match lookup key k list with
  | some _ => adjust key k f list
  | none => list ++ [f fresh]

/-- Removes the first entry with the key. -/
def remove (key : α → κ) (k : κ) (list : List α) : List α := list.eraseP (fun x => key x = k)

/-- The elements that a search for the first one with a property looks at. -/
def through (stops : α → Bool) (list : List α) : List α := list.take (list.findIdx stops + 1)

variable {key : α → κ} {k : κ} {f : α → α} {list : List α} {x : α}

@[simp] theorem through_nil (stops : α → Bool) : through stops [] = [] := rfl

theorem through_cons (stops : α → Bool) (x : α) (list : List α) :
    through stops (x :: list) = x :: if stops x then [] else through stops list := by
  cases stopped : stops x with
  | true => simp [through, List.findIdx_cons, stopped]
  | false => simp [through, List.findIdx_cons, stopped]

/-- Nothing behind an element that stops the search counts. -/
theorem through_append_of_stops {stops : α → Bool} (before after : List α) (stopped : stops x = true) :
    through stops (before ++ x :: after) = through stops (before ++ [x]) := by
  induction before with
  | nil => simp only [List.nil_append, through_cons, stopped, if_true]
  | cons y before inductionHypothesis => simp only [List.cons_append, through_cons, inductionHypothesis]

/-- A property of every element that stands behind such elements only. -/
theorem forall_split_cons {passed wanted : α → Prop} :
    (∀ before y after, x :: list = before ++ y :: after → (∀ z ∈ before, passed z) → wanted y) ↔
      wanted x ∧ (passed x →
        ∀ before y after, list = before ++ y :: after → (∀ z ∈ before, passed z) → wanted y) := by
  constructor
  · intro splits
    refine ⟨splits [] x list rfl (by simp), fun first before y after split others => ?_⟩
    apply splits (x :: before) y after (by rw [split, List.cons_append])
    exact List.forall_mem_cons.mpr ⟨first, others⟩
  · rintro ⟨first, splits⟩ before y after split others
    cases before with
    | nil =>
      cases split
      exact first
    | cons z before =>
      cases split
      obtain ⟨passed, rest⟩ := List.forall_mem_cons.mp others
      exact splits passed before y after rfl rest

theorem mem_of_mem_through {stops : α → Bool} (member : x ∈ through stops list) : x ∈ list :=
  List.mem_of_mem_take member

@[simp] theorem lookup_nil : lookup key k ([] : List α) = none := rfl

theorem lookup_cons (x : α) (list : List α) :
    lookup key k (x :: list) = if key x = k then some x else lookup key k list := by
  by_cases same : key x = k <;> simp [lookup, same]

theorem key_of_lookup (found : lookup key k list = some x) : key x = k := by
  simpa using List.find?_some found

theorem mem_of_lookup (found : lookup key k list = some x) : x ∈ list :=
  List.mem_of_find?_eq_some found

theorem lookup_eq_none : lookup key k list = none ↔ ∀ x ∈ list, key x ≠ k := by
  simp [lookup]

theorem exists_lookup (member : x ∈ list) : ∃ found, lookup key (key x) list = some found := by
  cases search : lookup key (key x) list with
  | some found => exact ⟨found, rfl⟩
  | none => exact absurd rfl (lookup_eq_none.mp search x member)

/-- With distinct keys a search finds every entry. -/
theorem lookup_of_mem (distinct : (list.map key).Nodup) (member : x ∈ list) :
    lookup key (key x) list = some x := by
  obtain ⟨found, search⟩ : ∃ found, lookup key (key x) list = some found := exists_lookup member
  have same : found = x :=
    List.inj_on_of_nodup_map distinct (mem_of_lookup search) member (key_of_lookup search)
  rw [search, same]

theorem lookup_append (list more : List α) :
    lookup key k (list ++ more) = (lookup key k list).or (lookup key k more) := by
  simp [lookup, List.find?_append]

@[simp] theorem map_adjust {β : Type*} {g : α → β} (unchanged : ∀ x, g (f x) = g x) :
    (adjust key k f list).map g = list.map g := by
  induction list with
  | nil => rfl
  | cons x list inductionHypothesis =>
    simp only [adjust]
    split <;> simp [unchanged, inductionHypothesis]

theorem length_adjust : (adjust key k f list).length = list.length := by
  induction list with
  | nil => rfl
  | cons x list inductionHypothesis =>
    simp only [adjust]
    split <;> simp [inductionHypothesis]

theorem adjust_self : adjust key k (fun x => x) list = list := by
  induction list with
  | nil => rfl
  | cons x list inductionHypothesis =>
    simp only [adjust, inductionHypothesis]
    split <;> rfl

/-- A change that leaves the entry it is applied to as it is. -/
theorem adjust_of_fixed (found : lookup key k list = some x) (fixed : f x = x) :
    adjust key k f list = list := by
  induction list with
  | nil => rfl
  | cons y list inductionHypothesis =>
    rw [lookup_cons] at found
    by_cases same : key y = k
    · rw [if_pos same] at found
      cases found
      simp only [adjust, if_pos same, fixed]
    · rw [if_neg same] at found
      simp only [adjust, if_neg same, inductionHypothesis found]

/-- Only the first entry of the key is changed. -/
theorem mem_adjust (member : x ∈ adjust key k f list) :
    x ∈ list ∨ ∃ found, lookup key k list = some found ∧ x = f found := by
  induction list with
  | nil => cases member
  | cons y list inductionHypothesis =>
    rw [lookup_cons]
    simp only [adjust] at member
    by_cases here : key y = k
    · rw [if_pos here] at member ⊢
      rcases List.mem_cons.mp member with same | rest
      · exact .inr ⟨y, rfl, same⟩
      · exact .inl (List.mem_cons_of_mem _ rest)
    · rw [if_neg here] at member ⊢
      rcases List.mem_cons.mp member with same | rest
      · exact .inl (same ▸ List.mem_cons_self ..)
      · exact (inductionHypothesis rest).imp_left (List.mem_cons_of_mem _)

theorem lookup_adjust_same (keeps : ∀ x, key (f x) = key x) :
    lookup key k (adjust key k f list) = (lookup key k list).map f := by
  induction list with
  | nil => rfl
  | cons x list inductionHypothesis =>
    by_cases same : key x = k
    · simp [adjust, lookup_cons, same, keeps]
    · simp [adjust, lookup_cons, same, inductionHypothesis]

theorem lookup_adjust_other {other : κ} (keeps : ∀ x, key (f x) = key x) (different : other ≠ k) :
    lookup key other (adjust key k f list) = lookup key other list := by
  induction list with
  | nil => rfl
  | cons x list inductionHypothesis =>
    by_cases same : key x = k
    · have notOther : ¬ k = other := fun equal => different equal.symm
      simp [adjust, lookup_cons, same, keeps, notOther]
    · simp [adjust, lookup_cons, same, inductionHypothesis]

theorem map_remove (list : List α) : (remove key k list).map key = (list.map key).erase k := by
  induction list with
  | nil => rfl
  | cons x list inductionHypothesis =>
    by_cases same : key x = k
    · simp [remove, same]
    · simp only [remove, List.map_cons] at inductionHypothesis ⊢
      rw [List.eraseP_cons_of_neg (by simpa using same), List.map_cons, inductionHypothesis,
        List.erase_cons_tail (by simpa using same)]

theorem remove_sublist (list : List α) : (remove key k list).Sublist list := List.eraseP_sublist

theorem mem_of_mem_remove (member : x ∈ remove key k list) : x ∈ list :=
  (remove_sublist list).subset member

/-- With distinct keys exactly the entry with the key goes. -/
theorem mem_remove (distinct : (list.map key).Nodup) : x ∈ remove key k list ↔ x ∈ list ∧ key x ≠ k := by
  constructor
  · intro member
    refine ⟨mem_of_mem_remove member, ?_⟩
    rintro rfl
    have inKeys : key x ∈ (list.map key).erase (key x) := by
      rw [← map_remove]
      exact List.mem_map_of_mem member
    exact distinct.not_mem_erase inKeys
  · rintro ⟨member, different⟩
    exact (List.mem_eraseP_of_neg (by simpa using different)).mpr member

/-- With distinct keys a removal leaves the entries with other keys. -/
theorem eraseP_eq_filter {p : α → Bool} (found : list.find? p = some x) (distinct : (list.map key).Nodup) :
    list.eraseP p = list.filter (fun y => key y ≠ key x) := by
  induction list with
  | nil => cases found
  | cons y list inductionHypothesis =>
    rw [List.map_cons, List.nodup_cons] at distinct
    by_cases here : p y = true
    · rw [List.find?_cons_of_pos here] at found
      cases found
      have others : ∀ z ∈ list, decide (key z ≠ key x) = true := by
        intro z member
        refine decide_eq_true (fun same => distinct.1 ?_)
        rw [← same]
        exact List.mem_map_of_mem member
      rw [List.eraseP_cons_of_pos here, List.filter_cons_of_neg (by simp), List.filter_eq_self.mpr others]
    · rw [List.find?_cons_of_neg here] at found
      have different : key y ≠ key x := by
        intro same
        apply distinct.1
        rw [same]
        exact List.mem_map_of_mem (List.mem_of_find?_eq_some found)
      rw [List.eraseP_cons_of_neg here, List.filter_cons_of_pos (by simpa using different),
        inductionHypothesis found distinct.2]

/-- What a search finds is what a removal takes out. -/
theorem perm_cons_eraseP {p : α → Bool} (found : list.find? p = some x) :
    list.Perm (x :: list.eraseP p) := by
  induction list with
  | nil => cases found
  | cons y list inductionHypothesis =>
    by_cases here : p y = true
    · rw [List.find?_cons_of_pos here] at found
      cases found
      rw [List.eraseP_cons_of_pos here]
    · rw [List.find?_cons_of_neg here] at found
      rw [List.eraseP_cons_of_neg here]
      exact ((inductionHypothesis found).cons y).trans (List.Perm.swap x y _)

theorem perm_cons_remove (found : lookup key k list = some x) :
    list.Perm (x :: remove key k list) := perm_cons_eraseP found

/-- What a search finds is what a change replaces. -/
theorem perm_cons_adjust (found : lookup key k list = some x) :
    (adjust key k f list).Perm (f x :: remove key k list) := by
  induction list with
  | nil => cases found
  | cons y list inductionHypothesis =>
    rw [lookup_cons] at found
    by_cases same : key y = k
    · rw [if_pos same] at found
      cases found
      simp [adjust, remove, same]
    · rw [if_neg same] at found
      simp only [adjust, remove, if_neg same] at inductionHypothesis ⊢
      rw [List.eraseP_cons_of_neg (by simpa using same)]
      exact ((inductionHypothesis found).cons y).trans (List.Perm.swap (f x) y _)

theorem lookup_remove_other {other : κ} (different : other ≠ k) :
    lookup key other (remove key k list) = lookup key other list := by
  induction list with
  | nil => rfl
  | cons x list inductionHypothesis =>
    by_cases same : key x = k
    · have notOther : ¬ k = other := fun equal => different equal.symm
      simp [remove, lookup_cons, same, notOther]
    · simp only [remove] at inductionHypothesis ⊢
      rw [List.eraseP_cons_of_neg (by simpa using same), lookup_cons, lookup_cons, inductionHypothesis]

theorem lookup_upsert_same {fresh : α} (keeps : ∀ x, key (f x) = key x) (named : key fresh = k) :
    lookup key k (upsert key k fresh f list) = some (f ((lookup key k list).getD fresh)) := by
  unfold upsert
  cases search : lookup key k list with
  | some found => simp [lookup_adjust_same keeps, search]
  | none => simp [lookup_append, search, lookup_cons, keeps, named]

theorem lookup_upsert_other {fresh : α} {other : κ} (keeps : ∀ x, key (f x) = key x)
    (named : key fresh = k) (different : other ≠ k) :
    lookup key other (upsert key k fresh f list) = lookup key other list := by
  unfold upsert
  cases lookup key k list with
  | some found => exact lookup_adjust_other keeps different
  | none =>
    have notOther : ¬ k = other := fun equal => different equal.symm
    simp [lookup_append, lookup_cons, keeps, named, notOther]

/-- The entry of a key that is found or created has this key. -/
theorem key_getD {fresh : α} (named : key fresh = k) : key ((lookup key k list).getD fresh) = k := by
  cases search : lookup key k list with
  | none => exact named
  | some found => exact key_of_lookup search

/-- A find-or-create changes no entry but the one of its key. -/
theorem mem_upsert {fresh : α} (member : x ∈ upsert key k fresh f list) :
    x ∈ list ∨ x = f ((lookup key k list).getD fresh) := by
  unfold upsert at member
  cases search : lookup key k list with
  | some found =>
    rw [search] at member
    rcases List.mem_cons.mp ((perm_cons_adjust search).subset member) with same | older
    · exact .inr same
    · exact .inl (mem_of_mem_remove older)
  | none =>
    rw [search] at member
    rcases List.mem_append.mp member with older | last
    · exact .inl older
    · exact .inr (List.mem_singleton.mp last)

theorem map_upsert_of_fresh {fresh : α} (keeps : ∀ x, key (f x) = key x) (named : key fresh = k) :
    (upsert key k fresh f list).map key =
      if k ∈ list.map key then list.map key else list.map key ++ [k] := by
  unfold upsert
  cases search : lookup key k list with
  | some found =>
    have present : k ∈ list.map key := by
      rw [← key_of_lookup search]
      exact List.mem_map_of_mem (mem_of_lookup search)
    simp [present, keeps]
  | none =>
    have absent : ¬ k ∈ list.map key := by
      intro member
      obtain ⟨x, inList, same⟩ := List.mem_map.mp member
      exact lookup_eq_none.mp search x inList same
    rw [if_neg absent]
    simp [keeps, named]

/-- The find-or-create of a keyed list keeps its keys distinct. -/
theorem nodup_upsert {fresh : α} (keeps : ∀ x, key (f x) = key x) (named : key fresh = k)
    (distinct : (list.map key).Nodup) : ((upsert key k fresh f list).map key).Nodup := by
  rw [map_upsert_of_fresh keeps named]
  split
  · exact distinct
  · rename_i absent
    exact List.Nodup.append distinct (List.nodup_singleton k) (by simpa using absent)

end NermalProxy.KeyedList
