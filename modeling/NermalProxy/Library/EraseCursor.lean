import Mathlib.Algebra.Group.Nat.Even
import Mathlib.Data.List.DropRight
import NermalProxy.Library.EraseLoop
import NermalProxy.Library.LinkedList

/-! # The iterator of an erasing walk

`EraseLoop.eraseLoop` is what the loop `for (it = begin; it != end; it++) if (p(*it)) erase(it++);`
does to a list.  `eraseScan` is the loop on the nodes of a linked list, with every use of its
iterator.  An iterator at the end is advanced exactly if the last element is erased, and the two
agree where that does not happen. -/

namespace NermalProxy.LinkedList

open NermalProxy.EraseLoop NermalProxy.KeyedList

variable {α : Type*}

/-- An iterator is dereferenced or advanced, with the nodes that are in the list then; `none` is the end. -/
structure Touch where
  iterator : Option Nat
  present : List Nat

def Touch.InRange (touch : Touch) : Prop := ∃ address ∈ touch.iterator, address ∈ touch.present

/-- The node at an address, and where the iterator is advanced to from it. -/
def locate (address : Nat) (nodes : List (Node α)) : Option (Node α × Option Nat) :=
  (nodes.find? (fun node => node.address = address)).bind
    (fun node => (successor address nodes).map (fun next => (node, next)))

def eraseNode (list : LinkedList α) (address : Nat) : LinkedList α where
  nodes := list.nodes.filter (fun node => node.address ≠ address)
  allocated := list.allocated
  distinct := list.distinct.sublist ((List.filter_sublist).map _)
  older := fun node member => list.older node (List.mem_of_mem_filter member)

/-- What a loop has done; `left` is the list behind it, `none` where a use is out of range, behind which
anything may happen. -/
structure EraseScan (α : Type*) where
  touches : List Touch
  /-- The elements that the body has looked at and left, each with its turn. -/
  passed : List (Nat × α)
  left : Option (LinkedList α)

namespace EraseScan

def behind (touches : List Touch) (scan : EraseScan α) : EraseScan α :=
  { scan with touches := touches ++ scan.touches }

def pass (visit : Nat × α) (scan : EraseScan α) : EraseScan α := { scan with passed := visit :: scan.passed }

end EraseScan

def eraseScan (erases : Nat → α → Bool) :
    (fuel turn : Nat) → Option Nat → LinkedList α → Option (EraseScan α)
  | 0, _, _, _ => none
  | _ + 1, _, none, list => some ⟨[], [], some list⟩
  | fuel + 1, turn, some iterator, list =>
    let use := ⟨some iterator, list.addresses⟩
    match locate iterator list.nodes with
    | none => some ⟨[use], [], none⟩
    | some (node, next) =>
      if erases turn node.value then
        -- `it++` in the argument of `erase`, and the header's `it++` behind the body
        let list := list.eraseNode iterator
        let header := ⟨next, list.addresses⟩
        match next.bind (fun address => locate address list.nodes) with
        | none => some ⟨[use, use, header], [], none⟩
        | some (_, next) =>
          (eraseScan erases fuel (turn + 1) next list).map (EraseScan.behind [use, use, header])
      else
        (eraseScan erases fuel (turn + 1) next list).map
          (fun scan => (scan.behind [use, use]).pass (turn, node.value))

/-- From `begin` on, with fuel for all elements. -/
def eraseScanAll (erases : Nat → α → Bool) (list : LinkedList α) : Option (EraseScan α) :=
  eraseScan erases (list.nodes.length + 1) 0 (list.nodes.head?.map Node.address) list

/-- The loop ends, and its iterator was in range whenever it was used. -/
def StaysInRange (scan : Option (EraseScan α)) : Prop :=
  ∃ result, scan = some result ∧ ∀ touch ∈ result.touches, touch.InRange

/-- How the loop ends over these nodes, behind the ones in front of them. -/
inductive Erases (walk : Walk α) (before : List (Node α)) : EraseScan α → Prop
  | finished {touches : List Touch} {after : LinkedList α} (inside : walk.pastEnd = false)
      (inRange : ∀ touch ∈ touches, touch.InRange)
      (kept : after.values = before.map Node.value ++ walk.kept) :
      Erases walk before ⟨touches, walk.passed, some after⟩
  | strayed {touches : List Touch} (pastEnd : walk.pastEnd = true)
      (outside : ¬ ∀ touch ∈ touches, touch.InRange) : Erases walk before ⟨touches, walk.passed, none⟩

section

variable {erases : Nat → α → Bool} {list : LinkedList α} {before rest : List (Node α)} {node : Node α}

theorem locate_split (distinct : ((before ++ node :: rest).map Node.address).Nodup) :
    locate node.address (before ++ node :: rest) = some (node, rest.head?.map Node.address) := by
  have found : (before ++ node :: rest).find? (fun other => other.address = node.address) = some node :=
    lookup_of_mem distinct (by simp)
  rw [locate, found, successor_split distinct]
  rfl

theorem eraseNode_split (split : list.nodes = before ++ node :: rest) :
    (list.eraseNode node.address).nodes = before ++ rest := by
  have distinct := list.distinct
  rw [split, List.map_append, List.map_cons, List.nodup_append'] at distinct
  obtain ⟨-, restDistinct, apart⟩ := distinct
  rw [List.nodup_cons] at restDistinct
  have front : before.filter (fun other => other.address ≠ node.address) = before := by
    rw [List.filter_eq_self]
    intro other member
    exact decide_eq_true
      (fun same => apart (List.mem_map_of_mem member) (by simp [same]))
  have behind : rest.filter (fun other => other.address ≠ node.address) = rest := by
    rw [List.filter_eq_self]
    intro other member
    refine decide_eq_true (fun same => restDistinct.1 ?_)
    rw [← same]
    exact List.mem_map_of_mem member
  change list.nodes.filter (fun other => other.address ≠ node.address) = before ++ rest
  rw [split, List.filter_append, List.filter_cons_of_neg (by simp), front, behind]

theorem Erases.behind {walk : Walk α} {scan : EraseScan α} (ends : Erases walk before scan)
    {touches : List Touch} (inRange : ∀ touch ∈ touches, touch.InRange) :
    Erases walk before (scan.behind touches) := by
  cases ends with
  | finished inside others kept =>
    exact .finished inside (List.forall_mem_append.mpr ⟨inRange, others⟩) kept
  | strayed pastEnd outside =>
    exact .strayed pastEnd (fun all => outside (List.forall_mem_append.mp all).2)

/-- The node in front stays. -/
theorem Erases.kept {walk : Walk α} {scan : EraseScan α} (ends : Erases walk (before ++ [node]) scan) :
    Erases { walk with kept := node.value :: walk.kept } before scan := by
  cases ends with
  | finished inside inRange kept => exact .finished inside inRange (by rw [kept]; simp)
  | strayed pastEnd outside => exact .strayed pastEnd outside

theorem Erases.pass {walk : Walk α} {scan : EraseScan α} (ends : Erases walk before scan)
    (visit : Nat × α) :
    Erases { walk with passed := visit :: walk.passed } before (scan.pass visit) := by
  cases ends with
  | finished inside inRange kept => exact .finished inside inRange kept
  | strayed pastEnd outside => exact .strayed pastEnd outside

/-- The loop does what `eraseLoop` says, up to a use of its iterator at the end. -/
theorem erases_eraseScan (split : list.nodes = before ++ rest) {fuel : Nat} (enough : rest.length < fuel)
    (turn : Nat) :
    ∃ scan, eraseScan erases fuel turn (rest.head?.map Node.address) list = some scan ∧
      Erases (eraseLoop erases turn (rest.map Node.value)) before scan := by
  -- `before` are the nodes that are left behind the iterator, in the list as it is then
  induction fuel generalizing list before rest turn with
  | zero => omega
  | succ fuel inductionHypothesis =>
    cases rest with
    | nil => exact ⟨_, rfl, .finished rfl (by simp) (by simp [values, split, eraseLoop])⟩
    | cons node rest =>
      have distinct := list.distinct
      rw [split] at distinct
      have found : locate node.address list.nodes = some (node, rest.head?.map Node.address) := by
        rw [split]
        exact locate_split distinct
      have member : node.address ∈ list.addresses := by simp [addresses, split]
      have use : Touch.InRange ⟨some node.address, list.addresses⟩ := ⟨_, rfl, member⟩
      rw [List.length_cons] at enough
      simp only [eraseScan, List.head?_cons, Option.map_some, found]
      by_cases erased : erases turn node.value = true
      · rw [if_pos erased]
        have left := eraseNode_split split
        cases rest with
        | nil =>
          refine ⟨_, rfl, ?_⟩
          simp only [List.map_cons, List.map_nil, eraseLoop, erased, if_true]
          refine .strayed rfl (fun all => ?_)
          obtain ⟨address, isEnd, -⟩ := all ⟨none, (list.eraseNode node.address).addresses⟩ (by simp)
          cases isEnd
        | cons skipped rest =>
          have stillDistinct := (list.eraseNode node.address).distinct
          rw [left] at stillDistinct
          have foundNext : locate skipped.address (list.eraseNode node.address).nodes =
              some (skipped, rest.head?.map Node.address) := by
            rw [left]
            exact locate_split stillDistinct
          have longer : (list.eraseNode node.address).nodes = (before ++ [skipped]) ++ rest := by simp [left]
          obtain ⟨scan, scanned, ends⟩ :=
            inductionHypothesis longer (by simp only [List.length_cons] at enough; omega) (turn + 1)
          have header : Touch.InRange ⟨some skipped.address, (list.eraseNode node.address).addresses⟩ :=
            ⟨_, rfl, by simp [addresses, left]⟩
          simp only [List.head?_cons, Option.map_some, Option.bind_some, foundNext, scanned]
          refine ⟨_, rfl, Erases.behind ?_ (by simp [use, header])⟩
          simp only [List.map_cons, eraseLoop, erased, if_true]
          exact ends.kept
      · rw [if_neg erased]
        have longer : list.nodes = (before ++ [node]) ++ rest := by simp [split]
        obtain ⟨scan, scanned, ends⟩ := inductionHypothesis longer (by omega) (turn + 1)
        rw [scanned]
        refine ⟨_, rfl, ?_⟩
        rw [List.map_cons, eraseLoop_left erased]
        exact (ends.kept.behind (by simp [use])).pass (turn, node.value)

theorem erases_eraseScanAll (erases : Nat → α → Bool) (list : LinkedList α) :
    ∃ scan, eraseScanAll erases list = some scan ∧
      Erases (eraseLoop erases 0 list.values) [] scan :=
  erases_eraseScan rfl (Nat.lt_succ_self _) 0

theorem staysInRange_iff (erases : Nat → α → Bool) (list : LinkedList α) :
    StaysInRange (eraseScanAll erases list) ↔ (eraseLoop erases 0 list.values).pastEnd = false := by
  obtain ⟨scan, scanned, ends⟩ := erases_eraseScanAll erases list
  rw [scanned]
  cases ends with
  | finished inside inRange kept => exact iff_of_true ⟨_, rfl, inRange⟩ inside
  | strayed pastEnd outside =>
    refine iff_of_false ?_ (by simp [pastEnd])
    rintro ⟨result, same, inRange⟩
    cases same
    exact outside inRange

/-- A loop that stays in range passes and leaves what `eraseLoop` says. -/
theorem StaysInRange.refines {erases : Nat → α → Bool} {list : LinkedList α}
    (inRange : StaysInRange (eraseScanAll erases list)) :
    ∃ scan after, eraseScanAll erases list = some scan ∧ scan.left = some after ∧
      scan.passed = (eraseLoop erases 0 list.values).passed ∧
      after.values = (eraseLoop erases 0 list.values).kept := by
  obtain ⟨scan, scanned, ends⟩ := erases_eraseScanAll erases list
  cases ends with
  | finished inside others kept => exact ⟨_, _, scanned, rfl, rfl, by rw [kept]; rfl⟩
  | strayed pastEnd outside =>
    have inside := (staysInRange_iff erases list).mp inRange
    rw [pastEnd] at inside
    cases inside

end

/-! ## Where the walk ends -/

/-- Taking the elements one by one, and with one that is erased the one behind it: none that is erased is
the last. -/
def NoneLast (erases : Nat → α → Bool) : (turn : Nat) → List α → Prop
  | _, [] => True
  | turn, [x] => erases turn x = false
  | turn, x :: next :: rest =>
    if erases turn x then NoneLast erases (turn + 1) rest else NoneLast erases (turn + 1) (next :: rest)

theorem pastEnd_eq_false_iff (erases : Nat → α → Bool) (turn : Nat) (list : List α) :
    (eraseLoop erases turn list).pastEnd = false ↔ NoneLast erases turn list := by
  induction turn, list using eraseLoop.induct erases with
  | case1 turn => simp [eraseLoop, NoneLast]
  | case2 turn x erased => simp [eraseLoop, NoneLast, erased]
  | case3 turn x erased skipped rest inductionHypothesis =>
    simp only [eraseLoop, NoneLast, erased, if_true, inductionHypothesis]
  | case4 turn x rest left inductionHypothesis =>
    rw [eraseLoop_left left]
    cases rest with
    | nil => simp [eraseLoop, NoneLast, left]
    | cons next rest => simp only [NoneLast, if_neg left, inductionHypothesis]

/-- What is erased at the end of a list, seen from its first element. -/
theorem rtakeWhile_cons (p : α → Bool) (x : α) (list : List α) :
    (x :: list).rtakeWhile p =
      if list.all p then (if p x then x :: list else list) else list.rtakeWhile p := by
  rw [List.rtakeWhile, List.reverse_cons, List.takeWhile_append]
  by_cases all : list.all p = true
  · have whole : list.reverse.takeWhile p = list.reverse := by
      rw [List.takeWhile_eq_self_iff]
      intro y member
      exact List.all_eq_true.mp all y (List.mem_reverse.mp member)
    rw [whole, if_pos rfl, if_pos all]
    cases first : p x <;> simp [first]
  · have short : (list.reverse.takeWhile p).length ≠ list.reverse.length := by
      intro same
      have whole := (List.takeWhile_prefix p).eq_of_length same
      rw [List.takeWhile_eq_self_iff] at whole
      exact all (List.all_eq_true.mpr (fun y member => whole y (List.mem_reverse.mpr member)))
    rw [if_neg short, if_neg all]
    rfl

theorem rtakeWhile_of_all {p : α → Bool} {list : List α} (all : list.all p = true) :
    list.rtakeWhile p = list := by
  cases list with
  | nil => rfl
  | cons x list =>
    rw [List.all_cons, Bool.and_eq_true] at all
    rw [rtakeWhile_cons, if_pos all.2, if_pos all.1]

/-- Erasing every element with a property strays exactly where an odd number of them ends the list. -/
theorem noneLast_iff_even (p : α → Bool) (turn : Nat) (list : List α) :
    NoneLast (fun _ => p) turn list ↔ Even (list.rtakeWhile p).length := by
  rw [← pastEnd_eq_false_iff]
  induction turn, list using eraseLoop.induct (fun _ => p) with
  | case1 turn => simp [eraseLoop]
  | case2 turn x erased => simp [eraseLoop, erased, rtakeWhile_cons]
  | case3 turn x erased skipped rest inductionHypothesis =>
    simp only [eraseLoop, erased, if_true, inductionHypothesis]
    rw [rtakeWhile_cons, rtakeWhile_cons]
    by_cases all : rest.all p = true
    · cases again : p skipped with
      | true => simp [all, again, erased, rtakeWhile_of_all all, Nat.even_add_one]
      | false => simp [all, again, rtakeWhile_of_all all]
    · have notAll : ¬ (skipped :: rest).all p = true := fun both =>
        all (Bool.and_eq_true_iff.mp both).2
      rw [if_neg notAll, if_neg all]
  | case4 turn x rest left inductionHypothesis =>
    rw [eraseLoop_left left, rtakeWhile_cons]
    by_cases all : rest.all p = true
    · rw [if_pos all, if_neg left, inductionHypothesis, rtakeWhile_of_all all]
    · rw [if_neg all, inductionHypothesis]

end NermalProxy.LinkedList
