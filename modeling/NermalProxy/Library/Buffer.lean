import Mathlib.Data.List.Range

/-! # Accesses to buffers of a fixed size

What a piece of code does with its buffers, as the list of the elements it reads or stores,
in its order.  The list is that of a run in which each buffer keeps its own content, so
the first access that is outside is one that the code makes. -/

namespace NermalProxy.Buffer

structure Access (Name : Type) where
  buffer : Name
  index : Nat
  deriving DecidableEq, Repr

variable {Name : Type}

/-- `count` elements one after the other, from an index on. -/
def fillFrom (buffer : Name) (start count : Nat) : List (Access Name) :=
  (List.range' start count).map (Access.mk buffer)

def fill (buffer : Name) (count : Nat) : List (Access Name) := fillFrom buffer 0 count

/-- A string at the front of a buffer, read or stored, with the NUL behind it. -/
def string (buffer : Name) (length : Nat) : List (Access Name) := fill buffer (length + 1)

/-- Every access is inside, in buffers of these sizes. -/
def Inside (size : Name → Nat) (accesses : List (Access Name)) : Prop :=
  ∀ access ∈ accesses, access.index < size access.buffer

instance (size : Name → Nat) (accesses : List (Access Name)) : Decidable (Inside size accesses) :=
  inferInstanceAs (Decidable (∀ access ∈ accesses, access.index < size access.buffer))

section Sizes

variable {size : Name → Nat} {buffer : Name}

@[simp] theorem inside_nil : Inside size [] := by simp [Inside]

@[simp] theorem inside_singleton {access : Access Name} :
    Inside size [access] ↔ access.index < size access.buffer := by simp [Inside]

@[simp] theorem inside_append {first second : List (Access Name)} :
    Inside size (first ++ second) ↔ Inside size first ∧ Inside size second := by
  simp only [Inside, List.mem_append, or_imp, forall_and]

theorem inside_flatMap {α : Type} {list : List α} {accesses : α → List (Access Name)} :
    Inside size (list.flatMap accesses) ↔ ∀ x ∈ list, Inside size (accesses x) := by
  induction list with
  | nil => simp
  | cons x list inductionHypothesis =>
    rw [List.flatMap_cons, inside_append, inductionHypothesis, List.forall_mem_cons]

theorem inside_fillFrom {start count : Nat} (bound : start + count ≤ size buffer) :
    Inside size (fillFrom buffer start count) := by
  intro access member
  obtain ⟨index, inRange, rfl⟩ := List.mem_map.mp member
  rw [List.mem_range'_1] at inRange
  change index < size buffer
  omega

@[simp] theorem inside_fill {count : Nat} : Inside size (fill buffer count) ↔ count ≤ size buffer := by
  constructor
  · intro inside
    cases count with
    | zero => exact Nat.zero_le _
    | succ last =>
      have member : Access.mk buffer last ∈ fill buffer (last + 1) :=
        List.mem_map_of_mem (List.mem_range'_1.mpr (by omega))
      exact inside _ member
  · intro bound
    exact inside_fillFrom (by omega)

/-- The NUL takes a place of its own. -/
@[simp] theorem inside_string {length : Nat} :
    Inside size (string buffer length) ↔ length < size buffer := inside_fill

theorem fillFrom_append (start first second : Nat) :
    fillFrom buffer start (first + second) =
      fillFrom buffer start first ++ fillFrom buffer (start + first) second := by
  rw [fillFrom, fillFrom, fillFrom, ← List.map_append, List.range'_append_1]

end Sizes

end NermalProxy.Buffer
