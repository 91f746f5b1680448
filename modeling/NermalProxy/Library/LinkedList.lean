import Mathlib.Data.List.Nodup
import NermalProxy.Library.KeyedList

/-! # Linked lists under a cursor

The nodes of a linked list have addresses, and a cursor is the address it points to.  `scan`
is a range loop whose body acts on the first node it is looking for and then stops at the
head of the next turn: the action may remove nodes or append some, and the header advances
the cursor from the node it is at, whatever has become of that node. -/

namespace NermalProxy

open NermalProxy.KeyedList

structure LinkedList.Node (α : Type*) where
  address : Nat
  value : α

/-- The nodes are all different, and older than what is allocated next. -/
structure LinkedList (α : Type*) where
  nodes : List (LinkedList.Node α)
  allocated : Nat
  distinct : (nodes.map LinkedList.Node.address).Nodup
  older : ∀ node ∈ nodes, node.address < allocated

namespace LinkedList

variable {α : Type*}

def addresses (list : LinkedList α) : List Nat := list.nodes.map Node.address

def values (list : LinkedList α) : List α := list.nodes.map Node.value

def emplaceBack (list : LinkedList α) (value : α) : LinkedList α where
  nodes := list.nodes ++ [⟨list.allocated, value⟩]
  allocated := list.allocated + 1
  distinct := by
    rw [List.map_append, List.nodup_append']
    refine ⟨list.distinct, List.nodup_singleton _, fun address old new => ?_⟩
    obtain ⟨node, member, rfl⟩ := List.mem_map.mp old
    exact absurd (List.mem_singleton.mp new) (Nat.ne_of_lt (list.older node member))
  older := by
    intro node member
    rcases List.mem_append.mp member with old | new
    · exact Nat.lt_succ_of_lt (list.older node old)
    · rw [List.mem_singleton.mp new]
      exact Nat.lt_succ_self _

def eraseFirst (list : LinkedList α) (p : α → Bool) : LinkedList α where
  nodes := list.nodes.eraseP (fun node => p node.value)
  allocated := list.allocated
  distinct := list.distinct.sublist ((List.eraseP_sublist).map _)
  older := fun node member => list.older node (List.mem_of_mem_eraseP member)

/-- Changes the value of a node in its place. -/
def assign (list : LinkedList α) (address : Nat) (value : α) : LinkedList α where
  nodes := adjust Node.address address (fun node => { node with value }) list.nodes
  allocated := list.allocated
  distinct := by
    have unchanged : ∀ node : Node α, Node.address { node with value } = node.address := fun _ => rfl
    rw [map_adjust unchanged]
    exact list.distinct
  older := by
    intro node member
    have unchanged : ∀ node : Node α, Node.address { node with value } = node.address := fun _ => rfl
    have same := List.mem_map_of_mem (f := Node.address) member
    rw [map_adjust unchanged] at same
    obtain ⟨before, inList, address⟩ := List.mem_map.mp same
    rw [← address]
    exact list.older before inList

@[simp] theorem addresses_assign (list : LinkedList α) (address : Nat) (value : α) :
    (list.assign address value).addresses = list.addresses := map_adjust (fun _ => rfl)

@[simp] theorem addresses_emplaceBack (list : LinkedList α) (value : α) :
    (list.emplaceBack value).addresses = list.addresses ++ [list.allocated] := by
  simp [addresses, emplaceBack]

theorem mem_emplaceBack {list : LinkedList α} {address : Nat} (value : α)
    (member : address ∈ list.addresses) : address ∈ (list.emplaceBack value).addresses := by
  rw [addresses_emplaceBack]
  exact List.mem_append_left _ member

@[simp] theorem values_emplaceBack (list : LinkedList α) (value : α) :
    (list.emplaceBack value).values = list.values ++ [value] := by
  simp [values, emplaceBack]

theorem values_eraseFirst (list : LinkedList α) (p : α → Bool) :
    (list.eraseFirst p).values = list.values.eraseP p :=
  (List.eraseP_map ..).symm

/-- The node that an erasure finds is not there any more. -/
theorem notMem_eraseFirst {list : LinkedList α} {node : Node α} (p : α → Bool)
    (found : list.nodes.find? (fun node => p node.value) = some node) :
    node.address ∉ (list.eraseFirst p).addresses := by
  intro member
  obtain ⟨other, inList, same⟩ := List.mem_map.mp member
  have left : (list.eraseFirst p).nodes = list.nodes.filter (fun other => other.address ≠ node.address) :=
    eraseP_eq_filter found list.distinct
  rw [left] at inList
  exact of_decide_eq_true (List.mem_filter.mp inList).2 same

theorem mem_of_mem_eraseFirst {list : LinkedList α} {p : α → Bool} {address : Nat}
    (member : address ∈ (list.eraseFirst p).addresses) : address ∈ list.addresses :=
  ((List.eraseP_sublist).map Node.address).subset member

/-! ## A scan -/

/-- What the body does with the node it is looking for: it never gets to its end, returns from the
function, or ends with this list. -/
inductive Reaction (α : Type*) where
  | stuck
  | left
  | done (list : LinkedList α)

/-- A cursor is dereferenced or advanced, with the nodes that are in the list then. -/
structure Use where
  address : Nat
  present : List Nat

/-- How a scan ends; `stray` is the advance from a node that is gone, behind which anything may happen. -/
inductive Ending (α : Type*) where
  | finished (list : LinkedList α)
  | left
  | stuck
  | stray

structure Scan (α : Type*) where
  uses : List Use
  /-- The nodes that the body has acted on. -/
  acted : List Nat
  ending : Ending α

/-- The node behind another one, where `some none` is the end of the list. -/
def successor (address : Nat) : List (Node α) → Option (Option Nat)
  | [] => none
  | node :: rest =>
    if node.address = address then some (rest.head?.map Node.address) else successor address rest

/-- With a use of the cursor in front. -/
def Scan.behind (use : Use) (scan : Scan α) : Scan α := { scan with uses := use :: scan.uses }

def scan (wanted : α → Bool) (act : Node α → LinkedList α → Reaction α) :
    (turns : Nat) → Option Nat → Bool → LinkedList α → Option (Scan α)
  | 0, _, _, _ => none
  | _ + 1, none, _, list => some ⟨[], [], .finished list⟩
  | turns + 1, some cursor, done, list =>
    let use := ⟨cursor, list.addresses⟩
    match list.nodes.find? (fun node => node.address = cursor) with
    | none => some ⟨[use], [], .stray⟩
    | some node =>
      if done then some ⟨[use], [], .finished list⟩
      else if wanted node.value then
        match act node list with
        | .stuck => some ⟨[use], [cursor], .stuck⟩
        | .left => some ⟨[use], [cursor], .left⟩
        | .done list =>
          let advance := ⟨cursor, list.addresses⟩
          match successor cursor list.nodes with
          | none => some ⟨[use, advance], [cursor], .stray⟩
          | some next =>
            (scan wanted act turns next true list).map
              (fun scan => { (scan.behind advance).behind use with acted := cursor :: scan.acted })
      else
        match successor cursor list.nodes with
        | none => some ⟨[use, use], [], .stray⟩
        | some next =>
          (scan wanted act turns next false list).map (fun scan => (scan.behind use).behind use)

/-- From the first node on, with turns enough for all of them. -/
def scanAll (wanted : α → Bool) (act : Node α → LinkedList α → Reaction α) (list : LinkedList α) :
    Option (Scan α) :=
  scan wanted act (list.nodes.length + 2) (list.nodes.head?.map Node.address) false list

/-- No use of the cursor is one of a node that is gone. -/
def Live (uses : List Use) : Prop := ∀ use ∈ uses, use.address ∈ use.present

theorem live_cons {use : Use} {uses : List Use} :
    Live (use :: uses) ↔ use.address ∈ use.present ∧ Live uses := List.forall_mem_cons

section

variable {wanted : α → Bool} {act : Node α → LinkedList α → Reaction α} {list : LinkedList α}
  {before rest : List (Node α)} {node : Node α}

theorem successor_split (distinct : ((before ++ node :: rest).map Node.address).Nodup) :
    successor node.address (before ++ node :: rest) = some (rest.head?.map Node.address) := by
  induction before with
  | nil => simp [successor]
  | cons first before inductionHypothesis =>
    rw [List.cons_append, List.map_cons, List.nodup_cons] at distinct
    have other : first.address ≠ node.address := by
      intro same
      apply distinct.1
      simp [same]
    rw [List.cons_append, successor, if_neg other, inductionHypothesis distinct.2]

theorem successor_eq_none {nodes : List (Node α)} {address : Nat} :
    successor address nodes = none ↔ address ∉ nodes.map Node.address := by
  induction nodes with
  | nil => simp [successor]
  | cons first nodes inductionHypothesis =>
    by_cases here : first.address = address
    · simp [successor, here]
    · rw [successor, if_neg here, inductionHypothesis, List.map_cons, List.mem_cons, not_or]
      exact ⟨fun absent => ⟨Ne.symm here, absent⟩, And.right⟩

theorem successor_mem {nodes : List (Node α)} {address next : Nat}
    (follows : successor address nodes = some (some next)) : next ∈ nodes.map Node.address := by
  induction nodes with
  | nil => cases follows
  | cons first nodes inductionHypothesis =>
    rw [List.map_cons]
    apply List.mem_cons_of_mem
    by_cases here : first.address = address
    · rw [successor, if_pos here] at follows
      cases nodes with
      | nil => cases follows
      | cons second nodes =>
        cases follows
        exact List.mem_cons_self
    · rw [successor, if_neg here] at follows
      exact inductionHypothesis follows

/-- The scan of these nodes by what it finds and what the body does then. -/
inductive Ends (wanted : α → Bool) (act : Node α → LinkedList α → Reaction α) (list : LinkedList α)
    (nodes : List (Node α)) : Scan α → Prop
  | missed {uses : List Use} (absent : nodes.find? (fun node => wanted node.value) = none)
      (live : Live uses) : Ends wanted act list nodes ⟨uses, [], .finished list⟩
  | stuck {uses : List Use} {node : Node α} (found : nodes.find? (fun node => wanted node.value) = some node)
      (reaction : act node list = .stuck) (live : Live uses) :
      Ends wanted act list nodes ⟨uses, [node.address], .stuck⟩
  | left {uses : List Use} {node : Node α} (found : nodes.find? (fun node => wanted node.value) = some node)
      (reaction : act node list = .left) (live : Live uses) :
      Ends wanted act list nodes ⟨uses, [node.address], .left⟩
  | finished {uses : List Use} {node : Node α} {after : LinkedList α}
      (found : nodes.find? (fun node => wanted node.value) = some node)
      (reaction : act node list = .done after) (stays : node.address ∈ after.addresses)
      (live : Live uses) : Ends wanted act list nodes ⟨uses, [node.address], .finished after⟩
  | stray {uses : List Use} {node : Node α} {after : LinkedList α}
      (found : nodes.find? (fun node => wanted node.value) = some node)
      (reaction : act node list = .done after) (gone : node.address ∉ after.addresses)
      (dead : ¬ Live uses) : Ends wanted act list nodes ⟨uses, [node.address], .stray⟩

/-- A node that is not the one wanted is dereferenced and left behind. -/
theorem Ends.behind {scan : Scan α} (ends : Ends wanted act list rest scan)
    (other : ¬ wanted node.value = true) (member : node.address ∈ list.addresses) :
    Ends wanted act list (node :: rest)
      ((scan.behind ⟨node.address, list.addresses⟩).behind ⟨node.address, list.addresses⟩) := by
  have later : ∀ {result : Option (Node α)}, rest.find? (fun node => wanted node.value) = result →
      (node :: rest).find? (fun node => wanted node.value) = result := fun found => by
    rw [List.find?_cons_of_neg (p := fun node : Node α => wanted node.value) other]
    exact found
  have longer : ∀ {uses : List Use}, Live uses →
      Live (⟨node.address, list.addresses⟩ :: ⟨node.address, list.addresses⟩ :: uses) :=
    fun live => live_cons.mpr ⟨member, live_cons.mpr ⟨member, live⟩⟩
  cases ends with
  | missed absent live => exact .missed (later absent) (longer live)
  | stuck found reaction live => exact .stuck (later found) reaction (longer live)
  | left found reaction live => exact .left (later found) reaction (longer live)
  | finished found reaction stays live => exact .finished (later found) reaction stays (longer live)
  | stray found reaction gone dead =>
    exact .stray (later found) reaction gone
      (fun live => dead (live_cons.mp (live_cons.mp live).2).2)

/-- Behind the action, the next turn only dereferences the cursor. -/
theorem scan_done (wanted : α → Bool) (act : Node α → LinkedList α → Reaction α)
    {cursor : Option Nat} (turns : Nat) (inList : ∀ address ∈ cursor, address ∈ list.addresses) :
    ∃ uses, scan wanted act (turns + 1) cursor true list = some ⟨uses, [], .finished list⟩ ∧
      Live uses := by
  cases cursor with
  | none => exact ⟨[], rfl, by simp [Live]⟩
  | some address =>
    obtain ⟨node, member, rfl⟩ := List.mem_map.mp (inList address rfl)
    have found : list.nodes.find? (fun other => other.address = node.address) = some node :=
      lookup_of_mem list.distinct member
    refine ⟨[⟨node.address, list.addresses⟩], ?_, live_cons.mpr ⟨inList _ rfl, by simp [Live]⟩⟩
    simp only [scan, found, if_true]

theorem ends_scan (split : list.nodes = before ++ rest) {turns : Nat} (enough : rest.length + 2 ≤ turns) :
    ∃ result, scan wanted act turns (rest.head?.map Node.address) false list = some result ∧
      Ends wanted act list rest result := by
  induction rest generalizing before turns with
  | nil =>
    obtain ⟨more, rfl⟩ : ∃ more, turns = more + 1 := ⟨turns - 1, by omega⟩
    exact ⟨_, rfl, .missed rfl (by simp [Live])⟩
  | cons node rest inductionHypothesis =>
    obtain ⟨more, rfl⟩ : ∃ more, turns = more + 1 := ⟨turns - 1, by omega⟩
    have inNodes : node ∈ list.nodes := by simp [split]
    have member : node.address ∈ list.addresses := List.mem_map_of_mem inNodes
    have found : list.nodes.find? (fun other => other.address = node.address) = some node :=
      lookup_of_mem list.distinct inNodes
    simp only [scan, List.head?_cons, Option.map_some, found, Bool.false_eq_true, if_false]
    have here : Live [⟨node.address, list.addresses⟩] := live_cons.mpr ⟨member, by simp [Live]⟩
    by_cases hit : wanted node.value = true
    · have first : (node :: rest).find? (fun node => wanted node.value) = some node :=
        List.find?_cons_of_pos hit
      rw [if_pos hit]
      cases reaction : act node list with
      | stuck => exact ⟨_, rfl, .stuck first reaction here⟩
      | left => exact ⟨_, rfl, .left first reaction here⟩
      | done after =>
        cases follows : successor node.address after.nodes with
        | none =>
          have gone := successor_eq_none.mp follows
          simp only [follows]
          refine ⟨_, rfl, .stray first reaction gone (fun live => ?_)⟩
          exact gone (live_cons.mp (live_cons.mp live).2).1
        | some next =>
          have stays : node.address ∈ after.addresses := by
            by_contra gone
            rw [successor_eq_none.mpr gone] at follows
            cases follows
          have inList : ∀ address ∈ next, address ∈ after.addresses := by
            rintro address rfl
            exact successor_mem follows
          obtain ⟨later, rfl⟩ : ∃ later, more = later + 1 := ⟨more - 1, by simp at enough; omega⟩
          obtain ⟨uses, scanned, live⟩ := scan_done wanted act later inList
          simp only [follows, scanned]
          refine ⟨_, rfl, .finished first reaction stays ?_⟩
          exact live_cons.mpr ⟨member, live_cons.mpr ⟨stays, live⟩⟩
    · have follows : successor node.address list.nodes = some (rest.head?.map Node.address) := by
        rw [split]
        exact successor_split (split ▸ list.distinct)
      obtain ⟨result, scanned, ends⟩ := inductionHypothesis (by rw [split, List.append_cons])
        (show rest.length + 2 ≤ more by simp at enough; omega)
      simp only [if_neg hit, follows, scanned]
      exact ⟨_, rfl, ends.behind hit member⟩

/-- A scan ends, with one action at most; the cursor strays exactly when the action removes the node
it was called for. -/
theorem ends_scanAll (wanted : α → Bool) (act : Node α → LinkedList α → Reaction α)
    (list : LinkedList α) :
    ∃ result, scanAll wanted act list = some result ∧ Ends wanted act list list.nodes result :=
  ends_scan (List.nil_append _).symm (Nat.le_refl _)

end

end LinkedList

end NermalProxy
