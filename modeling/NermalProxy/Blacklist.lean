import NermalProxy.Library.CString
import NermalProxy.Library.KeyedList

/-! # Blocklists

A `Blacklist` is a name and the set of the lines of its file.  `BlacklistList` keeps
them in the order they were loaded; a search by name takes the first. -/

namespace NermalProxy

open NermalProxy.CString NermalProxy.KeyedList

structure Blacklist where
  name : Bytes
  blacklist : List Bytes
  deriving DecidableEq, Repr

namespace Blacklist

/-- The set element made of one line. -/
def lineEntry (line : Bytes) : Bytes := cutAt (cutAt (cstr line) 13) 10

/-- `LoadFromFile` into a fresh list; `none` when `fopen` fails. -/
def loadFromFile (name : Bytes) (content : Option Bytes) : Option Blacklist :=
  content.map (fun content => ⟨name, (getlines content).map lineEntry⟩)

def isHostAllowed (list : Blacklist) (host : Bytes) : Bool := !list.blacklist.contains host

theorem isHostAllowed_iff {list : Blacklist} {host : Bytes} :
    list.isHostAllowed host = true ↔ host ∉ list.blacklist := by
  simp [isHostAllowed]

end Blacklist

namespace BlacklistList

def isAllowedInList (lists : List Blacklist) (name host : Bytes) : Bool :=
  match lookup Blacklist.name name lists with
  | some list => list.isHostAllowed host
  | none => false

def hasList (lists : List Blacklist) (name : Bytes) : Bool :=
  (lookup Blacklist.name name lists).isSome

theorem hasList_iff {lists : List Blacklist} {name : Bytes} :
    hasList lists name = true ↔ ∃ list, lookup Blacklist.name name lists = some list := by
  simp [hasList, Option.isSome_iff_exists]

theorem isAllowedInList_iff {lists : List Blacklist} {name host : Bytes} :
    isAllowedInList lists name host = true ↔
      ∃ list, lookup Blacklist.name name lists = some list ∧ host ∉ list.blacklist := by
  unfold isAllowedInList
  cases lookup Blacklist.name name lists with
  | none => simp
  | some list => simp [Blacklist.isHostAllowed_iff]

end BlacklistList

end NermalProxy
