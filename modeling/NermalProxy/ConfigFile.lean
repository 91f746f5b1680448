import NermalProxy.Library.CString
import NermalProxy.Library.KeyedList

/-! # Configuration files

Sections hold attributes, attributes hold values.  Sections and attributes are only
ever made by find-or-create, so their names are distinct; the structures carry that.
`LoadData` reads a file line by line.  Its two scratch buffers start every line with
whatever the stack held, and a conversion that fails leaves a buffer as it was: `stale`
gives their contents at the start of each line. -/

namespace NermalProxy.ConfigFile

open NermalProxy.CString NermalProxy.KeyedList

structure MultiValueAttribute where
  name : Bytes
  values : List Bytes
  deriving DecidableEq, Repr

namespace MultiValueAttribute

def addValue (attr : MultiValueAttribute) (value : Bytes) : MultiValueAttribute :=
  { attr with values := attr.values ++ [value] }

/-- `GetValue()`. -/
def getValue (attr : MultiValueAttribute) : Bytes := attr.values.headD []

/-- The loop of `GetValue(index, value)`. -/
def valueFrom : List Bytes → (i index : Int) → Option Bytes
  | [], _, _ => none
  | value :: values, i, index => if i = index then some value else valueFrom values (i + 1) index

/-- `GetValue(index, value)`: the value it stores, `none` when it returns `false`.  The index is
compared as a `size_t`. -/
def getValueAt (attr : MultiValueAttribute) (index : Int) : Option Bytes :=
  if (index % UInt64.size).toNat > attr.values.length then none else valueFrom attr.values 0 index

end MultiValueAttribute

structure ConfigSection where
  name : Bytes
  attributes : List MultiValueAttribute
  distinct : (attributes.map MultiValueAttribute.name).Nodup

namespace ConfigSection

def make (name : Bytes) : ConfigSection := ⟨name, [], List.nodup_nil⟩

/-- `GetAttribute(name)`; the empty attribute it would append is read as empty. -/
def getAttribute (configSection : ConfigSection) (name : Bytes) : MultiValueAttribute :=
  (lookup MultiValueAttribute.name name configSection.attributes).getD ⟨name, []⟩

/-- The loop of `GetAttribute(idx)`. -/
def attributeFrom : List MultiValueAttribute → (i idx : Int) → Option MultiValueAttribute
  | [], _, _ => none
  | attr :: attributes, i, idx => if i = idx then some attr else attributeFrom attributes (i + 1) idx

/-- `GetAttribute(idx)`. -/
def getAttributeAt (configSection : ConfigSection) (idx : Int) : Option MultiValueAttribute :=
  attributeFrom configSection.attributes 0 idx

/-- `GetAttribute(name).AddValue(value)`. -/
def addValue (configSection : ConfigSection) (name value : Bytes) : ConfigSection where
  name := configSection.name
  attributes := upsert MultiValueAttribute.name name ⟨name, []⟩
    (fun attr => attr.addValue value) configSection.attributes
  distinct := nodup_upsert (fun _ => rfl) rfl configSection.distinct

end ConfigSection

structure ConfigData where
  sections : List ConfigSection
  distinct : (sections.map ConfigSection.name).Nodup

namespace ConfigData

def empty : ConfigData := ⟨[], List.nodup_nil⟩

/-- `AddSection`. -/
def addSection (config : ConfigData) (name : Bytes) : ConfigData where
  sections := upsert ConfigSection.name name (.make name) id config.sections
  distinct := nodup_upsert (fun _ => rfl) rfl config.distinct

/-- `FindSection` for reading. -/
def findSection (config : ConfigData) (name : Bytes) : ConfigSection :=
  (lookup ConfigSection.name name config.sections).getD (.make name)

/-- `FindSection(section).GetAttribute(name).AddValue(value)`. -/
def addValue (config : ConfigData) (sectionName name value : Bytes) : ConfigData where
  sections := upsert ConfigSection.name sectionName (.make sectionName)
    (fun configSection => configSection.addValue name value) config.sections
  distinct := nodup_upsert (fun _ => rfl) rfl config.distinct

end ConfigData

/-! ## What the operations change -/

theorem MultiValueAttribute.valueFrom_eq (values : List Bytes) (i : Int) (index : Nat) :
    valueFrom values i (i + index) = values[index]? := by
  induction values generalizing i index with
  | nil => rfl
  | cons value values inductionHypothesis =>
    cases index with
    | zero => simp [valueFrom]
    | succ index =>
      have shifted : i + ((index + 1 : Nat) : Int) = i + 1 + index := by omega
      have further : ¬ i = i + 1 + index := by omega
      rw [shifted, valueFrom, if_neg further, inductionHypothesis, List.getElem?_cons_succ]

/-- From index 0 on, the values and then `false`. -/
theorem MultiValueAttribute.getValueAt_eq (attr : MultiValueAttribute) (index : Nat) :
    attr.getValueAt index = attr.values[index]? := by
  have found := valueFrom_eq attr.values 0 index
  unfold getValueAt
  split
  · rename_i large
    have size : ((index : Int) % (UInt64.size : Nat)).toNat = index % UInt64.size := by omega
    have below := Nat.mod_le index UInt64.size
    rw [List.getElem?_eq_none (by omega)]
  · simpa using found

theorem ConfigSection.attributeFrom_eq (attributes : List MultiValueAttribute) (i : Int) (idx : Nat) :
    attributeFrom attributes i (i + idx) = attributes[idx]? := by
  induction attributes generalizing i idx with
  | nil => rfl
  | cons attr attributes inductionHypothesis =>
    cases idx with
    | zero => simp [attributeFrom]
    | succ idx =>
      have shifted : i + ((idx + 1 : Nat) : Int) = i + 1 + idx := by omega
      have further : ¬ i = i + 1 + idx := by omega
      rw [shifted, attributeFrom, if_neg further, inductionHypothesis, List.getElem?_cons_succ]

/-- From index 0 on, the attributes and then a null pointer. -/
theorem ConfigSection.getAttributeAt_eq (configSection : ConfigSection) (idx : Nat) :
    configSection.getAttributeAt idx = configSection.attributes[idx]? := by
  simpa [getAttributeAt] using attributeFrom_eq configSection.attributes 0 idx

/-- The names of the attributes. -/
def ConfigSection.keys (configSection : ConfigSection) : List Bytes :=
  configSection.attributes.map MultiValueAttribute.name

theorem ConfigSection.keys_addValue (configSection : ConfigSection) (name value : Bytes) :
    (configSection.addValue name value).keys =
      if name ∈ configSection.keys then configSection.keys else configSection.keys ++ [name] := by
  have keeps : ∀ attr : MultiValueAttribute, (attr.addValue value).name = attr.name := fun _ => rfl
  have made : MultiValueAttribute.name ⟨name, []⟩ = name := rfl
  refine (map_upsert_of_fresh keeps made).trans ?_
  congr

theorem ConfigSection.getAttribute_addValue (configSection : ConfigSection) (name value other : Bytes) :
    (configSection.addValue name value).getAttribute other =
      if other = name then (configSection.getAttribute name).addValue value
      else configSection.getAttribute other := by
  have keeps : ∀ attr : MultiValueAttribute, (attr.addValue value).name = attr.name := fun _ => rfl
  have made : MultiValueAttribute.name ⟨name, []⟩ = name := rfl
  unfold getAttribute addValue
  split
  · rename_i same
    simp only [same, lookup_upsert_same keeps made, Option.getD_some]
  · rename_i different
    simp only [lookup_upsert_other keeps made different]

namespace ConfigData

def names (config : ConfigData) : List Bytes := config.sections.map ConfigSection.name

variable (config : ConfigData) (name key value other : Bytes)

theorem names_addSection : (config.addSection name).names =
    if name ∈ config.names then config.names else config.names ++ [name] := by
  have keeps : ∀ configSection : ConfigSection, (id configSection).name = configSection.name :=
    fun _ => rfl
  have made : (ConfigSection.make name).name = name := rfl
  refine (map_upsert_of_fresh keeps made).trans ?_
  congr

theorem names_addValue : (config.addValue name key value).names =
    if name ∈ config.names then config.names else config.names ++ [name] := by
  have keeps : ∀ configSection : ConfigSection,
      (configSection.addValue key value).name = configSection.name := fun _ => rfl
  have made : (ConfigSection.make name).name = name := rfl
  refine (map_upsert_of_fresh keeps made).trans ?_
  congr

/-- A section that is not there reads as the empty one that is added. -/
theorem findSection_addSection :
    (config.addSection name).findSection other = config.findSection other := by
  have keeps : ∀ configSection : ConfigSection, (id configSection).name = configSection.name :=
    fun _ => rfl
  have made : (ConfigSection.make name).name = name := rfl
  unfold findSection addSection
  by_cases same : other = name
  · simp only [same, lookup_upsert_same keeps made, Option.getD_some, id]
  · simp only [lookup_upsert_other keeps made same]

theorem findSection_addValue : (config.addValue name key value).findSection other =
    if other = name then (config.findSection name).addValue key value else config.findSection other := by
  have keeps : ∀ configSection : ConfigSection,
      (configSection.addValue key value).name = configSection.name := fun _ => rfl
  have made : (ConfigSection.make name).name = name := rfl
  unfold findSection addValue
  split
  · rename_i same
    simp only [same, lookup_upsert_same keeps made, Option.getD_some]
  · rename_i different
    simp only [lookup_upsert_other keeps made different]

end ConfigData

/-! ## `LoadData` -/

structure LoadState where
  config : ConfigData
  sectionName : Bytes
  done : Bool

/-- `sscanf(text, "%s", buffer)`: the buffer afterwards, for a word that fits it.  The conversion has
no width, and the buffers of `LoadData` hold 1024 bytes: a longer word is stored beyond them. -/
def scanInto (text buffer : Bytes) : Bytes :=
  match scanWord text with
  | some (found, _) => found
  | none => buffer

/-- The loop over the comma-separated pieces, which shares one `value` buffer. -/
def addPieces (sectionName keyName : Bytes) : Bytes → List Bytes → ConfigData → ConfigData
  | _, [], config => config
  | value, piece :: rest, config =>
    let value := scanInto piece value
    addPieces sectionName keyName value rest (config.addValue sectionName keyName value)

/-- The body of the loop over the lines, for words that fit the buffers; `stale` is what `keyName` and
`value` hold. -/
def loadLine (stale : Bytes × Bytes) (state : LoadState) (line : Bytes) : LoadState :=
  let lineBuf := cutAt (cstr line) 35
  match strchr lineBuf 91, strchr lineBuf 93 with
  | some sectionPtr, some _ =>
    -- a blank name is EOF, not 0, for `sscanf`: the previous name is added once more
    let sectionName := scanInto (cutAtLast sectionPtr.tail 93) state.sectionName
    { state with config := state.config.addSection sectionName, sectionName }
  | _, _ =>
    match strchr lineBuf 58 with
    | none =>
      match scanWord lineBuf with
      | some _ => { state with done := true }
      | none => state
    | some valuePtr =>
      let keyName := scanInto (cutAt lineBuf 58) stale.1
      { state with
        config := addPieces state.sectionName keyName stale.2 (pieces 44 valuePtr.tail) state.config }

def loadLines (stale : Nat → Bytes × Bytes) : Nat → LoadState → List Bytes → LoadState
  | _, state, [] => state
  | number, state, line :: lines =>
    if state.done then state
    else loadLines stale (number + 1) (loadLine (stale number) state line) lines

/-- `LoadData` on the file's content; `none` when `fopen` fails. -/
def loadData (stale : Nat → Bytes × Bytes) (content : Option Bytes) : ConfigData :=
  match content with
  | none => .empty
  | some content => (loadLines stale 0 ⟨.empty, [], false⟩ (getlines content)).config

end NermalProxy.ConfigFile
