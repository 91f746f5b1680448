import NermalProxy.ConfigFile

/-! # Layouts of configuration files

A `Layout` is a way to write sections, keys and values that the format allows; its
structures rule out everything else.  `LoadData` reads back from every layout what was
written. -/

namespace NermalProxy.ConfigFile

open NermalProxy.CString NermalProxy.KeyedList

/-! ## The parts of a line -/

/-- Blanks and tabs. -/
structure Blanks where
  text : Bytes
  blank : ∀ c ∈ text, c = 32 ∨ c = 9

/-- What can be written as the name of a section. -/
structure Token where
  text : Bytes
  isWord : IsWord text
  fits : text.length < 1024
  /-- No NUL, `#`, `[` or `]`. -/
  plain : ∀ c ∈ text, c ≠ 0 ∧ c ≠ 35 ∧ c ≠ 91 ∧ c ≠ 93

structure Key extends Token where
  noColon : 58 ∉ text

structure Value extends Token where
  noComma : 44 ∉ text

/-- A token with what surrounds it. -/
structure Padded (Kind : Type) where
  before : Blanks
  token : Kind
  after : Blanks

structure Header where
  indent : Blanks
  name : Padded Token
  rest : Blanks

structure Entry where
  key : Padded Key
  first : Padded Value
  others : List (Padded Value)

inductive Content where
  | blank (blanks : Blanks)
  | header (heading : Header)
  | entry (entry : Entry)

structure Comment where
  text : Bytes
  oneLine : 10 ∉ text

inductive LineEnd where
  | lf
  | crlf

structure Line where
  content : Content
  comment : Option Comment
  lineEnd : LineEnd

/-! ## How they are written -/

def Padded.render {Kind : Type} (toToken : Kind → Token) (padded : Padded Kind) : Bytes :=
  padded.before.text ++ (toToken padded.token).text ++ padded.after.text

def Header.render (heading : Header) : Bytes :=
  heading.indent.text ++ 91 :: (heading.name.render id ++ 93 :: heading.rest.text)

def renderValues : Padded Value → List (Padded Value) → Bytes
  | value, [] => value.render Value.toToken
  | value, next :: values => value.render Value.toToken ++ 44 :: renderValues next values

def Entry.render (entry : Entry) : Bytes :=
  entry.key.render Key.toToken ++ 58 :: renderValues entry.first entry.others

def Content.render : Content → Bytes
  | .blank blanks => blanks.text
  | .header heading => heading.render
  | .entry item => item.render

/-- A line without its end. -/
def Line.render (line : Line) : Bytes :=
  line.content.render ++
    match line.comment with
    | some comment => 35 :: comment.text
    | none => []

def LineEnd.render : LineEnd → Bytes
  | .lf => [10]
  | .crlf => [13, 10]

def renderLines (lastEnd : Bool) : List Line → Bytes
  | [] => []
  | [line] => line.render ++ if lastEnd then line.lineEnd.render else []
  | line :: next :: lines =>
    line.render ++ line.lineEnd.render ++ renderLines lastEnd (next :: lines)

/-- No entry stands before the first header; `seen` is whether there was one. -/
def Placed : (seen : Bool) → List Line → Prop
  | _, [] => True
  | seen, line :: lines =>
    match line.content with
    | .blank _ => Placed seen lines
    | .header _ => Placed true lines
    | .entry _ => seen = true ∧ Placed seen lines

structure Layout where
  lines : List Line
  placed : Placed false lines
  /-- Whether the last line has its end. -/
  lastEnd : Bool

def Layout.render (layout : Layout) : Bytes := renderLines layout.lastEnd layout.lines

/-! ## What they say -/

def Entry.values (entry : Entry) : List Bytes :=
  (entry.first :: entry.others).map (fun value => value.token.text)

/-- The section names of the headers, in file order. -/
def headers : List Line → List Bytes
  | [] => []
  | line :: lines =>
    match line.content with
    | .header heading => heading.name.token.text :: headers lines
    | _ => headers lines

/-- The values of the file in file order, each with the section and key it stands under. -/
def valuesFrom : (sectionName : Bytes) → List Line → List (Bytes × Bytes × Bytes)
  | _, [] => []
  | sectionName, line :: lines =>
    match line.content with
    | .blank _ => valuesFrom sectionName lines
    | .header heading => valuesFrom heading.name.token.text lines
    | .entry item =>
      item.values.map (fun value => (sectionName, item.key.token.text, value)) ++
        valuesFrom sectionName lines

namespace Layout

def sectionNames (layout : Layout) : List Bytes := headers layout.lines

/-- The keys that stand under a section, in file order. -/
def keysOf (layout : Layout) (sectionName : Bytes) : List Bytes :=
  ((valuesFrom [] layout.lines).filter (fun entry => entry.1 = sectionName)).map (fun entry => entry.2.1)

/-- The values of a key of a section, in file order. -/
def valuesOf (layout : Layout) (sectionName key : Bytes) : List Bytes :=
  ((valuesFrom [] layout.lines).filter (fun entry => entry.1 = sectionName ∧ entry.2.1 = key)).map
    (fun entry => entry.2.2)

end Layout

/-! ## The bytes of a line -/

theorem Blanks.padding (blanks : Blanks) : IsPadding blanks.text := by
  intro c member
  rcases blanks.blank c member with rfl | rfl <;> rfl

/-- Bytes that stand neither in a token nor around one. -/
def Excluded (c : UInt8) : Prop := c = 0 ∨ c = 10 ∨ c = 35 ∨ c = 91 ∨ c = 93

theorem Blanks.notMem (blanks : Blanks) {c : UInt8} (excluded : Excluded c) : c ∉ blanks.text := by
  intro member
  rcases blanks.blank c member with rfl | rfl <;> simp [Excluded] at excluded

theorem Token.notMem (token : Token) {c : UInt8} (excluded : Excluded c) : c ∉ token.text := by
  intro member
  obtain ⟨notNul, notHash, notOpen, notClose⟩ := token.plain c member
  rcases excluded with rfl | rfl | rfl | rfl | rfl
  · exact notNul rfl
  · have visible := token.isWord.2 _ member
    cases visible
  · exact notHash rfl
  · exact notOpen rfl
  · exact notClose rfl

section

variable {Kind : Type} (toToken : Kind → Token) (padded : Padded Kind)

theorem Padded.notMem {c : UInt8} (excluded : Excluded c) : c ∉ padded.render toToken := by
  simp only [Padded.render, List.mem_append, not_or]
  exact ⟨⟨padded.before.notMem excluded, (toToken padded.token).notMem excluded⟩,
    padded.after.notMem excluded⟩

/-- A separator that is not in the token is nowhere in its padding. -/
theorem Padded.notMem_separator {c : UInt8} (visible : isSpace c = false)
    (absent : c ∉ (toToken padded.token).text) : c ∉ padded.render toToken := by
  simp only [Padded.render, List.mem_append, not_or]
  exact ⟨⟨padded.before.padding.notMem visible, absent⟩, padded.after.padding.notMem visible⟩

theorem Padded.scanInto {trail : Bytes} (trailing : IsPadding trail) (buffer : Bytes) :
    scanInto (padded.render toToken ++ trail) buffer = (toToken padded.token).text := by
  have found := scanWord_padded padded.before.padding (toToken padded.token).isWord
    (padded.after.padding.append trailing)
  unfold ConfigFile.scanInto Padded.render
  rw [List.append_assoc, found]

end

theorem renderValues_notMem {c : UInt8} (excluded : Excluded c) (value : Padded Value)
    (values : List (Padded Value)) : c ∉ renderValues value values := by
  have notComma : c ≠ 44 := by
    rintro rfl
    simp [Excluded] at excluded
  induction values generalizing value with
  | nil => exact value.notMem _ excluded
  | cons next values inductionHypothesis =>
    simp only [renderValues, List.mem_append, List.mem_cons, not_or]
    exact ⟨value.notMem _ excluded, notComma, inductionHypothesis next⟩

theorem Entry.notMem (item : Entry) {c : UInt8} (excluded : Excluded c) : c ∉ item.render := by
  have notColon : c ≠ 58 := by
    rintro rfl
    simp [Excluded] at excluded
  simp only [Entry.render, List.mem_append, List.mem_cons, not_or]
  exact ⟨item.key.notMem _ excluded, notColon, renderValues_notMem excluded item.first item.others⟩

theorem Header.notMem (heading : Header) {c : UInt8} (excluded : Excluded c) (notOpen : c ≠ 91)
    (notClose : c ≠ 93) : c ∉ heading.render := by
  simp only [Header.render, List.mem_append, List.mem_cons, not_or]
  exact ⟨heading.indent.notMem excluded, notOpen, heading.name.notMem _ excluded, notClose,
    heading.rest.notMem excluded⟩

theorem Content.notMem (content : Content) {c : UInt8} (excluded : Excluded c) (notOpen : c ≠ 91)
    (notClose : c ≠ 93) : c ∉ content.render := by
  cases content with
  | blank blanks => exact blanks.notMem excluded
  | header heading => exact heading.notMem excluded notOpen notClose
  | entry item => exact item.notMem excluded

theorem LineEnd.padding (lineEnd : LineEnd) : IsPadding lineEnd.render := by
  cases lineEnd <;> simp [IsPadding, LineEnd.render, isSpace]

/-- Behind the comment's cut a line is its content, and white space. -/
theorem Line.lineBuf (line : Line) {ending : Bytes} (padding : IsPadding ending) :
    ∃ trail, IsPadding trail ∧
      cutAt (cstr (line.render ++ ending)) 35 = line.content.render ++ trail := by
  have nulFree : 0 ∉ line.content.render :=
    line.content.notMem (.inl rfl) (by simp) (by simp)
  have hashFree : 35 ∉ line.content.render :=
    line.content.notMem (.inr (.inr (.inl rfl))) (by simp) (by simp)
  unfold Line.render
  cases line.comment with
  | none =>
    have plain : ∀ c, isSpace c = false → c ∉ line.content.render → c ∉ line.content.render ++ ending :=
      fun c visible absent member => (List.mem_append.mp member).elim absent (padding.notMem visible)
    have whole : cstr (line.content.render ++ ending) = line.content.render ++ ending :=
      cutAt_of_notMem (plain 0 rfl nulFree)
    refine ⟨ending, padding, ?_⟩
    rw [List.append_nil, whole, cutAt_of_notMem (plain 35 rfl hashFree)]
  | some comment =>
    have behind : cstr (35 :: (comment.text ++ ending)) = 35 :: cstr (comment.text ++ ending) := by
      simp [cstr]
    refine ⟨[], List.forall_mem_nil _, ?_⟩
    rw [List.append_assoc, List.cons_append, cstr_append_of_nul_free nulFree, behind,
      cutAt_append hashFree, List.append_nil]

/-! ## Reading a line back -/

/-- What a line does, whatever its layout. -/
def Content.apply (state : LoadState) : Content → LoadState
  | .blank _ => state
  | .header heading =>
    { state with
      config := state.config.addSection heading.name.token.text
      sectionName := heading.name.token.text }
  | .entry item =>
    { state with
      config := item.values.foldl
        (fun config value => config.addValue state.sectionName item.key.token.text value) state.config }

theorem addPieces_values (sectionName keyName : Bytes) {trail : Bytes} (trailing : IsPadding trail)
    (first : Padded Value) (others : List (Padded Value)) (value : Bytes) (config : ConfigData) :
    addPieces sectionName keyName value (pieces 44 (renderValues first others ++ trail)) config =
      ((first :: others).map (fun value => value.token.text)).foldl
        (fun config value => config.addValue sectionName keyName value) config := by
  have comma : ∀ value : Padded Value, 44 ∉ value.render Value.toToken :=
    fun value => value.notMem_separator _ rfl value.token.noComma
  induction others generalizing first value config with
  | nil =>
    have single : 44 ∉ renderValues first [] ++ trail := fun member =>
      (List.mem_append.mp member).elim (comma first) (trailing.notMem rfl)
    rw [pieces_of_notMem single, renderValues]
    simp only [addPieces, first.scanInto _ trailing, List.map_cons, List.map_nil, List.foldl_cons,
      List.foldl_nil]
  | cons next others inductionHypothesis =>
    have scanned : scanInto (first.render Value.toToken) value = first.token.text := by
      simpa using first.scanInto Value.toToken (List.forall_mem_nil _) value
    rw [renderValues, List.append_assoc, List.cons_append, pieces_append (comma first), addPieces,
      scanned, inductionHypothesis]
    rfl

theorem loadLine_blank (stale : Bytes × Bytes) (state : LoadState) {line text : Bytes}
    (lineBuf : cutAt (cstr line) 35 = text) (padding : IsPadding text) :
    loadLine stale state line = state := by
  have visible : ∀ c, isSpace c = false → strchr text c = none :=
    fun c isVisible => strchr_of_notMem (padding.notMem isVisible)
  simp only [loadLine, lineBuf, visible 91 rfl, visible 58 rfl, scanWord_padding padding]

theorem loadLine_header (stale : Bytes × Bytes) (state : LoadState) {line trail : Bytes}
    (heading : Header) (lineBuf : cutAt (cstr line) 35 = heading.render ++ trail)
    (trailing : IsPadding trail) :
    loadLine stale state line = (Content.header heading).apply state := by
  have opened : (91 : UInt8) ∉ heading.indent.text := heading.indent.notMem (by simp [Excluded])
  have parts : heading.render ++ trail =
      heading.indent.text ++ 91 :: (heading.name.render id ++ 93 :: (heading.rest.text ++ trail)) := by
    simp [Header.render]
  have closed : (93 : UInt8) ∉ heading.rest.text ++ trail :=
    (heading.rest.padding.append trailing).notMem rfl
  obtain ⟨sectionEnd, found⟩ : ∃ found, strchr (heading.render ++ trail) 93 = some found :=
    strchr_of_mem (by simp [Header.render])
  have name : scanInto (heading.name.render id) state.sectionName = heading.name.token.text := by
    simpa using heading.name.scanInto id (List.forall_mem_nil _) state.sectionName
  rw [parts] at found lineBuf
  simp only [loadLine, lineBuf, strchr_append opened, found, List.tail_cons, cutAtLast_append _ closed,
    name]
  rfl

theorem loadLine_entry (stale : Bytes × Bytes) (state : LoadState) {line trail : Bytes} (item : Entry)
    (lineBuf : cutAt (cstr line) 35 = item.render ++ trail) (trailing : IsPadding trail) :
    loadLine stale state line = (Content.entry item).apply state := by
  have noSection : (91 : UInt8) ∉ item.render ++ trail := fun member =>
    (List.mem_append.mp member).elim (item.notMem (by simp [Excluded])) (trailing.notMem rfl)
  have parts : item.render ++ trail = item.key.render Key.toToken ++
      58 :: (renderValues item.first item.others ++ trail) := by
    simp [Entry.render]
  have colon : (58 : UInt8) ∉ item.key.render Key.toToken :=
    item.key.notMem_separator _ rfl item.key.token.noColon
  have name : scanInto (item.key.render Key.toToken) stale.1 = item.key.token.text := by
    simpa using item.key.scanInto Key.toToken (List.forall_mem_nil _) stale.1
  simp only [loadLine, lineBuf, strchr_of_notMem noSection]
  simp only [parts, strchr_append colon, cutAt_append colon, name, List.tail_cons,
    addPieces_values _ _ trailing]
  rfl

theorem loadLine_line (stale : Bytes × Bytes) (state : LoadState) (line : Line) {ending : Bytes}
    (padding : IsPadding ending) :
    loadLine stale state (line.render ++ ending) = line.content.apply state := by
  obtain ⟨trail, trailing, lineBuf⟩ := line.lineBuf padding
  cases content : line.content with
  | blank blanks =>
    rw [content] at lineBuf
    exact loadLine_blank stale state lineBuf (blanks.padding.append trailing)
  | header heading =>
    rw [content] at lineBuf
    exact loadLine_header stale state heading lineBuf trailing
  | entry item =>
    rw [content] at lineBuf
    exact loadLine_entry stale state item lineBuf trailing

/-- What the lines do one after the other. -/
def applyLines (state : LoadState) (lines : List Line) : LoadState :=
  lines.foldl (fun state line => line.content.apply state) state

theorem apply_done (state : LoadState) (content : Content) : (content.apply state).done = state.done := by
  cases content <;> rfl

theorem Line.oneLine (line : Line) : 10 ∉ line.render := by
  have content : 10 ∉ line.content.render := line.content.notMem (.inr (.inl rfl)) (by simp) (by simp)
  unfold Line.render
  cases line.comment with
  | none => simpa using content
  | some comment => simpa using ⟨content, comment.oneLine⟩

theorem LineEnd.newline (lineEnd : LineEnd) :
    ∃ before, lineEnd.render = before ++ [10] ∧ 10 ∉ before := by
  cases lineEnd with
  | lf => exact ⟨[], rfl, by simp⟩
  | crlf => exact ⟨[13], rfl, by simp⟩

/-- A line with its end is one `getline`. -/
theorem loadLines_line (stale : Nat → Bytes × Bytes) (number : Nat) (state : LoadState)
    (going : state.done = false) (line : Line) (rest : Bytes) :
    loadLines stale number state (getlines (line.render ++ line.lineEnd.render ++ rest)) =
      loadLines stale (number + 1) (line.content.apply state) (getlines rest) := by
  obtain ⟨before, ending, noNewline⟩ := line.lineEnd.newline
  have oneLine : (10 : UInt8) ∉ line.render ++ before := fun member =>
    (List.mem_append.mp member).elim line.oneLine noNewline
  have split : line.render ++ line.lineEnd.render ++ rest = (line.render ++ before) ++ 10 :: rest := by
    simp [ending]
  have whole : line.render ++ before ++ [10] = line.render ++ line.lineEnd.render := by
    simp [ending]
  rw [split, getlines_append oneLine, whole, loadLines, if_neg (by simp [going]),
    loadLine_line _ _ line line.lineEnd.padding]

/-- A last line without its end is one, unless it is empty. -/
theorem loadLines_lastLine (stale : Nat → Bytes × Bytes) (number : Nat) (state : LoadState)
    (going : state.done = false) (line : Line) :
    loadLines stale number state (getlines line.render) = line.content.apply state := by
  have read := loadLine_line (stale number) state line (List.forall_mem_nil _)
  rw [List.append_nil] at read
  by_cases empty : line.render = []
  · rw [empty] at read ⊢
    rw [← read]
    rfl
  · rw [getlines_of_notMem empty line.oneLine, loadLines, if_neg (by simp [going]), read]
    rfl

theorem loadLines_renderLines (stale : Nat → Bytes × Bytes) (lastEnd : Bool) (lines : List Line)
    (number : Nat) (state : LoadState) (going : state.done = false) :
    loadLines stale number state (getlines (renderLines lastEnd lines)) = applyLines state lines := by
  induction lines generalizing number state with
  | nil => rfl
  | cons line lines inductionHypothesis =>
    have still : (line.content.apply state).done = false := by rw [apply_done, going]
    cases lines with
    | nil =>
      cases lastEnd with
      | true =>
        have read := loadLines_line stale number state going line []
        rw [List.append_nil] at read
        exact read
      | false =>
        rw [renderLines, if_neg (by simp), List.append_nil]
        exact loadLines_lastLine stale number state going line
    | cons next lines =>
      rw [renderLines, loadLines_line stale number state going line, inductionHypothesis _ _ still]
      rfl

/-! ## The tables that are read back -/

theorem eraseDups_insert {α : Type*} [BEq α] [LawfulBEq α] [DecidableEq α] {seen : List α} (x : α)
    (rest : List α) :
    ((if x ∈ seen then seen else seen ++ [x]) ++ rest).eraseDups = (seen ++ x :: rest).eraseDups := by
  split
  · rename_i present
    have dropped : (x :: rest).removeAll seen = rest.removeAll seen := by
      rw [List.cons_removeAll]
      simp [present]
    rw [List.eraseDups_append, List.eraseDups_append, dropped]
  · rw [List.append_assoc]
    rfl

theorem eraseDups_of_nodup {α : Type*} [BEq α] [LawfulBEq α] {list : List α} (distinct : list.Nodup) :
    list.eraseDups = list := by
  induction list with
  | nil => rfl
  | cons x list inductionHypothesis =>
    obtain ⟨absent, distinct⟩ := List.nodup_cons.mp distinct
    have others : list.filter (fun y => !y == x) = list := by
      rw [List.filter_eq_self]
      intro y member
      have different : ¬ y = x := fun same => absent (same ▸ member)
      simpa using different
    rw [List.eraseDups_cons, others, inductionHypothesis distinct]

/-- Values added one after the other, each under its section and key. -/
def addAll (config : ConfigData) (values : List (Bytes × Bytes × Bytes)) : ConfigData :=
  values.foldl (fun config entry => config.addValue entry.1 entry.2.1 entry.2.2) config

theorem findSection_addAll_congr {config other : ConfigData}
    (same : ∀ name, config.findSection name = other.findSection name)
    (values : List (Bytes × Bytes × Bytes)) (name : Bytes) :
    (addAll config values).findSection name = (addAll other values).findSection name := by
  induction values generalizing config other with
  | nil => exact same name
  | cons entry values inductionHypothesis =>
    refine inductionHypothesis (fun name => ?_)
    rw [ConfigData.findSection_addValue, ConfigData.findSection_addValue, same, same]

theorem keys_addAll (values : List (Bytes × Bytes × Bytes)) (config : ConfigData) (name : Bytes) :
    ((addAll config values).findSection name).keys = ((config.findSection name).keys ++
      (values.filter (fun entry => entry.1 = name)).map (fun entry => entry.2.1)).eraseDups := by
  induction values generalizing config with
  | nil =>
    have distinct : (config.findSection name).keys.Nodup := (config.findSection name).distinct
    simp [addAll, eraseDups_of_nodup distinct]
  | cons entry values inductionHypothesis =>
    obtain ⟨sectionName, key, value⟩ := entry
    have added := inductionHypothesis (config.addValue sectionName key value)
    rw [ConfigData.findSection_addValue] at added
    by_cases same : name = sectionName
    · subst same
      rw [if_pos rfl, ConfigSection.keys_addValue, eraseDups_insert] at added
      simpa [addAll] using added
    · have other : ¬ sectionName = name := fun equal => same equal.symm
      rw [if_neg same] at added
      simpa [addAll, other] using added

theorem values_addAll (values : List (Bytes × Bytes × Bytes)) (config : ConfigData) (name key : Bytes) :
    (((addAll config values).findSection name).getAttribute key).values =
      ((config.findSection name).getAttribute key).values ++
        (values.filter (fun entry => entry.1 = name ∧ entry.2.1 = key)).map (fun entry => entry.2.2) := by
  induction values generalizing config with
  | nil => simp [addAll]
  | cons entry values inductionHypothesis =>
    obtain ⟨sectionName, entryKey, value⟩ := entry
    have added := inductionHypothesis (config.addValue sectionName entryKey value)
    rw [ConfigData.findSection_addValue] at added
    by_cases same : name = sectionName
    · subst same
      rw [if_pos rfl, ConfigSection.getAttribute_addValue] at added
      by_cases sameKey : key = entryKey
      · subst sameKey
        rw [if_pos rfl] at added
        simpa [addAll, MultiValueAttribute.addValue] using added
      · have otherKey : ¬ entryKey = key := fun equal => sameKey equal.symm
        rw [if_neg sameKey] at added
        simpa [addAll, otherKey] using added
    · have other : ¬ sectionName = name := fun equal => same equal.symm
      rw [if_neg same] at added
      simpa [addAll, other] using added

/-- Only the values count for what is found in a section. -/
theorem findSection_applyLines (lines : List Line) (state : LoadState) (name : Bytes) :
    (applyLines state lines).config.findSection name =
      (addAll state.config (valuesFrom state.sectionName lines)).findSection name := by
  induction lines generalizing state with
  | nil => rfl
  | cons line lines inductionHypothesis =>
    have further := inductionHypothesis (line.content.apply state)
    cases content : line.content with
    | blank blanks =>
      simp only [applyLines, List.foldl_cons, valuesFrom, content, Content.apply] at further ⊢
      exact further
    | header heading =>
      simp only [applyLines, List.foldl_cons, valuesFrom, content, Content.apply] at further ⊢
      rw [further]
      exact findSection_addAll_congr (ConfigData.findSection_addSection _ _) _ name
    | entry item =>
      simp only [applyLines, List.foldl_cons, valuesFrom, content, Content.apply] at further ⊢
      rw [further]
      simp only [addAll, List.foldl_append, List.foldl_map]

theorem names_addValues {sectionName : Bytes} (key : Bytes) (values : List Bytes) {config : ConfigData}
    (present : sectionName ∈ config.names) :
    (values.foldl (fun config value => config.addValue sectionName key value) config).names =
      config.names := by
  induction values generalizing config with
  | nil => rfl
  | cons value values inductionHypothesis =>
    have same : (config.addValue sectionName key value).names = config.names := by
      rw [ConfigData.names_addValue, if_pos present]
    rw [List.foldl_cons, inductionHypothesis (same ▸ present), same]

theorem names_applyLines (lines : List Line) {seen : Bool} (placed : Placed seen lines)
    (state : LoadState) (under : seen = true → state.sectionName ∈ state.config.names) :
    (applyLines state lines).config.names = (state.config.names ++ headers lines).eraseDups := by
  induction lines generalizing seen state with
  | nil =>
    have distinct : state.config.names.Nodup := state.config.distinct
    simp [applyLines, headers, eraseDups_of_nodup distinct]
  | cons line lines inductionHypothesis =>
    cases content : line.content with
    | blank blanks =>
      simp only [Placed, content] at placed
      simp only [applyLines, List.foldl_cons, headers, content, Content.apply]
      exact inductionHypothesis placed state under
    | header heading =>
      simp only [Placed, content] at placed
      simp only [applyLines, List.foldl_cons, headers, content, Content.apply]
      rw [← eraseDups_insert, ← ConfigData.names_addSection]
      refine inductionHypothesis placed _ (fun _ => ?_)
      rw [ConfigData.names_addSection]
      split
      · assumption
      · simp
    | entry item =>
      simp only [Placed, content] at placed
      simp only [applyLines, List.foldl_cons, headers, content, Content.apply]
      have same := names_addValues item.key.token.text item.values (under placed.1)
      have further := inductionHypothesis placed.2 { state with
        config := item.values.foldl
          (fun config value => config.addValue state.sectionName item.key.token.text value) state.config }
        (fun isSeen => by rw [same]; exact under isSeen)
      rw [same] at further
      exact further

/-- From every layout `LoadData` reads each section once, its keys in the order they first appear in,
and the values of each key in file order. -/
theorem config_round_trip (stale : Nat → Bytes × Bytes) (layout : Layout) :
    (loadData stale (some layout.render)).names = layout.sectionNames.eraseDups ∧
    ∀ name,
      (∀ idx : Nat, (((loadData stale (some layout.render)).findSection name).getAttributeAt idx).map
        MultiValueAttribute.name = (layout.keysOf name).eraseDups[idx]?) ∧
      ∀ (idx : Nat) (attr : MultiValueAttribute),
        ((loadData stale (some layout.render)).findSection name).getAttributeAt idx = some attr →
          ∀ index : Nat, attr.getValueAt index = (layout.valuesOf name attr.name)[index]? := by
  have loaded : loadData stale (some layout.render) =
      (applyLines ⟨.empty, [], false⟩ layout.lines).config :=
    congrArg LoadState.config (loadLines_renderLines stale layout.lastEnd layout.lines 0 _ rfl)
  refine ⟨?_, fun name => ⟨fun idx => ?_, fun idx attr found index => ?_⟩⟩
  · rw [loaded, names_applyLines layout.lines layout.placed _ (by simp)]
    rfl
  · have keys := keys_addAll (valuesFrom [] layout.lines) .empty name
    rw [loaded, findSection_applyLines, ConfigSection.getAttributeAt_eq, ← List.getElem?_map]
    exact congrArg (fun keys => keys[idx]?) keys
  · have values := values_addAll (valuesFrom [] layout.lines) .empty name attr.name
    rw [loaded, findSection_applyLines, ConfigSection.getAttributeAt_eq] at found
    have search := lookup_of_mem ((addAll .empty (valuesFrom [] layout.lines)).findSection name).distinct
      (List.mem_of_getElem? found)
    rw [ConfigSection.getAttribute, search, Option.getD_some] at values
    rw [MultiValueAttribute.getValueAt_eq, values]
    rfl

/-- A file of three lines: `[a]` and a comment, `k:v,w` with CRLF, and `k : u` without an end. -/
theorem config_round_trip_merged : ∃ layout : Layout,
    layout.render = bytes "[a] # k:x\nk:v,w\r\n\tk : u" ∧
    ∀ stale, (loadData stale (some layout.render)).names = [bytes "a"] ∧
      ∃ attr, ((loadData stale (some layout.render)).findSection (bytes "a")).getAttributeAt 0 =
        some attr ∧
        attr.name = bytes "k" ∧ attr.getValueAt 2 = some (bytes "u") ∧ attr.getValueAt 3 = none := by
  let nothing : Blanks := ⟨[], by simp⟩
  let blank : Blanks := ⟨[32], by simp⟩
  let tab : Blanks := ⟨[9], by simp⟩
  let a : Token := ⟨[97], by decide, by decide, by simp⟩
  let k : Key := ⟨⟨[107], by decide, by decide, by simp⟩, by decide⟩
  let v : Value := ⟨⟨[118], by decide, by decide, by simp⟩, by decide⟩
  let w : Value := ⟨⟨[119], by decide, by decide, by simp⟩, by decide⟩
  let u : Value := ⟨⟨[117], by decide, by decide, by simp⟩, by decide⟩
  let layout : Layout :=
    { lines := [⟨.header ⟨nothing, ⟨nothing, a, nothing⟩, blank⟩, some ⟨bytes " k:x", by decide⟩, .lf⟩,
        ⟨.entry ⟨⟨nothing, k, nothing⟩, ⟨nothing, v, nothing⟩, [⟨nothing, w, nothing⟩]⟩, none, .crlf⟩,
        ⟨.entry ⟨⟨tab, k, blank⟩, ⟨blank, u, nothing⟩, []⟩, none, .lf⟩]
      placed := ⟨rfl, rfl, trivial⟩
      lastEnd := false }
  refine ⟨layout, by decide, fun stale => ?_⟩
  obtain ⟨names, attributes⟩ := config_round_trip stale layout
  obtain ⟨keys, values⟩ := attributes (bytes "a")
  have first : (layout.keysOf (bytes "a")).eraseDups[0]? = some (bytes "k") := by decide
  obtain ⟨attr, found, named⟩ := Option.map_eq_some_iff.mp ((keys 0).trans first)
  have read := values 0 attr found
  rw [named] at read
  exact ⟨by rw [names]; decide, attr, found, named, (read 2).trans (by decide),
    (read 3).trans (by decide)⟩

end NermalProxy.ConfigFile
