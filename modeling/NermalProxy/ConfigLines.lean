import NermalProxy.ConfigLayout
import NermalProxy.Library.Buffer
import NermalProxy.Library.Words

/-! # The lines of a configuration file

What `LoadData` does with a line depends on its text in front of a `#`: a section header has both
brackets, other lines with a colon are entries, and a line with neither that is not blank ends the
loading.  The pieces of an entry are scanned into one buffer, and the results of the scans are not
looked at. -/

namespace NermalProxy.ConfigFile

open NermalProxy.CString NermalProxy.KeyedList NermalProxy.Buffer

/-! ## The kinds of lines -/

/-- The line up to its comment. -/
def lineText (line : Bytes) : Bytes := cutAt (cstr line) 35

def IsSection (text : Bytes) : Prop := 91 ∈ text ∧ 93 ∈ text

instance (text : Bytes) : Decidable (IsSection text) := inferInstanceAs (Decidable (_ ∧ _))

/-- Neither blank nor a comment, no header and no entry. -/
def Malformed (line : Bytes) : Prop :=
  ¬ IsSection (lineText line) ∧ 58 ∉ lineText line ∧ firstWord (lineText line) ≠ []

instance (line : Bytes) : Decidable (Malformed line) := inferInstanceAs (Decidable (_ ∧ _ ∧ _))

/-- A line `key: p1, ..., pn`: one with a colon that is no header with the colon in its name. -/
structure IsEntry (text : Bytes) : Prop where
  colon : 58 ∈ text
  outside : ¬ (91 ∈ cutAt text 58 ∧ 93 ∈ text)

/-- The key that is written on a line. -/
def keyText (text : Bytes) : Bytes := firstWord (cutAt text 58)

/-- The pieces behind the colon. -/
def valuePieces (text : Bytes) : List Bytes := pieces 44 (text.drop ((cutAt text 58).length + 1))

/-- The values that a line writes for a key. -/
def ownValues (text key : Bytes) : List Bytes :=
  if keyText text ≠ [] ∧ key = keyText text then
    ((valuePieces text).map firstWord).filter (fun value => value ≠ [])
  else []

/-! ## What a line does -/

def LoadState.values (state : LoadState) (sectionName key : Bytes) : List Bytes :=
  ((state.config.findSection sectionName).getAttribute key).values

/-- What is in `value` behind the scan of each piece. -/
def scanned : Bytes → List Bytes → List Bytes
  | _, [] => []
  | value, piece :: rest => scanInto piece value :: scanned (scanInto piece value) rest

/-- The branches of the loop's body. -/
inductive Loads (stale : Bytes × Bytes) (state : LoadState) (line : Bytes) : LoadState → Prop
  | heading (isSection : IsSection (lineText line)) (name : Bytes) :
      Loads stale state line
        { state with config := state.config.addSection name, sectionName := name }
  | malformed (malformed : Malformed line) : Loads stale state line { state with done := true }
  | blank (noSection : ¬ IsSection (lineText line)) (noColon : 58 ∉ lineText line)
      (blank : firstWord (lineText line) = []) : Loads stale state line state
  | entry (noSection : ¬ IsSection (lineText line)) (colon : 58 ∈ lineText line) :
      Loads stale state line
        { state with
          config := addPieces state.sectionName (scanInto (cutAt (lineText line) 58) stale.1) stale.2
            (valuePieces (lineText line)) state.config }

section

variable {stale : Bytes × Bytes} {state : LoadState} {line : Bytes}

theorem scanInto_eq (text buffer : Bytes) :
    scanInto text buffer = if firstWord text = [] then buffer else firstWord text := by
  unfold scanInto
  rw [scanWord_eq]
  by_cases blank : firstWord text = []
  · simp only [if_pos blank]
  · simp only [if_neg blank]

/-- The body of the loop by what the text of the line has in it. -/
theorem loadLine_eq (stale : Bytes × Bytes) (state : LoadState) (line : Bytes) :
    loadLine stale state line =
      if IsSection (lineText line) then
        let name := scanInto (cutAtLast ((lineText line).drop ((cutAt (lineText line) 91).length + 1)) 93)
          state.sectionName
        { state with config := state.config.addSection name, sectionName := name }
      else if 58 ∈ lineText line then
        { state with
          config := addPieces state.sectionName (scanInto (cutAt (lineText line) 58) stale.1) stale.2
            (valuePieces (lineText line)) state.config }
      else if firstWord (lineText line) = [] then state
      else { state with done := true } := by
  have behind : cutAt (cstr line) 35 = lineText line := rfl
  unfold loadLine
  simp only [behind, scanWord_eq]
  split
  · rename_i opened closed
    have opening := mem_of_strchr opened
    rw [strchr_eq_some opening] at opened
    cases opened
    rw [if_pos ⟨opening, mem_of_strchr closed⟩]
    rfl
  · rename_i others
    have noSection : ¬ IsSection (lineText line) := fun ⟨opening, closing⟩ =>
      others _ _ (strchr_eq_some opening) (strchr_eq_some closing)
    rw [if_neg noSection]
    split
    · rename_i noColon
      rw [if_neg (notMem_of_strchr noColon)]
      by_cases blank : firstWord (lineText line) = []
      · simp only [if_pos blank]
      · simp only [if_neg blank]
    · rename_i colon
      have member := mem_of_strchr colon
      rw [strchr_eq_some member] at colon
      cases colon
      rw [if_pos member]
      rfl

theorem loads (stale : Bytes × Bytes) (state : LoadState) (line : Bytes) :
    Loads stale state line (loadLine stale state line) := by
  rw [loadLine_eq]
  split
  · rename_i isSection
    exact .heading isSection _
  · rename_i noSection
    split
    · rename_i colon
      exact .entry noSection colon
    · rename_i noColon
      split
      · rename_i blank
        exact .blank noSection noColon blank
      · rename_i word
        exact .malformed ⟨noSection, noColon, word⟩

theorem loadLine_done (stale : Bytes × Bytes) (state : LoadState) (line : Bytes) :
    (loadLine stale state line).done = true ↔ state.done = true ∨ Malformed line := by
  have step := loads stale state line
  generalize loadLine stale state line = next at step ⊢
  cases step with
  | heading isSection name =>
    have wellFormed : ¬ Malformed line := fun malformed => malformed.1 isSection
    simp only [wellFormed, or_false]
  | malformed malformed => simp only [malformed, or_true]
  | blank noSection noColon blank =>
    have wellFormed : ¬ Malformed line := fun malformed => malformed.2.2 blank
    simp only [wellFormed, or_false]
  | entry noSection colon =>
    have wellFormed : ¬ Malformed line := fun malformed => malformed.2.1 colon
    simp only [wellFormed, or_false]

end

/-! ## Several lines -/

section

variable {stale : Nat → Bytes × Bytes} {state : LoadState} {before after : List Bytes} {line : Bytes}

theorem loadLines_of_done (stale : Nat → Bytes × Bytes) (number : Nat) (done : state.done = true)
    (lines : List Bytes) : loadLines stale number state lines = state := by
  cases lines with
  | nil => rfl
  | cons line lines => rw [loadLines, if_pos done]

theorem loadLines_append (stale : Nat → Bytes × Bytes) (number : Nat) (state : LoadState)
    (before after : List Bytes) :
    loadLines stale number state (before ++ after) =
      loadLines stale (number + before.length) (loadLines stale number state before) after := by
  induction before generalizing number state with
  | nil => rfl
  | cons line before inductionHypothesis =>
    by_cases done : state.done = true
    · simp only [loadLines_of_done _ _ done]
    · rw [List.cons_append, loadLines, if_neg done, inductionHypothesis, loadLines, if_neg done,
        List.length_cons]
      congr 1
      omega

theorem loadLines_done (stale : Nat → Bytes × Bytes) (number : Nat) (state : LoadState)
    (lines : List Bytes) :
    (loadLines stale number state lines).done = true ↔
      state.done = true ∨ ∃ line ∈ lines, Malformed line := by
  induction lines generalizing number state with
  | nil => simp [loadLines]
  | cons line lines inductionHypothesis =>
    by_cases done : state.done = true
    · simp only [loadLines_of_done _ _ done, done, true_or]
    · rw [loadLines, if_neg done, inductionHypothesis, loadLine_done]
      simp [done]

/-- What is there behind these lines from the start of the file. -/
def loaded (stale : Nat → Bytes × Bytes) (lines : List Bytes) : LoadState :=
  loadLines stale 0 ⟨.empty, [], false⟩ lines

theorem loaded_done (stale : Nat → Bytes × Bytes) (lines : List Bytes) :
    (loaded stale lines).done = true ↔ ∃ line ∈ lines, Malformed line := by
  simp [loaded, loadLines_done]

theorem loaded_snoc (stale : Nat → Bytes × Bytes) (before : List Bytes) (line : Bytes) :
    loaded stale (before ++ [line]) =
      if (loaded stale before).done then loaded stale before
      else loadLine (stale before.length) (loaded stale before) line := by
  unfold loaded
  rw [loadLines_append, loadLines, Nat.zero_add]
  split
  · rfl
  · rfl

theorem loadData_some (stale : Nat → Bytes × Bytes) (content : Bytes) :
    loadData stale (some content) = (loaded stale (getlines content)).config := rfl

/-- `LoadData` goes on behind a line with what is there then. -/
theorem loadData_split {content : Bytes} (split : getlines content = before ++ line :: after) :
    loadData stale (some content) =
      (loadLines stale (before.length + 1) (loaded stale (before ++ [line])) after).config := by
  have lines : before ++ line :: after = (before ++ [line]) ++ after := by simp
  rw [loadData_some, split, lines, loaded, loadLines_append, Nat.zero_add, List.length_append]
  rfl

end

/-! ## The scans -/

/-- The arrays of `LoadData`. -/
inductive Local
  | sectionName
  | keyName
  | value
  deriving DecidableEq, Repr

def localSize (_ : Local) : Nat := 1024

/-- What a `%s` stores. -/
def scanAccesses (buffer : Local) (text : Bytes) : List (Access Local) :=
  match scanWord text with
  | none => []
  | some (found, _) => string buffer found.length

/-- What the scans of a line store. -/
def lineAccesses (line : Bytes) : List (Access Local) :=
  let lineBuf := cutAt (cstr line) 35
  match strchr lineBuf 91, strchr lineBuf 93 with
  | some sectionPtr, some _ => scanAccesses .sectionName (cutAtLast sectionPtr.tail 93)
  | _, _ =>
    match strchr lineBuf 58 with
    | none => scanAccesses .value lineBuf
    | some valuePtr =>
      scanAccesses .keyName (cutAt lineBuf 58) ++ (pieces 44 valuePtr.tail).flatMap (scanAccesses .value)

/-- The texts of a line that are scanned. -/
def scannedTexts (text : Bytes) : List Bytes :=
  if IsSection text then [cutAtLast (text.drop ((cutAt text 91).length + 1)) 93]
  else if 58 ∈ text then cutAt text 58 :: valuePieces text
  else [text]

/-- The lines that are read: a malformed one is the last. -/
def readLines (lines : List Bytes) : List Bytes := through (fun line => decide (Malformed line)) lines

/-- The words that are scanned leave room for their NULs. -/
def WordsFit (lines : List Bytes) : Prop :=
  ∀ line ∈ readLines lines, ∀ text ∈ scannedTexts (lineText line), (firstWord text).length < 1024

instance (lines : List Bytes) : Decidable (WordsFit lines) :=
  inferInstanceAs (Decidable (∀ line ∈ readLines lines, ∀ text ∈ scannedTexts (lineText line), _))

/-- The line is reached, and no header. -/
def ReadAsEntry (before : List Bytes) (line : Bytes) : Prop :=
  (¬ ∃ earlier ∈ before, Malformed earlier) ∧ ¬ IsSection (lineText line)

instance (before : List Bytes) (line : Bytes) : Decidable (ReadAsEntry before line) :=
  inferInstanceAs (Decidable (_ ∧ _))

/-- Up to this line everything is stored inside, and what the line adds are its own values, under its own
key and in the section that it is in. -/
structure StoresOwnText (stale : Nat → Bytes × Bytes) (before : List Bytes) (line : Bytes) : Prop where
  inside : Inside localSize ((readLines (before ++ [line])).flatMap lineAccesses)
  values : ∀ sectionName key, (loaded stale (before ++ [line])).values sectionName key =
    (loaded stale before).values sectionName key ++
      if sectionName = (loaded stale before).sectionName then ownValues (lineText line) key else []

section

variable {stale : Nat → Bytes × Bytes} {state : LoadState} {before after : List Bytes} {line text : Bytes}

theorem inside_scanAccesses (buffer : Local) (text : Bytes) :
    Inside localSize (scanAccesses buffer text) ↔ (firstWord text).length < 1024 := by
  unfold scanAccesses
  rw [scanWord_eq]
  by_cases blank : firstWord text = []
  · simp [blank]
  · simp only [if_neg blank, inside_string]
    rfl

theorem inside_lineAccesses (line : Bytes) : Inside localSize (lineAccesses line) ↔
    ∀ text ∈ scannedTexts (lineText line), (firstWord text).length < 1024 := by
  have behind : cutAt (cstr line) 35 = lineText line := rfl
  unfold lineAccesses scannedTexts
  simp only [behind]
  split
  · rename_i opened closed
    have opening := mem_of_strchr opened
    have isSection : IsSection (lineText line) := ⟨opening, mem_of_strchr closed⟩
    rw [strchr_eq_some opening] at opened
    cases opened
    rw [if_pos isSection, List.forall_mem_singleton, inside_scanAccesses, List.tail_cons]
  · rename_i others
    have noSection : ¬ IsSection (lineText line) := fun ⟨opening, closing⟩ =>
      others _ _ (strchr_eq_some opening) (strchr_eq_some closing)
    rw [if_neg noSection]
    split
    · rename_i noColon
      rw [if_neg (notMem_of_strchr noColon), List.forall_mem_singleton, inside_scanAccesses]
    · rename_i colon
      have member := mem_of_strchr colon
      rw [strchr_eq_some member] at colon
      cases colon
      simp only [if_pos member, List.tail_cons, inside_append, inside_flatMap, inside_scanAccesses,
        List.forall_mem_cons, valuePieces]

theorem inside_readLines (lines : List Bytes) :
    Inside localSize ((readLines lines).flatMap lineAccesses) ↔ WordsFit lines := by
  simp only [inside_flatMap, inside_lineAccesses, WordsFit]

/-! ## Behind a malformed line -/

/-- The loading ends at a malformed line: where the words up to it fit, everything is stored inside, and
the data is that of the file that ends there. -/
theorem malformed_ends_loading (stale : Nat → Bytes × Bytes) {content : Bytes}
    (split : getlines content = before ++ line :: after) (malformed : Malformed line)
    (fit : WordsFit (before ++ [line])) :
    Inside localSize ((readLines (getlines content)).flatMap lineAccesses) ∧
      loadData stale (some content) = loadData stale (some before.flatten) := by
  have read : readLines (getlines content) = readLines (before ++ [line]) := by
    rw [split]
    apply through_append_of_stops before after
    exact decide_eq_true malformed
  refine ⟨by rwa [read, inside_readLines], ?_⟩
  have shorter : loadData stale (some before.flatten) = (loaded stale before).config := by
    rw [loadData_some, getlines_flatten split]
  have ended : (loaded stale (before ++ [line])).done = true :=
    (loaded_done stale _).mpr ⟨line, by simp, malformed⟩
  rw [loadData_split split, shorter, loadLines_of_done _ _ ended, loaded_snoc]
  split
  · rfl
  · have step := loads (stale before.length) (loaded stale before) line
    generalize loadLine (stale before.length) (loaded stale before) line = next at step ⊢
    cases step with
    | heading isSection name => exact absurd isSection malformed.1
    | malformed malformed => rfl
    | blank noSection noColon blank => exact absurd blank malformed.2.2
    | entry noSection colon => exact absurd colon malformed.2.1

/-- A line without a colon in front of the section of the proxy. -/
theorem malformed_ends_loading_authless :
    let stale : Nat → Bytes × Bytes := fun _ => (bytes "k", bytes "v")
    loadData stale (some (bytes "port 8080\n[Proxy]\nauth:enabled\n")) = loadData stale (some []) := by
  intro stale
  have split : getlines (bytes "port 8080\n[Proxy]\nauth:enabled\n") =
      [] ++ bytes "port 8080\n" :: [bytes "[Proxy]\n", bytes "auth:enabled\n"] := by decide
  have malformed : Malformed (bytes "port 8080\n") := by decide
  exact (malformed_ends_loading stale split malformed (by decide)).2

/-- The section and all that it says is not loaded. -/
theorem rest_dropped :
    ¬ ∀ (content : Bytes) (before after : List Bytes) (line : Bytes),
      getlines content = before ++ line :: after → Malformed line →
      ∃ stale stale', loadData stale (some content) =
        loadData stale' (some (before.flatten ++ after.flatten)) := by
  intro claim
  obtain ⟨stale, stale', same⟩ := claim (bytes "port 8080\n[Proxy]\nauth:enabled\n") []
    [bytes "[Proxy]\n", bytes "auth:enabled\n"] (bytes "port 8080\n") (by decide) (by decide)
  have names := congrArg ConfigData.names same
  cases names

/-! ## What an entry adds -/

theorem length_scanned (value : Bytes) (texts : List Bytes) : (scanned value texts).length = texts.length := by
  induction texts generalizing value with
  | nil => rfl
  | cons text texts inductionHypothesis => simp only [scanned, List.length_cons, inductionHypothesis]

/-- Where no piece is blank, nothing is left over from an earlier one. -/
theorem scanned_of_words (value : Bytes) {texts : List Bytes} (words : ∀ text ∈ texts, firstWord text ≠ []) :
    scanned value texts = texts.map firstWord := by
  induction texts generalizing value with
  | nil => rfl
  | cons text texts inductionHypothesis =>
    rw [List.forall_mem_cons] at words
    rw [scanned, List.map_cons, scanInto_eq, if_neg words.1, inductionHypothesis _ words.2]

/-- Every piece adds a value to the key, whether the piece has one or not. -/
theorem values_addPieces (sectionName keyName value : Bytes) (texts : List Bytes) (config : ConfigData)
    (other key : Bytes) :
    ((addPieces sectionName keyName value texts config).findSection other |>.getAttribute key).values =
      ((config.findSection other).getAttribute key).values ++
        if other = sectionName ∧ key = keyName then scanned value texts else [] := by
  induction texts generalizing value config with
  | nil => simp [addPieces, scanned]
  | cons text texts inductionHypothesis =>
    rw [addPieces, inductionHypothesis, ConfigData.findSection_addValue]
    by_cases here : other = sectionName
    · by_cases same : key = keyName
      · simp [here, same, ConfigSection.getAttribute_addValue, MultiValueAttribute.addValue, scanned]
      · simp [here, same, ConfigSection.getAttribute_addValue]
    · simp [here]

theorem values_of_read (isEntry : IsEntry (lineText line)) (read : ReadAsEntry before line)
    (sectionName key : Bytes) :
    (loaded stale (before ++ [line])).values sectionName key =
      (loaded stale before).values sectionName key ++
        if sectionName = (loaded stale before).sectionName ∧
            key = scanInto (cutAt (lineText line) 58) (stale before.length).1 then
          scanned (stale before.length).2 (valuePieces (lineText line))
        else [] := by
  have going : ¬ (loaded stale before).done = true := fun done => read.1 ((loaded_done stale before).mp done)
  rw [loaded_snoc, if_neg going]
  have step := loads (stale before.length) (loaded stale before) line
  generalize loadLine (stale before.length) (loaded stale before) line = next at step ⊢
  cases step with
  | heading isSection name => exact absurd isSection read.2
  | malformed malformed => exact absurd isEntry.colon malformed.2.1
  | blank noSection noColon blank => exact absurd isEntry.colon noColon
  | entry noSection colon => exact values_addPieces _ _ _ _ _ _ _

/-- A line that is not reached adds nothing, and a header none but its section. -/
theorem values_of_not_read (unread : ¬ ReadAsEntry before line)
    (sectionName key : Bytes) :
    (loaded stale (before ++ [line])).values sectionName key =
      (loaded stale before).values sectionName key := by
  rw [loaded_snoc]
  split
  · rfl
  · rename_i going
    have step := loads (stale before.length) (loaded stale before) line
    generalize loadLine (stale before.length) (loaded stale before) line = next at step ⊢
    cases step with
    | heading isSection name => simp only [LoadState.values, ConfigData.findSection_addSection]
    | malformed malformed => rfl
    | blank noSection noColon blank => rfl
    | entry noSection colon =>
      exact absurd ⟨fun ended => going ((loaded_done stale before).mpr ended), noSection⟩ unread

theorem ownValues_eq_nil_iff (text : Bytes) : (∀ key, ownValues text key = []) ↔
    keyText text = [] ∨ ∀ piece ∈ valuePieces text, firstWord piece = [] := by
  by_cases blank : keyText text = []
  · simp [ownValues, blank]
  · constructor
    · intro none
      have own := none (keyText text)
      rw [ownValues, if_pos ⟨blank, rfl⟩, List.filter_eq_nil_iff] at own
      refine .inr (fun piece member => ?_)
      simpa using own _ (List.mem_map_of_mem member)
    · rintro (noKey | noValue) key
      · exact absurd noKey blank
      · have none : ((valuePieces text).map firstWord).filter (fun value => value ≠ []) = [] := by
          rw [List.filter_eq_nil_iff]
          intro value member
          obtain ⟨piece, isPiece, rfl⟩ := List.mem_map.mp member
          simp [noValue piece isPiece]
        rw [ownValues, none, ite_self]

/-- What an entry adds is its own text exactly if its key and its pieces are not blank: there are as many
values as pieces. -/
theorem adds_own_iff (stale : Bytes × Bytes) (text : Bytes) :
    (∀ key, (if key = scanInto (cutAt text 58) stale.1 then scanned stale.2 (valuePieces text) else []) =
        ownValues text key) ↔
      keyText text ≠ [] ∧ ∀ piece ∈ valuePieces text, firstWord piece ≠ [] := by
  constructor
  · intro own
    have added := own (scanInto (cutAt text 58) stale.1)
    rw [if_pos rfl] at added
    have lengths := congrArg List.length added
    rw [length_scanned] at lengths
    have some : 0 < (valuePieces text).length := List.length_pos_of_ne_nil (pieces_ne_nil 44 _)
    by_cases written : keyText text ≠ [] ∧ scanInto (cutAt text 58) stale.1 = keyText text
    · rw [ownValues, if_pos written, ← List.length_map (f := firstWord), eq_comm,
        List.length_filter_eq_length_iff] at lengths
      refine ⟨written.1, fun piece member => ?_⟩
      simpa using lengths _ (List.mem_map_of_mem member)
    · rw [ownValues, if_neg written, List.length_nil] at lengths
      omega
  · rintro ⟨hasKey, words⟩ key
    have isKey : scanInto (cutAt text 58) stale.1 = keyText text := by
      rw [scanInto_eq]
      exact if_neg hasKey
    have kept : ((valuePieces text).map firstWord).filter (fun value => value ≠ []) =
        (valuePieces text).map firstWord := by
      rw [List.filter_eq_self]
      intro value member
      obtain ⟨piece, isPiece, rfl⟩ := List.mem_map.mp member
      exact decide_eq_true (words piece isPiece)
    rw [isKey, scanned_of_words _ words, ownValues, kept]
    simp only [ne_eq, hasKey, not_false_eq_true, true_and]

/-- A line stores its own text exactly if all words up to it fit, and either it is read, with a key and
without a blank piece, or it is not read as an entry and has no text of its own. -/
theorem storesOwnText_iff (stale : Nat → Bytes × Bytes) (before : List Bytes) {line : Bytes}
    (isEntry : IsEntry (lineText line)) :
    StoresOwnText stale before line ↔ WordsFit (before ++ [line]) ∧
      ((ReadAsEntry before line ∧ keyText (lineText line) ≠ [] ∧
          ∀ piece ∈ valuePieces (lineText line), firstWord piece ≠ []) ∨
        (¬ ReadAsEntry before line ∧ (keyText (lineText line) = [] ∨
          ∀ piece ∈ valuePieces (lineText line), firstWord piece = []))) := by
  have parts : StoresOwnText stale before line ↔ WordsFit (before ++ [line]) ∧
      ∀ sectionName key, (loaded stale (before ++ [line])).values sectionName key =
        (loaded stale before).values sectionName key ++
          if sectionName = (loaded stale before).sectionName then ownValues (lineText line) key else [] :=
    ⟨fun stores => ⟨(inside_readLines _).mp stores.inside, stores.values⟩,
      fun stores => ⟨(inside_readLines _).mpr stores.1, stores.2⟩⟩
  rw [parts]
  apply and_congr_right
  intro fits
  by_cases read : ReadAsEntry before line
  · simp only [read, true_and, not_true_eq_false, false_and, or_false, values_of_read isEntry read,
      List.append_cancel_left_eq, ← adds_own_iff (stale before.length)]
    constructor
    · intro own key
      simpa using own (loaded stale before).sectionName key
    · intro own sectionName key
      rw [← own key]
      by_cases here : sectionName = (loaded stale before).sectionName
      · simp only [here, true_and, if_true]
      · simp only [here, false_and, if_false]
  · simp only [read, false_and, false_or, not_false_eq_true, true_and, values_of_not_read read,
      List.self_eq_append_right, ← ownValues_eq_nil_iff]
    constructor
    · intro none key
      simpa using none (loaded stale before).sectionName key
    · intro none sectionName key
      rw [none, ite_self]

/-- A user with a password. -/
theorem storesOwnText_iff_password :
    StoresOwnText (fun _ => (bytes "k", bytes "v")) [bytes "[Users]\n"] (bytes "bob: pw\n") :=
  (storesOwnText_iff _ [bytes "[Users]\n"] ⟨by decide, by decide⟩).mpr
    ⟨by decide, .inl ⟨by decide, by decide, by decide⟩⟩

/-- Behind a trailing comma the password is stored a second time. -/
theorem blank_piece_stored :
    ¬ ∀ (stale : Nat → Bytes × Bytes) (before : List Bytes) (line : Bytes), IsEntry (lineText line) →
      StoresOwnText stale before line := by
  intro claim
  have own := (claim (fun _ => ([], [])) [bytes "[Users]\n"] (bytes "bob: pw,\n")
    ⟨by decide, by decide⟩).values (bytes "Users") (bytes "bob")
  exact absurd own (by decide)

end

end NermalProxy.ConfigFile
