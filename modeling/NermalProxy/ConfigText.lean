import NermalProxy.ConfigLines

/-! # Files that are loaded as they are written

What the lines of a file add to the data by their own texts.  `LoadData` scans into buffers that
hold whatever the stack or an earlier scan has left there, and the results of the scans are not
looked at.  Where each piece that is scanned holds a word that fits, nothing of that shows. -/

namespace NermalProxy.ConfigFile

open NermalProxy.CString NermalProxy.KeyedList

/-- The name in the brackets of a header. -/
def headerName (text : Bytes) : Bytes := firstWord (cutAtLast (text.drop ((cutAt text 91).length + 1)) 93)

/-- What a line writes into the section it is in, and the section behind it. -/
def written (config : ConfigData × Bytes) (line : Bytes) : ConfigData × Bytes :=
  let text := lineText line
  -- a line with both brackets is a header, whatever else it has
  if IsSection text then (config.1.addSection (headerName text), headerName text)
  else if 58 ∈ text then
    ((valuePieces text).foldl
      (fun data piece => data.addValue config.2 (keyText text) (firstWord piece)) config.1, config.2)
  else config

/-- What a file says, up to its first malformed line. -/
def fileData (content : Option Bytes) : ConfigData :=
  match content with
  | none => .empty
  | some content => ((readLines (getlines content)).foldl written (.empty, [])).1

/-- A header has no colon in front of its brackets, a header and an entry have a word wherever one is
scanned, and the words are short: a line of the log, which has 1024 bytes, quotes at most two. -/
structure LegibleLine (line : Bytes) : Prop where
  heading : IsSection (lineText line) → 58 ∉ cutAt (lineText line) 91
  words : IsSection (lineText line) ∨ 58 ∈ lineText line →
    ∀ text ∈ scannedTexts (lineText line), firstWord text ≠ []
  short : ∀ text ∈ scannedTexts (lineText line), (firstWord text).length < 400

def Legible (content : Option Bytes) : Prop :=
  ∀ text ∈ content, ∀ line ∈ readLines (getlines text), LegibleLine line

theorem legibleLine_iff {line : Bytes} : LegibleLine line ↔
    (IsSection (lineText line) → 58 ∉ cutAt (lineText line) 91) ∧
      (IsSection (lineText line) ∨ 58 ∈ lineText line →
        ∀ text ∈ scannedTexts (lineText line), firstWord text ≠ []) ∧
      ∀ text ∈ scannedTexts (lineText line), (firstWord text).length < 400 :=
  ⟨fun legible => ⟨legible.heading, legible.words, legible.short⟩,
    fun ⟨heading, words, short⟩ => ⟨heading, words, short⟩⟩

instance (line : Bytes) : Decidable (LegibleLine line) := decidable_of_iff _ legibleLine_iff.symm

instance (content : Option Bytes) : Decidable (Legible content) :=
  inferInstanceAs (Decidable (∀ text ∈ content, ∀ line ∈ readLines (getlines text), _))

section

variable {content : Option Bytes} {line text : Bytes}

theorem scanInto_word (word : firstWord text ≠ []) (buffer : Bytes) : scanInto text buffer = firstWord text := by
  rw [scanInto_eq, if_neg word]

theorem addPieces_words (sectionName keyName value : Bytes) {texts : List Bytes}
    (words : ∀ text ∈ texts, firstWord text ≠ []) (config : ConfigData) :
    addPieces sectionName keyName value texts config =
      texts.foldl (fun data text => data.addValue sectionName keyName (firstWord text)) config := by
  induction texts generalizing value config with
  | nil => rfl
  | cons text texts inductionHypothesis =>
    obtain ⟨word, others⟩ := List.forall_mem_cons.mp words
    rw [addPieces, scanInto_word word, List.foldl_cons]
    exact inductionHypothesis (firstWord text) others _

/-- The texts of a legible line are what the line writes. -/
theorem loadLine_legible (stale : Bytes × Bytes) (state : LoadState) (legible : LegibleLine line) :
    ((loadLine stale state line).config, (loadLine stale state line).sectionName) =
      written (state.config, state.sectionName) line := by
  have words := legible.words
  rw [loadLine_eq, written]
  by_cases isSection : IsSection (lineText line)
  · have word := words (.inl isSection)
    rw [scannedTexts, if_pos isSection, List.forall_mem_singleton] at word
    simp only [if_pos isSection, scanInto_word word, headerName]
  · by_cases colon : 58 ∈ lineText line
    · have word := words (.inr colon)
      rw [scannedTexts, if_neg isSection, if_pos colon, List.forall_mem_cons] at word
      obtain ⟨key, values⟩ := word
      simp only [if_neg isSection, if_pos colon, scanInto_word key, Prod.mk.injEq, and_true]
      exact addPieces_words state.sectionName (keyText (lineText line)) stale.2 values state.config
    · simp only [if_neg isSection, if_neg colon]
      split <;> rfl

theorem loadLines_legible (stale : Nat → Bytes × Bytes) {lines : List Bytes}
    (legible : ∀ line ∈ readLines lines, LegibleLine line) (number : Nat) {state : LoadState}
    (reads : state.done = false) : (loadLines stale number state lines).config =
      ((readLines lines).foldl written (state.config, state.sectionName)).1 := by
  induction lines generalizing number state with
  | nil => rfl
  | cons line lines inductionHypothesis =>
    have first : readLines (line :: lines) = line :: if Malformed line then [] else readLines lines := by
      simp only [readLines, through_cons, decide_eq_true_eq]
    rw [first, List.forall_mem_cons] at legible
    have step := loadLine_legible (stale number) state legible.1
    have done := loadLine_done (stale number) state line
    rw [loadLines, reads, first, List.foldl_cons, ← step]
    by_cases malformed : Malformed line
    · rw [if_neg Bool.false_ne_true, loadLines_of_done _ _ (done.mpr (.inr malformed)), if_pos malformed]
      rfl
    · rw [if_neg malformed] at legible
      have goesOn : (loadLine (stale number) state line).done = false := by
        simpa [reads, malformed] using done
      rw [if_neg Bool.false_ne_true, if_neg malformed]
      exact inductionHypothesis legible.2 (number + 1) goesOn

/-- A legible file is loaded as it is written, whatever the buffers have held. -/
theorem loadData_legible (stale : Nat → Bytes × Bytes) (legible : Legible content) :
    loadData stale content = fileData content := by
  cases content with
  | none => rfl
  | some content => exact loadLines_legible stale (legible content rfl) 0 rfl

/-- Nothing is stored beyond the buffers. -/
theorem inside_legible {content : Bytes} (legible : Legible (some content)) :
    Buffer.Inside localSize ((readLines (getlines content)).flatMap lineAccesses) := by
  rw [inside_readLines]
  intro line read text scanned
  have short := (legible content rfl line read).short text scanned
  omega

end

end NermalProxy.ConfigFile
