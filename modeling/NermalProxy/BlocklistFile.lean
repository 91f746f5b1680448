import NermalProxy.Blacklist

/-! # Files of blocklists

A line of a blocklist file is a host and whatever comes behind a NUL or a carriage return.
Every file is made of such lines, and what is loaded from it is their hosts. -/

namespace NermalProxy

open NermalProxy.CString

namespace Blacklist

/-- A line without its newline: `entry` is what gets into the list. -/
structure FileLine where
  entry : Bytes
  rest : Bytes
  clean : ∀ c ∈ entry, c ≠ 0 ∧ c ≠ 13 ∧ c ≠ 10
  ignored : rest = [] ∨ rest.head? = some 0 ∨ rest.head? = some 13
  oneLine : (10 : UInt8) ∉ rest

namespace FileLine

variable (line : FileLine)

def text : Bytes := line.entry ++ line.rest

theorem entry_notMem {c : UInt8} (special : c = 0 ∨ c = 13 ∨ c = 10) : c ∉ line.entry := by
  intro member
  obtain ⟨notNul, notReturn, notNewline⟩ := line.clean c member
  rcases special with rfl | rfl | rfl
  · exact notNul rfl
  · exact notReturn rfl
  · exact notNewline rfl

theorem newline_notMem : (10 : UInt8) ∉ line.text := by
  intro member
  rcases List.mem_append.mp member with inEntry | inRest
  · exact line.entry_notMem (.inr (.inr rfl)) inEntry
  · exact line.oneLine inRest

/-- The loader takes the entry of a line, with or without a newline behind it. -/
theorem lineEntry_text {ending : Bytes} (isEnding : ending = [] ∨ ending = [10]) :
    lineEntry (line.text ++ ending) = line.entry := by
  have noNul := line.entry_notMem (.inl rfl)
  have noReturn := line.entry_notMem (.inr (.inl rfl))
  have noNewline := line.entry_notMem (.inr (.inr rfl))
  rw [lineEntry, text, List.append_assoc, cstr_append_of_nul_free noNul]
  rcases line.ignored with nothing | nul | carriage
  · rw [nothing, List.nil_append]
    rcases isEnding with rfl | rfl
    · rw [show cstr ([] : Bytes) = [] from rfl, List.append_nil, cutAt_of_notMem noReturn,
        cutAt_of_notMem noNewline]
    · have noReturnEnded : (13 : UInt8) ∉ line.entry ++ [10] := by
        intro member
        rcases List.mem_append.mp member with inEntry | isNewline
        · exact noReturn inEntry
        · exact absurd (List.mem_singleton.mp isNewline) (by decide)
      rw [show cstr ([10] : Bytes) = [10] from rfl, cutAt_of_notMem noReturnEnded, cutAt_append noNewline]
  · obtain ⟨behind, isRest⟩ := List.head?_eq_some_iff.mp nul
    rw [isRest, List.cons_append, show cstr (0 :: (behind ++ ending)) = [] from rfl, List.append_nil,
      cutAt_of_notMem noReturn, cutAt_of_notMem noNewline]
  · obtain ⟨behind, isRest⟩ := List.head?_eq_some_iff.mp carriage
    have visible : cstr (13 :: (behind ++ ending)) = 13 :: cstr (behind ++ ending) := rfl
    rw [isRest, List.cons_append, visible, cutAt_append noReturn, cutAt_of_notMem noNewline]

end FileLine

/-- Every line is one of these. -/
theorem exists_fileLine {text : Bytes} (oneLine : (10 : UInt8) ∉ text) : ∃ line : FileLine, line.text = text := by
  let plain : UInt8 → Bool := fun c => c != 0 && c != 13
  refine ⟨⟨text.takeWhile plain, text.dropWhile plain, fun c member => ?_, ?_, fun member => ?_⟩,
    List.takeWhile_append_dropWhile⟩
  · have isPlain : plain c = true := List.mem_takeWhile_imp member
    simp only [plain, Bool.and_eq_true, bne_iff_ne, ne_eq] at isPlain
    refine ⟨isPlain.1, isPlain.2, ?_⟩
    rintro rfl
    exact oneLine ((List.takeWhile_prefix _).subset member)
  · cases rest : text.dropWhile plain with
    | nil => exact .inl rfl
    | cons c behind =>
      have stops : ¬ plain c = true := by
        have first := List.head?_dropWhile_not plain text
        rw [rest] at first
        simpa using first
      simp only [plain, Bool.and_eq_true, bne_iff_ne, ne_eq, not_and, not_not] at stops
      by_cases nul : c = 0
      · exact .inr (.inl (by rw [nul]; rfl))
      · exact .inr (.inr (by rw [stops nul]; rfl))
  · exact oneLine ((List.dropWhile_suffix _).subset member)

/-- The content of a file: its lines, and a last one that may lack its newline. -/
def fileText (lines : List FileLine) (last : Option FileLine) : Bytes :=
  lines.flatMap (fun line => line.text ++ [10]) ++ (last.map FileLine.text).getD []

theorem getlines_fileText (lines : List FileLine) {last : Option FileLine}
    (unended : ∀ line ∈ last, line.text ≠ []) :
    getlines (fileText lines last) =
      lines.map (fun line => line.text ++ [10]) ++ last.toList.map FileLine.text := by
  induction lines with
  | nil =>
    cases last with
    | none => rfl
    | some line => exact getlines_of_notMem (unended line rfl) line.newline_notMem
  | cons line lines inductionHypothesis =>
    have front : fileText (line :: lines) last = line.text ++ 10 :: fileText lines last := by
      simp [fileText]
    rw [front, getlines_append line.newline_notMem, inductionHypothesis]
    rfl

theorem loadFromFile_fileText (name : Bytes) (lines : List FileLine) {last : Option FileLine}
    (unended : ∀ line ∈ last, line.text ≠ []) :
    loadFromFile name (some (fileText lines last)) = some ⟨name, (lines ++ last.toList).map FileLine.entry⟩ := by
  have ended : ∀ line : FileLine, lineEntry (line.text ++ [10]) = line.entry :=
    fun line => line.lineEntry_text (.inr rfl)
  have plain : ∀ line : FileLine, lineEntry line.text = line.entry := by
    intro line
    have same := line.lineEntry_text (.inl rfl)
    rwa [List.append_nil] at same
  simp [loadFromFile, getlines_fileText lines unended, Function.comp_def, ended, plain]

/-- Every content is that of such a file. -/
theorem exists_fileText (content : Bytes) :
    ∃ lines last, content = fileText lines last ∧ ∀ line ∈ last, line.text ≠ [] := by
  -- on the length of the file: each newline splits off one line
  induction isSize : content.length using Nat.strong_induction_on generalizing content with
  | _ size inductionHypothesis =>
    by_cases newline : (10 : UInt8) ∈ content
    · obtain ⟨before, behind, rfl, absent⟩ := List.eq_append_cons_of_mem newline
      obtain ⟨line, rfl⟩ := exists_fileLine absent
      have shorter : behind.length < size := by
        rw [← isSize, List.length_append, List.length_cons]
        omega
      obtain ⟨lines, last, rfl, unended⟩ := inductionHypothesis _ shorter behind rfl
      exact ⟨line :: lines, last, by simp [fileText], unended⟩
    · by_cases empty : content = []
      · exact ⟨[], none, empty, by simp⟩
      · obtain ⟨line, rfl⟩ := exists_fileLine newline
        exact ⟨[], some line, rfl, by simpa using empty⟩

/-- Every file is made of lines of an entry and what is not looked at, and the hosts that a list then
refuses are exactly the entries of its file's lines. -/
theorem blocklist_file (name : Bytes) :
    (∀ content, ∃ lines last, content = fileText lines last ∧ ∀ line ∈ last, line.text ≠ []) ∧
    ∀ lines last, (∀ line ∈ last, line.text ≠ []) →
      ∃ list, loadFromFile name (some (fileText lines last)) = some list ∧ list.name = name ∧
        ∀ host, list.isHostAllowed host = false ↔ ∃ line ∈ lines ++ last.toList, line.entry = host := by
  refine ⟨exists_fileText, fun lines last unended => ⟨_, loadFromFile_fileText name lines unended, rfl, ?_⟩⟩
  intro host
  rw [← Bool.not_eq_true, isHostAllowed_iff, not_not, List.mem_map]

/-- A first line that ends as on Windows, and a last one that does not end. -/
theorem blocklist_file_windows : ∃ list,
    loadFromFile (bytes "ads") (some (bytes "a.com\r\nb.com")) = some list ∧
      list.isHostAllowed (bytes "a.com") = false ∧ list.isHostAllowed (bytes "b.com") = false ∧
        ¬ list.isHostAllowed (bytes "a.com\r") = false := by
  let first : FileLine := ⟨bytes "a.com", [13], by decide +kernel, .inr (.inr rfl), by decide⟩
  let second : FileLine := ⟨bytes "b.com", [], by decide +kernel, .inl rfl, by decide⟩
  obtain ⟨list, loaded, -, refuses⟩ :=
    (blocklist_file (bytes "ads")).2 [first] (some second) (by simp [second, FileLine.text]; decide)
  have content : fileText [first] (some second) = bytes "a.com\r\nb.com" := by decide
  rw [content] at loaded
  refine ⟨list, loaded, ?_, ?_, ?_⟩
  · exact (refuses _).mpr ⟨first, by simp, rfl⟩
  · exact (refuses _).mpr ⟨second, by simp, rfl⟩
  · rw [refuses]
    rintro ⟨line, member, same⟩
    rcases List.mem_append.mp member with isFirst | isSecond
    · rw [List.mem_singleton.mp isFirst] at same
      exact absurd same (by decide)
    · have isLine : line = second := by simpa using isSecond
      rw [isLine] at same
      exact absurd same (by decide)

end Blacklist

end NermalProxy
