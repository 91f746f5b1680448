import NermalProxy.Library.CString

/-! # The words of a text

The first word of a text, white space before it skipped, and what is left behind it.
Scanning `%s` conversions one after the other reads the words in this order. -/

namespace NermalProxy.CString

def firstWord (input : Bytes) : Bytes := word (skipSpace input)

def behindWord (input : Bytes) : Bytes := (skipSpace input).drop (firstWord input).length

theorem firstWord_spaceless (input : Bytes) : ∀ c ∈ firstWord input, isSpace c = false := by
  intro c member
  simpa using List.mem_takeWhile_imp member

theorem isWord_firstWord {input : Bytes} (nonempty : firstWord input ≠ []) : IsWord (firstWord input) :=
  ⟨nonempty, firstWord_spaceless input⟩

theorem drop_word_length (input : Bytes) :
    input.drop (word input).length = input.dropWhile (fun c => !isSpace c) := by
  have parts : word input ++ input.dropWhile (fun c => !isSpace c) = input :=
    List.takeWhile_append_dropWhile
  calc input.drop (word input).length
      = (word input ++ input.dropWhile (fun c => !isSpace c)).drop (word input).length := by rw [parts]
    _ = input.dropWhile (fun c => !isSpace c) := List.drop_left

theorem firstWord_append_behindWord (input : Bytes) :
    firstWord input ++ behindWord input = skipSpace input := by
  rw [behindWord, firstWord, drop_word_length]
  exact List.takeWhile_append_dropWhile

theorem behindWord_delimits (input : Bytes) : Delimits (behindWord input) := by
  rw [behindWord, firstWord, drop_word_length]
  exact delimits_dropWhile _

/-- A text is padding, its first word and the rest. -/
theorem exists_padding (input : Bytes) :
    ∃ padding, IsPadding padding ∧ input = padding ++ (firstWord input ++ behindWord input) := by
  refine ⟨input.takeWhile isSpace, fun c member => List.mem_takeWhile_imp member, ?_⟩
  rw [firstWord_append_behindWord]
  exact List.takeWhile_append_dropWhile.symm

theorem mem_firstWord {input : Bytes} {c : UInt8} (member : c ∈ firstWord input) :
    c ∈ input ∧ isSpace c = false := by
  obtain ⟨padding, -, split⟩ := exists_padding input
  refine ⟨?_, firstWord_spaceless input c member⟩
  rw [split]
  exact List.mem_append_right _ (List.mem_append_left _ member)

theorem mem_of_mem_behindWord {input : Bytes} {c : UInt8} (member : c ∈ behindWord input) : c ∈ input := by
  obtain ⟨padding, -, split⟩ := exists_padding input
  rw [split]
  exact List.mem_append_right _ (List.mem_append_right _ member)

theorem skipSpace_eq_nil_of_firstWord {input : Bytes} (empty : firstWord input = []) :
    skipSpace input = [] := by
  cases rest : skipSpace input with
  | nil => rfl
  | cons c rest' =>
    have head := List.head?_dropWhile_not isSpace input
    rw [skipSpace] at rest
    rw [rest] at head
    simp only [List.head?_cons] at head
    simp [firstWord, skipSpace, rest, word, head] at empty

theorem behindWord_of_empty {input : Bytes} (empty : firstWord input = []) : behindWord input = [] := by
  rw [behindWord, skipSpace_eq_nil_of_firstWord empty, List.drop_nil]

@[simp] theorem firstWord_nil : firstWord [] = [] := rfl

section Known

variable {padding text rest : Bytes}

theorem firstWord_known (leading : IsPadding padding) (isWord : IsWord text)
    (delimits : Delimits rest) : firstWord (padding ++ (text ++ rest)) = text := by
  rw [firstWord, skipSpace_padding leading, skipSpace_of_spaceless isWord,
    word_append isWord.2 delimits]

theorem behindWord_known (leading : IsPadding padding) (isWord : IsWord text)
    (delimits : Delimits rest) : behindWord (padding ++ (text ++ rest)) = rest := by
  rw [behindWord, firstWord_known leading isWord delimits, skipSpace_padding leading,
    skipSpace_of_spaceless isWord, List.drop_left]

/-- The same at the front of a text. -/
theorem firstWord_front (isWord : IsWord text) (delimits : Delimits rest) :
    firstWord (text ++ rest) = text := by
  rw [firstWord, skipSpace_of_spaceless isWord, word_append isWord.2 delimits]

theorem behindWord_front (isWord : IsWord text) (delimits : Delimits rest) :
    behindWord (text ++ rest) = rest := by
  rw [behindWord, firstWord_front isWord delimits, skipSpace_of_spaceless isWord, List.drop_left]

theorem firstWord_of_isWord (isWord : IsWord text) : firstWord text = text := by
  have ends : Delimits [] := trivial
  simpa using firstWord_front isWord ends

/-- Text behind a word that ends in the text changes nothing of it. -/
theorem firstWord_append {text : Bytes} (ends : behindWord text ≠ []) (more : Bytes) :
    firstWord (text ++ more) = firstWord text ∧ behindWord (text ++ more) = behindWord text ++ more := by
  obtain ⟨padding, leading, split⟩ := exists_padding text
  have nonempty : firstWord text ≠ [] := fun empty => ends (behindWord_of_empty empty)
  have isWord := isWord_firstWord nonempty
  have delimits : Delimits (behindWord text ++ more) := by
    have inside := behindWord_delimits text
    cases behind : behindWord text with
    | nil => exact absurd behind ends
    | cons c rest =>
      rw [behind] at inside
      exact inside
  have whole : text ++ more = padding ++ (firstWord text ++ (behindWord text ++ more)) := by
    conv_lhs => rw [split]
    simp only [List.append_assoc]
  rw [whole]
  exact ⟨firstWord_known leading isWord delimits, behindWord_known leading isWord delimits⟩

/-- A word that runs to the end of the text goes on in what follows. -/
theorem firstWord_append_word {text : Bytes} (nonempty : firstWord text ≠ [])
    (unfinished : behindWord text = []) (more : Bytes) :
    firstWord (text ++ more) = firstWord text ++ word more := by
  obtain ⟨padding, leading, split⟩ := exists_padding text
  rw [unfinished, List.append_nil] at split
  have isWord := isWord_firstWord nonempty
  have moreSplit : more = word more ++ more.drop (word more).length := by
    rw [drop_word_length]
    exact List.takeWhile_append_dropWhile.symm
  have delimits : Delimits (more.drop (word more).length) := by
    rw [drop_word_length]
    exact delimits_dropWhile more
  have longer : IsWord (firstWord text ++ word more) := by
    refine ⟨by simp [nonempty], fun c member => ?_⟩
    rcases List.mem_append.mp member with inText | inMore
    · exact isWord.2 c inText
    · simpa using List.mem_takeWhile_imp inMore
  have whole : text ++ more =
      padding ++ (firstWord text ++ word more ++ more.drop (word more).length) := by
    conv_lhs => rw [split, moreSplit]
    simp only [List.append_assoc]
  rw [whole]
  exact firstWord_known leading longer delimits

/-- Text that follows nothing but white space is read as if it stood alone. -/
theorem firstWord_append_of_empty {text : Bytes} (empty : firstWord text = []) (more : Bytes) :
    firstWord (text ++ more) = firstWord more ∧ behindWord (text ++ more) = behindWord more := by
  have padding : IsPadding text := List.dropWhile_eq_nil_iff.mp (skipSpace_eq_nil_of_firstWord empty)
  have skipped := skipSpace_padding padding more
  exact ⟨by rw [firstWord, skipped, firstWord], by rw [behindWord, firstWord, skipped, behindWord, firstWord]⟩

end Known

/-! ## Up to the first NUL -/

theorem cstr_of_nul_free {text : Bytes} (nulFree : (0 : UInt8) ∉ text) : cstr text = text := by
  simpa [cstr] using cstr_append_of_nul_free nulFree []

/-- A NUL in the front part hides everything behind it. -/
theorem cstr_append_of_nul {text : Bytes} (nul : (0 : UInt8) ∈ text) (rest : Bytes) :
    cstr (text ++ rest) = cstr text := by
  obtain ⟨before, after, rfl, absent⟩ := List.eq_append_cons_of_mem nul
  rw [List.append_assoc, cstr_append_of_nul_free absent, cstr_append_of_nul_free absent]
  rfl

theorem Delimits.cstr {rest : Bytes} (delimits : Delimits rest) : Delimits (CString.cstr rest) := by
  cases rest with
  | nil => trivial
  | cons c rest =>
    have space : isSpace c = true := delimits
    have visible : (c != 0) = true := by
      rw [bne_iff_ne]
      rintro rfl
      exact absurd space (by decide)
    simp only [CString.cstr, List.takeWhile_cons, visible, if_true]
    exact space

/-- A word that is cut by a NUL is the last thing that is read. -/
theorem cstr_word_append (text : Bytes) {rest : Bytes} (delimits : Delimits rest) :
    ∃ more, cstr (text ++ rest) = cstr text ++ more ∧ Delimits more ∧
      ((0 : UInt8) ∈ text → more = []) := by
  by_cases nul : (0 : UInt8) ∈ text
  · exact ⟨[], by rw [cstr_append_of_nul nul, List.append_nil], trivial, fun _ => rfl⟩
  · refine ⟨cstr rest, ?_, delimits.cstr, fun member => absurd member nul⟩
    rw [cstr_append_of_nul_free nul, cstr_of_nul_free nul]

theorem IsPadding.nul_free {padding : Bytes} (leading : IsPadding padding) : (0 : UInt8) ∉ padding :=
  leading.notMem (by decide)

/-- The first word of a text that ends at a NUL. -/
theorem firstWord_cstr (text : Bytes) : firstWord (cstr text) = cstr (firstWord text) := by
  obtain ⟨padding, leading, split⟩ := exists_padding text
  obtain ⟨more, cut, delimits, hidden⟩ := cstr_word_append (firstWord text) (behindWord_delimits text)
  have whole : cstr text = padding ++ (cstr (firstWord text) ++ more) := by
    conv_lhs => rw [split]
    rw [cstr_append_of_nul_free leading.nul_free, cut]
  rw [whole]
  by_cases empty : cstr (firstWord text) = []
  · have nothing : firstWord (padding ++ ([] ++ more)) = firstWord more := by
      rw [firstWord, skipSpace_padding leading, List.nil_append, firstWord]
    rw [empty, nothing]
    by_cases missing : firstWord text = []
    · rw [missing, List.nil_append, behindWord_of_empty missing] at cut
      have last : more = [] := by simpa [cstr] using cut
      rw [last]
      rfl
    · have nul : (0 : UInt8) ∈ firstWord text :=
        Decidable.byContradiction fun nulFree => missing (by rwa [cstr_of_nul_free nulFree] at empty)
      rw [hidden nul]
      rfl
  · have isWord : IsWord (cstr (firstWord text)) :=
      ⟨empty, fun c member => firstWord_spaceless text c ((List.takeWhile_prefix _).subset member)⟩
    exact firstWord_known leading isWord delimits

theorem behindWord_cstr {text : Bytes} (nulFree : (0 : UInt8) ∉ firstWord text) :
    behindWord (cstr text) = cstr (behindWord text) := by
  by_cases missing : firstWord text = []
  · rw [behindWord_of_empty missing, behindWord_of_empty (by rw [firstWord_cstr, missing]; rfl)]
    rfl
  · obtain ⟨padding, leading, split⟩ := exists_padding text
    have whole : cstr text = padding ++ (firstWord text ++ cstr (behindWord text)) := by
      conv_lhs => rw [split]
      rw [cstr_append_of_nul_free leading.nul_free, cstr_append_of_nul_free nulFree]
    rw [whole]
    exact behindWord_known leading (isWord_firstWord missing) (behindWord_delimits text).cstr

/-! ## Digits -/

theorem isDigit_visible {c : UInt8} (digit : isDigit c = true) :
    isSpace c = false ∧ c ≠ 0 ∧ c ≠ 47 := by
  simp only [isDigit, Bool.and_eq_true, decide_eq_true_eq, UInt8.le_iff_toNat_le] at digit
  have low : 48 ≤ c.toNat := digit.1
  have other : ∀ d : UInt8, d.toNat < 48 → c ≠ d := by
    rintro d below rfl
    omega
  refine ⟨?_, other 0 (by decide), other 47 (by decide)⟩
  have notBlank : ¬ c = 32 := other 32 (by decide)
  have notControl : ¬ c ≤ 13 := by
    rw [UInt8.le_iff_toNat_le]
    have : (13 : UInt8).toNat = 13 := rfl
    omega
  simp [isSpace, notBlank, notControl]

/-- A digit string that fits an `int` is read as its value. -/
theorem scanInt_digits {digits : Bytes} (nonempty : digits ≠ [])
    (all : ∀ c ∈ digits, isDigit c = true) (small : digitsValue digits < 2147483648) :
    scanInt digits = some ((digitsValue digits : Int), []) := by
  have whole : digits.takeWhile isDigit = digits := List.takeWhile_eq_self_iff.mpr all
  have value : toInt false (digitsValue digits) = digitsValue digits := by
    unfold toInt
    simp only [Bool.false_eq_true, if_false, longMax]
    rw [Int.min_eq_right (by omega), show UInt32.size = 4294967296 from rfl, Int.bmod_eq_emod]
    split <;> omega
  cases digits with
  | nil => exact absurd rfl nonempty
  | cons c digits =>
    have digit := all c List.mem_cons_self
    have visible := (isDigit_visible digit).1
    have skipped : skipSpace (c :: digits) = c :: digits := by simp [skipSpace, visible]
    have notMinus : c ≠ 45 := by
      rintro rfl
      exact absurd digit (by decide)
    have notPlus : c ≠ 43 := by
      rintro rfl
      exact absurd digit (by decide)
    unfold scanInt
    rw [skipped]
    split
    · rename_i rest same
      split at same
      · rename_i minus
        exact absurd (List.cons.inj minus).1 notMinus
      · rename_i plus
        exact absurd (List.cons.inj plus).1 notPlus
      · cases same
        simp only [whole, value]
        simp


/-! ## The conversions on words -/

theorem scanWord_eq (input : Bytes) :
    scanWord input =
      if firstWord input = [] then none else some (firstWord input, behindWord input) := by
  unfold scanWord behindWord firstWord
  split
  · rename_i empty
    rw [if_pos empty]
  · rename_i nonempty
    rw [if_neg nonempty]

theorem scanString_eq (width : Nat) (input : Bytes) :
    scanString width input =
      if (firstWord input).take width = [] then none
      else some ((firstWord input).take width, (skipSpace input).drop ((firstWord input).take width).length) := by
  unfold scanString firstWord
  split
  · rename_i empty
    rw [if_pos empty]
  · rename_i nonempty
    rw [if_neg nonempty]

end NermalProxy.CString
