import Mathlib.Data.List.Basic
import Mathlib.Data.List.DropRight
import Mathlib.Data.List.TakeWhile
import Mathlib.Data.List.TakeDrop

/-! # C strings over byte lists

The `<string.h>` searches and the `sscanf` conversions that C code applies to
NUL-terminated text.  A C string is the list of its bytes before the NUL;
`cstr` reads one out of raw memory.  A conversion returns what it stores
together with the input it leaves for the next one, and `none` when it fails. -/

namespace NermalProxy.CString

abbrev Bytes := List UInt8

def bytes (text : String) : Bytes := text.toList.map Char.toUInt8

/-- The string a `char` pointer to `memory` denotes. -/
def cstr (memory : Bytes) : Bytes := memory.takeWhile (· != 0)

/-- `isspace` in the C locale. -/
def isSpace (c : UInt8) : Bool := c == 32 || (9 ≤ c && c ≤ 13)

def isDigit (c : UInt8) : Bool := 48 ≤ c && c ≤ 57

/-- `strchr`: the suffix that starts at the first `c`. -/
def strchr (text : Bytes) (c : UInt8) : Option Bytes :=
  match text.dropWhile (· != c) with
  | [] => none
  | found => some found

/-- The text left by storing a NUL over the first `c`. -/
def cutAt (text : Bytes) (c : UInt8) : Bytes := text.takeWhile (· != c)

/-- The text left by storing a NUL over the last `c`. -/
def cutAtLast (text : Bytes) (c : UInt8) : Bytes :=
  if c ∈ text then (text.reverse.dropWhile (· != c)).tail.reverse else text

/-- The texts between the separators. -/
def pieces (separator : UInt8) : Bytes → List Bytes
  | [] => [[]]
  | c :: text =>
    if c = separator then [] :: pieces separator text
    else match pieces separator text with
      | [] => [[c]]
      | first :: rest => (c :: first) :: rest

/-- `getline` to the end of the file: each line with its newline, if it has one. -/
def getlines : Bytes → List Bytes
  | [] => []
  | c :: text =>
    if c = 10 then [c] :: getlines text
    else match getlines text with
      | [] => [[c]]
      | line :: lines => (c :: line) :: lines

/-- `strstr`: the suffix that starts at the first occurrence of `needle`. -/
def strstr : Bytes → Bytes → Option Bytes
  | [], needle => if needle.isPrefixOf [] then some [] else none
  | c :: text, needle =>
    if needle.isPrefixOf (c :: text) then some (c :: text) else strstr text needle

def skipSpace (input : Bytes) : Bytes := input.dropWhile isSpace

/-- The longest whitespace-free text at the front. -/
def word (input : Bytes) : Bytes := input.takeWhile (fun c => !isSpace c)

/-- The conversion `%s`. -/
def scanWord (input : Bytes) : Option (Bytes × Bytes) :=
  match word (skipSpace input) with
  | [] => none
  | found => some (found, (skipSpace input).drop found.length)

/-- The conversion `%<width>s`: a word longer than `width` is left for the next conversion. -/
def scanString (width : Nat) (input : Bytes) : Option (Bytes × Bytes) :=
  match (word (skipSpace input)).take width with
  | [] => none
  | found => some (found, (skipSpace input).drop found.length)

/-- Ordinary format text: white space matches any amount of white space, anything else itself. -/
def scanLiteral : Bytes → Bytes → Option Bytes
  | [], input => some input
  | c :: format, input =>
    if isSpace c then scanLiteral format (skipSpace input)
    else match input with
      | [] => none
      | d :: rest => if c = d then scanLiteral format rest else none

/-- The value of a digit string. -/
def digitsValue (digits : Bytes) : Nat :=
  digits.foldl (fun value c => 10 * value + (c.toNat - 48)) 0

/-- `LONG_MAX` of a 64-bit `long`. -/
def longMax : Int := 9223372036854775807

/-- `strtol` to a `long` (which saturates), then the conversion to a 32-bit `int`. -/
def toInt (negative : Bool) (magnitude : Nat) : Int :=
  let long : Int := if negative then max (-longMax - 1) (-(magnitude : Int)) else min longMax magnitude
  Int.bmod long UInt32.size

/-- The conversion `%d`. -/
def scanInt (input : Bytes) : Option (Int × Bytes) :=
  let (negative, unsigned) :=
    match skipSpace input with
    | 45 :: rest => (true, rest)
    | 43 :: rest => (false, rest)
    | rest => (false, rest)
  match unsigned.takeWhile isDigit with
  | [] => none
  | digits => some (toInt negative (digitsValue digits), unsigned.drop digits.length)

/-! ## Words and what delimits them -/

/-- A non-empty text without white space. -/
def IsWord (text : Bytes) : Prop := text ≠ [] ∧ ∀ c ∈ text, isSpace c = false

theorem spaceless_of_all {text : Bytes} (all : text.all (fun c => !isSpace c) = true) :
    ∀ c ∈ text, isSpace c = false := by
  simpa using all

instance (text : Bytes) : Decidable (IsWord text) :=
  decidable_of_iff (text ≠ [] ∧ text.all (fun c => !isSpace c) = true) (by simp [IsWord])

/-- Text before which a word ends: nothing, or text that starts with white space. -/
def Delimits : Bytes → Prop
  | [] => True
  | c :: _ => isSpace c = true

theorem Delimits.take {rest : Bytes} (delimits : Delimits rest) (n : Nat) :
    Delimits (rest.take n) := by
  cases rest with
  | nil => simpa using delimits
  | cons c rest =>
    cases n with
    | zero => exact trivial
    | succ n => exact delimits

theorem IsWord.drop {text : Bytes} {n : Nat} (isWord : IsWord text) (long : n < text.length) :
    IsWord (text.drop n) := by
  refine ⟨?_, fun c member => isWord.2 c (List.mem_of_mem_drop member)⟩
  intro empty
  have := List.drop_eq_nil_iff.mp empty
  omega

@[simp] theorem word_of_delimits {rest : Bytes} (delimits : Delimits rest) : word rest = [] := by
  cases rest with
  | nil => rfl
  | cons c rest => simp_all [word, Delimits]

theorem word_append {text rest : Bytes} (spaceless : ∀ c ∈ text, isSpace c = false)
    (delimits : Delimits rest) : word (text ++ rest) = text := by
  induction text with
  | nil => exact word_of_delimits delimits
  | cons c text inductionHypothesis =>
    have head := spaceless c (by simp)
    have tail := inductionHypothesis (fun d member => spaceless d (by simp [member]))
    simp only [word] at tail ⊢
    simp [head, tail]

theorem skipSpace_of_spaceless {text rest : Bytes} (isWord : IsWord text) :
    skipSpace (text ++ rest) = text ++ rest := by
  obtain ⟨nonempty, spaceless⟩ := isWord
  cases text with
  | nil => exact absurd rfl nonempty
  | cons c text => simp [skipSpace, spaceless c (by simp)]

theorem skipSpace_append {text : Bytes} (starts : skipSpace text ≠ []) (rest : Bytes) :
    skipSpace (text ++ rest) = skipSpace text ++ rest := by
  unfold skipSpace at starts ⊢
  rw [List.dropWhile_append, if_neg (by simpa using starts)]

/-- A word that ends inside a text is the same whatever follows the text. -/
theorem word_append_of_mem {text : Bytes} (ends : ∃ c ∈ text, isSpace c = true) (rest : Bytes) :
    word (text ++ rest) = word text := by
  induction text with
  | nil =>
    obtain ⟨c, member, -⟩ := ends
    cases member
  | cons c text inductionHypothesis =>
    cases space : isSpace c with
    | true => simp [word, space]
    | false =>
      obtain ⟨d, member, isEnd⟩ := ends
      have inside : d ∈ text := by
        rcases List.mem_cons.mp member with rfl | inside
        · rw [space] at isEnd
          cases isEnd
        · exact inside
      have tail := inductionHypothesis ⟨d, inside, isEnd⟩
      simp only [word] at tail ⊢
      simp [space, tail]

theorem word_of_isWord {text : Bytes} (isWord : IsWord text) : word text = text := by
  have ends : Delimits [] := trivial
  simpa using word_append isWord.2 ends

/-- What is left behind a word. -/
theorem delimits_dropWhile (input : Bytes) : Delimits (input.dropWhile (fun c => !isSpace c)) := by
  cases rest : input.dropWhile (fun c => !isSpace c) with
  | nil => trivial
  | cons c rest =>
    have head := List.head?_dropWhile_not (fun c => !isSpace c) input
    simpa [rest, Delimits] using head

theorem isWord_replicate {n : Nat} {c : UInt8} (positive : 0 < n) (visible : isSpace c = false) :
    IsWord (List.replicate n c) := by
  refine ⟨List.ne_nil_of_length_pos (by rw [List.length_replicate]; exact positive), fun d member => ?_⟩
  rw [List.eq_of_mem_replicate member]
  exact visible

theorem notMem_replicate {n : Nat} {c d : UInt8} (other : d ≠ c) : d ∉ List.replicate n c :=
  fun member => other (List.eq_of_mem_replicate member)

@[simp] theorem skipSpace_space (rest : Bytes) : skipSpace (32 :: rest) = skipSpace rest := by
  simp [skipSpace, isSpace]

/-- A word is read whole, up to the width. -/
theorem scanString_word {width : Nat} {text rest : Bytes} (positive : 0 < width)
    (isWord : IsWord text) (delimits : Delimits rest) :
    scanString width (text ++ rest) = some (text.take width, text.drop width ++ rest) := by
  have nonempty : text.take width ≠ [] := by
    simpa [List.take_eq_nil_iff, Nat.pos_iff_ne_zero.mp positive] using isWord.1
  have dropped : (text ++ rest).drop (text.take width).length = text.drop width ++ rest := by
    rw [List.length_take, List.drop_append, Nat.min_def]
    split
    · rename_i short
      simp [Nat.sub_eq_zero_of_le short]
    · rename_i long
      have long : text.length ≤ width := by omega
      simp [List.drop_eq_nil_of_le long]
  unfold scanString
  rw [skipSpace_of_spaceless isWord, word_append isWord.2 delimits]
  split
  · rename_i empty
    exact absurd empty nonempty
  · rw [dropped]

theorem scanWord_word {text rest : Bytes} (isWord : IsWord text) (delimits : Delimits rest) :
    scanWord (text ++ rest) = some (text, rest) := by
  unfold scanWord
  rw [skipSpace_of_spaceless isWord, word_append isWord.2 delimits]
  cases text with
  | nil => exact absurd rfl isWord.1
  | cons c text => simp

@[simp] theorem scanString_skipSpace (width : Nat) (input : Bytes) :
    scanString width (skipSpace input) = scanString width input := by
  have idempotent : skipSpace (skipSpace input) = skipSpace input :=
    List.dropWhile_idempotent isSpace input
  simp only [scanString, idempotent]

@[simp] theorem scanString_space (width : Nat) (input : Bytes) :
    scanString width (32 :: input) = scanString width input := by
  rw [← scanString_skipSpace, skipSpace_space, scanString_skipSpace]

theorem scanLiteral_append (format more input : Bytes) :
    scanLiteral (format ++ more) input = (scanLiteral format input).bind (scanLiteral more) := by
  induction format generalizing input with
  | nil => rfl
  | cons c format inductionHypothesis =>
    simp only [List.cons_append, scanLiteral]
    split
    · exact inductionHypothesis _
    · cases input with
      | nil => rfl
      | cons d input =>
        simp only
        split
        · exact inductionHypothesis _
        · rfl

@[simp] theorem scanLiteral_space (format input : Bytes) :
    scanLiteral (32 :: format) input = scanLiteral format (skipSpace input) := by
  cases input <;> rfl

theorem scanLiteral_self {format : Bytes} (spaceless : ∀ c ∈ format, isSpace c = false)
    (rest : Bytes) : scanLiteral format (format ++ rest) = some rest := by
  induction format with
  | nil => rfl
  | cons c format inductionHypothesis =>
    have head := spaceless c (by simp)
    have tail := inductionHypothesis (fun d member => spaceless d (by simp [member]))
    simp [scanLiteral, head, tail]

/-- Format text without white space matches exactly when the word before it starts with it. -/
theorem scanLiteral_word {format text rest : Bytes} (spaceless : ∀ c ∈ format, isSpace c = false)
    (delimits : Delimits rest) :
    scanLiteral format (text ++ rest) =
      if format.isPrefixOf text then some (text.drop format.length ++ rest) else none := by
  induction format generalizing text with
  | nil => simp [scanLiteral]
  | cons c format inductionHypothesis =>
    have head := spaceless c (by simp)
    have tail : ∀ d ∈ format, isSpace d = false := fun d member => spaceless d (by simp [member])
    cases text with
    | nil =>
      cases rest with
      | nil => simp [scanLiteral, head]
      | cons d rest =>
        have differ : c ≠ d := by
          rintro rfl
          simp only [Delimits] at delimits
          simp [head] at delimits
        simp [scanLiteral, head, differ]
    | cons d text =>
      by_cases same : c = d
      · subst same
        simp [scanLiteral, head, inductionHypothesis tail]
      · simp [scanLiteral, head, same]

/-- The number of bytes a `%s` conversion looks at before the one that ends its word. -/
def scanEnd (input : Bytes) : Nat :=
  (input.takeWhile isSpace).length + (word (skipSpace input)).length

/-- A cut behind the word does not change what is read. -/
theorem scanString_take {width n : Nat} {input : Bytes} (reaches : scanEnd input ≤ n) :
    (scanString width (input.take n)).map Prod.fst = (scanString width input).map Prod.fst := by
  unfold scanEnd at reaches
  have parts : input.takeWhile isSpace ++ skipSpace input = input := List.takeWhile_append_dropWhile
  have cut : input.take n = input.takeWhile isSpace ++
      (skipSpace input).take (n - (input.takeWhile isSpace).length) := by
    conv_lhs => rw [← parts, List.take_append, List.take_of_length_le (by omega)]
  have allSpace : ∀ c ∈ input.takeWhile isSpace, isSpace c = true :=
    fun c member => List.mem_takeWhile_imp member
  have idempotent : skipSpace (skipSpace input) = skipSpace input :=
    List.dropWhile_idempotent isSpace input
  have skipped : skipSpace (input.take n) =
      (skipSpace input).take (n - (input.takeWhile isSpace).length) := by
    rw [cut]
    unfold skipSpace at idempotent ⊢
    rw [List.dropWhile_append_of_pos allSpace]
    cases start : List.dropWhile isSpace input with
    | nil => simp
    | cons c tail =>
      have notSpace : ¬ isSpace c = true := by
        intro space
        have head := List.head?_dropWhile_not isSpace input
        simp [start, space] at head
      cases n - (input.takeWhile isSpace).length with
      | zero => rfl
      | succ m => simp [notSpace]
  have sameWord : word (skipSpace (input.take n)) = word (skipSpace input) := by
    rw [skipped, word, ← List.take_takeWhile, List.take_of_length_le]
    · rfl
    · exact Nat.le_sub_of_add_le' reaches
  unfold scanString
  rw [sameWord]
  split <;> rfl

/-! ## First occurrences -/

theorem strstr_isSome_isPrefixOf {text needle found : Bytes} (occurs : strstr text needle = some found) :
    needle.isPrefixOf found = true ∧ found.length ≤ text.length := by
  induction text with
  | nil =>
    simp only [strstr] at occurs
    split at occurs
    · cases occurs
      exact ⟨‹_›, Nat.le_refl _⟩
    · cases occurs
  | cons c text inductionHypothesis =>
    simp only [strstr] at occurs
    split at occurs
    · cases occurs
      exact ⟨‹_›, Nat.le_refl _⟩
    · obtain ⟨starts, shorter⟩ := inductionHypothesis occurs
      exact ⟨starts, Nat.le_succ_of_le shorter⟩

/-- A cut behind the first occurrence keeps it the first occurrence. -/
theorem strstr_take {text needle found : Bytes} {n : Nat} (occurs : strstr text needle = some found)
    (reaches : text.length - found.length + needle.length ≤ n) :
    strstr (text.take n) needle = some (found.take (n - (text.length - found.length))) := by
  induction text generalizing n with
  | nil =>
    simp only [strstr] at occurs
    split at occurs
    · cases occurs
      simp [strstr, *]
    · cases occurs
  | cons c text inductionHypothesis =>
    simp only [strstr] at occurs
    split at occurs
    · rename_i starts
      cases occurs
      simp only [Nat.sub_self, Nat.zero_add, Nat.sub_zero] at reaches ⊢
      have kept : needle.isPrefixOf ((c :: text).take n) = true := by
        rw [List.isPrefixOf_iff_prefix] at starts ⊢
        exact List.prefix_take_iff.mpr ⟨starts, reaches⟩
      cases cut : (c :: text).take n with
      | nil => rw [cut] at kept; simp [strstr, kept]
      | cons d cutText => rw [cut] at kept; simp [strstr, kept]
    · rename_i absent
      obtain ⟨starts, shorter⟩ := strstr_isSome_isPrefixOf occurs
      have offset : (c :: text).length - found.length = text.length - found.length + 1 := by
        simp only [List.length_cons]; omega
      rw [offset] at reaches ⊢
      cases n with
      | zero => omega
      | succ n =>
        have absentCut : ¬ needle.isPrefixOf (c :: text.take n) = true := by
          rw [List.isPrefixOf_iff_prefix] at absent ⊢
          exact fun starts => absent (starts.trans (by simpa using List.take_prefix (n + 1) (c :: text)))
        rw [List.take_succ_cons, strstr, if_neg absentCut, inductionHypothesis occurs (by omega)]
        congr 2
        omega

theorem strstr_take_none {text needle : Bytes} (absent : strstr text needle = none) (n : Nat) :
    strstr (text.take n) needle = none := by
  induction text generalizing n with
  | nil => simpa using absent
  | cons c text inductionHypothesis =>
    simp only [strstr] at absent
    split at absent
    · cases absent
    · rename_i notHere
      cases n with
      | zero =>
        have nonempty : ¬ needle.isPrefixOf [] = true := by
          cases needle with
          | nil => simp at notHere
          | cons d needle => simp
        simp [strstr, nonempty]
      | succ n =>
        have notHereCut : ¬ needle.isPrefixOf (c :: text.take n) = true := by
          rw [List.isPrefixOf_iff_prefix] at notHere ⊢
          exact fun starts =>
            notHere (starts.trans (by simpa using List.take_prefix (n + 1) (c :: text)))
        rw [List.take_succ_cons, strstr, if_neg notHereCut]
        exact inductionHypothesis absent n

/-! ## Separators -/

theorem all_ne_of_notMem {text : Bytes} {c : UInt8} (absent : c ∉ text) :
    ∀ d ∈ text, (d != c) = true := by
  intro d member
  simpa using fun same : d = c => absent (same ▸ member)

theorem cstr_append_of_nul_free {text : Bytes} (nulFree : (0 : UInt8) ∉ text) (rest : Bytes) :
    cstr (text ++ rest) = text ++ cstr rest :=
  List.takeWhile_append_of_pos (all_ne_of_notMem nulFree)

theorem cstr_nul_free (memory : Bytes) : (0 : UInt8) ∉ cstr memory := by
  intro member
  simpa using List.mem_takeWhile_imp member

theorem cstr_length_le (memory : Bytes) : (cstr memory).length ≤ memory.length :=
  (List.takeWhile_prefix _).length_le

theorem cutAt_append {text : Bytes} {c : UInt8} (absent : c ∉ text) (rest : Bytes) :
    cutAt (text ++ c :: rest) c = text := by
  unfold cutAt
  rw [List.takeWhile_append_of_pos (all_ne_of_notMem absent), List.takeWhile_cons_of_neg (by simp),
    List.append_nil]

theorem cutAt_of_notMem {text : Bytes} {c : UInt8} (absent : c ∉ text) : cutAt text c = text := by
  unfold cutAt
  rw [List.takeWhile_eq_self_iff]
  exact all_ne_of_notMem absent

theorem strchr_append {text : Bytes} {c : UInt8} (absent : c ∉ text) (rest : Bytes) :
    strchr (text ++ c :: rest) c = some (c :: rest) := by
  unfold strchr
  rw [List.dropWhile_append_of_pos (all_ne_of_notMem absent), List.dropWhile_cons_of_neg (by simp)]

theorem strchr_of_notMem {text : Bytes} {c : UInt8} (absent : c ∉ text) : strchr text c = none := by
  have all : text.dropWhile (· != c) = [] := by
    rw [List.dropWhile_eq_nil_iff]
    exact all_ne_of_notMem absent
  unfold strchr
  rw [all]

/-- The suffix at a byte of the text. -/
theorem strchr_eq_some {text : Bytes} {c : UInt8} (member : c ∈ text) :
    strchr text c = some (c :: text.drop ((cutAt text c).length + 1)) := by
  obtain ⟨before, after, rfl, absent⟩ := List.eq_append_cons_of_mem member
  rw [strchr_append absent, cutAt_append absent]
  simp

theorem strchr_of_mem {text : Bytes} {c : UInt8} (member : c ∈ text) :
    ∃ found, strchr text c = some found := ⟨_, strchr_eq_some member⟩

theorem mem_of_strchr {text found : Bytes} {c : UInt8} (search : strchr text c = some found) : c ∈ text := by
  by_contra absent
  rw [strchr_of_notMem absent] at search
  cases search

theorem notMem_of_strchr {text : Bytes} {c : UInt8} (search : strchr text c = none) : c ∉ text := by
  intro member
  rw [strchr_eq_some member] at search
  cases search

theorem cutAt_delimited {text rest : Bytes} {c : UInt8} (absent : c ∉ text)
    (delimited : rest = [] ∨ rest.head? = some c) : cutAt (text ++ rest) c = text := by
  cases rest with
  | nil => rw [List.append_nil, cutAt_of_notMem absent]
  | cons d rest =>
    have starts : d = c := by simpa using delimited
    rw [starts, cutAt_append absent]

theorem cutAt_of_strchr {text : Bytes} {c : UInt8} (absent : strchr text c = none) :
    cutAt text c = text := cutAt_of_notMem (notMem_of_strchr absent)

theorem cutAt_length_lt {text found : Bytes} {c : UInt8} (search : strchr text c = some found) :
    (cutAt text c).length < text.length := by
  obtain ⟨before, after, rfl, absent⟩ := List.eq_append_cons_of_mem (mem_of_strchr search)
  rw [cutAt_append absent, List.length_append, List.length_cons]
  omega

theorem cutAtLast_append {rest : Bytes} {c : UInt8} (text : Bytes) (absent : c ∉ rest) :
    cutAtLast (text ++ c :: rest) c = text := by
  have others : ∀ d ∈ rest.reverse, (d != c) = true :=
    all_ne_of_notMem (fun member => absent (List.mem_reverse.mp member))
  unfold cutAtLast
  rw [if_pos (by simp), List.reverse_append, List.reverse_cons, List.append_assoc,
    List.dropWhile_append_of_pos others]
  simp

theorem pieces_of_notMem {text : Bytes} {separator : UInt8} (absent : separator ∉ text) :
    pieces separator text = [text] := by
  induction text with
  | nil => rfl
  | cons c text inductionHypothesis =>
    have other : ¬ c = separator := fun same => absent (same ▸ List.mem_cons_self)
    have tail := inductionHypothesis (fun member => absent (List.mem_cons_of_mem _ member))
    simp only [pieces, if_neg other, tail]

theorem pieces_append {text : Bytes} {separator : UInt8} (absent : separator ∉ text) (rest : Bytes) :
    pieces separator (text ++ separator :: rest) = text :: pieces separator rest := by
  induction text with
  | nil => simp [pieces]
  | cons c text inductionHypothesis =>
    have other : ¬ c = separator := fun same => absent (same ▸ List.mem_cons_self)
    have tail := inductionHypothesis (fun member => absent (List.mem_cons_of_mem _ member))
    simp only [List.cons_append, pieces, if_neg other, tail]

theorem pieces_ne_nil (separator : UInt8) (text : Bytes) : pieces separator text ≠ [] := by
  cases text with
  | nil => simp [pieces]
  | cons c text =>
    simp only [pieces]
    split
    · exact List.cons_ne_nil _ _
    · split <;> exact List.cons_ne_nil _ _

theorem getlines_append {line : Bytes} (absent : 10 ∉ line) (rest : Bytes) :
    getlines (line ++ 10 :: rest) = (line ++ [10]) :: getlines rest := by
  induction line with
  | nil => simp [getlines]
  | cons c line inductionHypothesis =>
    have other : ¬ c = 10 := fun same => absent (same ▸ List.mem_cons_self)
    have tail := inductionHypothesis (fun member => absent (List.mem_cons_of_mem _ member))
    simp only [List.cons_append, getlines, if_neg other, tail]

/-- A last line without its newline. -/
theorem getlines_of_notMem {line : Bytes} (nonempty : line ≠ []) (absent : 10 ∉ line) :
    getlines line = [line] := by
  induction line with
  | nil => exact absurd rfl nonempty
  | cons c line inductionHypothesis =>
    have other : ¬ c = 10 := fun same => absent (same ▸ List.mem_cons_self)
    cases line with
    | nil => simp only [getlines, if_neg other]
    | cons d line =>
      have tail := inductionHypothesis (by simp) (fun member => absent (List.mem_cons_of_mem _ member))
      rw [getlines, if_neg other, tail]

theorem getlines_ne_nil {text : Bytes} (nonempty : text ≠ []) : getlines text ≠ [] := by
  cases text with
  | nil => exact absurd rfl nonempty
  | cons c text =>
    simp only [getlines]
    split
    · exact List.cons_ne_nil _ _
    · split <;> exact List.cons_ne_nil _ _

/-- Text without a newline is the front of the next line. -/
theorem getlines_append_length {text rest : Bytes} (absent : 10 ∉ text) (more : rest ≠ []) :
    (getlines (text ++ rest)).length = (getlines rest).length := by
  induction text with
  | nil => rfl
  | cons c text inductionHypothesis =>
    have other : ¬ c = 10 := fun same => absent (same ▸ List.mem_cons_self)
    have tail := inductionHypothesis (fun member => absent (List.mem_cons_of_mem _ member))
    have some := getlines_ne_nil (List.append_ne_nil_of_right_ne_nil text more)
    rw [List.cons_append, getlines, if_neg other]
    cases lines : getlines (text ++ rest) with
    | nil => exact absurd lines some
    | cons line lines' =>
      rw [lines] at tail
      exact tail

/-- The lines in front of another one are those of the text that ends there. -/
theorem getlines_flatten {text line : Bytes} {before after : List Bytes}
    (split : getlines text = before ++ line :: after) : getlines before.flatten = before := by
  induction before generalizing text with
  | nil => rfl
  | cons first before inductionHypothesis =>
    by_cases newline : (10 : UInt8) ∈ text
    · obtain ⟨front, rest, rfl, absent⟩ := List.eq_append_cons_of_mem newline
      rw [getlines_append absent, List.cons_append, List.cons.injEq] at split
      obtain ⟨rfl, others⟩ := split
      have whole : ((front ++ [10]) :: before).flatten = front ++ 10 :: before.flatten := by simp
      rw [whole, getlines_append absent, inductionHypothesis others]
    · cases text with
      | nil => cases split
      | cons c text =>
        rw [getlines_of_notMem (List.cons_ne_nil c text) newline] at split
        simp at split

/-! ## Padding -/

def IsPadding (text : Bytes) : Prop := ∀ c ∈ text, isSpace c = true

theorem IsPadding.delimits {text : Bytes} (padding : IsPadding text) : Delimits text := by
  cases text with
  | nil => trivial
  | cons c text => exact padding c List.mem_cons_self

theorem IsPadding.append {text more : Bytes} (padding : IsPadding text) (others : IsPadding more) :
    IsPadding (text ++ more) := by
  intro c member
  rcases List.mem_append.mp member with first | second
  · exact padding c first
  · exact others c second

theorem IsPadding.notMem {text : Bytes} {c : UInt8} (padding : IsPadding text)
    (visible : isSpace c = false) : c ∉ text := by
  intro member
  rw [padding c member] at visible
  cases visible

theorem skipSpace_padding {text : Bytes} (padding : IsPadding text) (rest : Bytes) :
    skipSpace (text ++ rest) = skipSpace rest := List.dropWhile_append_of_pos padding

theorem scanWord_padding {text : Bytes} (padding : IsPadding text) : scanWord text = none := by
  have skipped : skipSpace text = [] := List.dropWhile_eq_nil_iff.mpr padding
  simp [scanWord, skipped, word]

/-- The word in a padded text. -/
theorem scanWord_padded {before text after : Bytes} (leading : IsPadding before)
    (isWord : IsWord text) (trailing : IsPadding after) :
    scanWord (before ++ text ++ after) = some (text, after) := by
  have skipped : skipSpace (before ++ text ++ after) = skipSpace (text ++ after) := by
    rw [List.append_assoc, skipSpace_padding leading]
  rw [← scanWord_word isWord trailing.delimits, scanWord, skipped, scanWord,
    skipSpace_of_spaceless isWord]

end NermalProxy.CString
