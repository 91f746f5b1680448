import NermalProxy.Library.Buffer
import NermalProxy.ProxyRequest

/-! # The buffers of the detector

`asyncDetector` scans the 4096 bytes it reads into with string functions, and stores the
words it finds in two buffers of 1024 bytes.  The conversion `%1024s` leaves no place
for the NUL, and the read no place behind a full buffer. -/

namespace NermalProxy.Detector

open NermalProxy.CString NermalProxy.Buffer

/-- The arrays of `asyncDetector`. -/
inductive Local
  | buf
  | mode
  | url
  deriving DecidableEq, Repr

def localSize : Local → Nat
  | .buf => requestBufferSize
  | .mode => 1024
  | .url => 1024

/-- What a `%1024s` stores. -/
def wordAccesses (buffer : Local) : Option (Bytes × Bytes) → List (Access Local)
  | none => []
  | some (found, _) => string buffer found.length

/-- The first `sscanf`, which reads `buf` up to its NUL. -/
def requestLineAccesses (text : Bytes) : List (Access Local) :=
  string .buf text.length ++
    match scanString 1024 text with
    | none => []
    | some (mode, rest) =>
      string .mode mode.length ++ wordAccesses .url (scanString 1024 rest)

/-- The second `sscanf`. -/
def originUrlAccesses (text : Bytes) : List (Access Local) :=
  string .buf text.length ++
    match scanOriginUrl text with
    | none => []
    | some url => string .url url.length

/-- The NUL that is stored over the first `c` of `url`. -/
def cutAccesses (url : Bytes) (c : UInt8) : List (Access Local) :=
  match strchr url c with
  | some _ => [⟨.url, (cutAt url c).length⟩]
  | none => []

/-- The parse of the buffer's text. -/
def detectAccesses (text : Bytes) : List (Access Local) :=
  let (mode, url) := scanRequestLine text
  requestLineAccesses text ++
    if !isTransparent mode then cutAccesses url 58
    else
      originUrlAccesses text ++
        match scanOriginUrl text with
        -- the log line that says why the request is refused
        | none => string .buf text.length
        | some url => cutAccesses url 47

/-- Everything `asyncDetector` does with its arrays when `::read` delivers `data`. -/
def accesses (data beyond : Bytes) : List (Access Local) :=
  let text := requestBuffer data beyond
  fill .buf requestBufferSize ++ fill .buf data.length ++ fill .url 1024 ++ fill .mode 1024 ++
    detectAccesses text ++ string .buf text.length

/-- Whatever the memory behind the buffer holds. -/
def StaysInside (data : Bytes) : Prop := ∀ beyond, Inside localSize (accesses data beyond)

theorem inside_wordAccesses {buffer : Local} (sized : localSize buffer = 1024) (input : Bytes) :
    Inside localSize (wordAccesses buffer (scanString 1024 input)) ↔ (firstWord input).length < 1024 := by
  rw [scanString_eq]
  by_cases empty : (firstWord input).take 1024 = []
  · rw [if_pos empty, take_width_eq_nil.mp empty]
    simp [wordAccesses]
  · rw [if_neg empty, wordAccesses, inside_string, sized, List.length_take]
    omega

theorem inside_requestLineAccesses (text : Bytes) :
    Inside localSize (requestLineAccesses text) ↔
      text.length < requestBufferSize ∧ (method text).length < 1024 ∧ (target text).length < 1024 := by
  rw [requestLineAccesses, inside_append, inside_string, scanString_eq]
  refine and_congr Iff.rfl ?_
  by_cases empty : (firstWord text).take 1024 = []
  · have missing : method text = [] := take_width_eq_nil.mp empty
    simp [empty, missing, method_nil_target missing]
  · rw [if_neg empty, inside_append, inside_string, List.length_take, inside_wordAccesses rfl]
    by_cases fits : (firstWord text).length < 1024
    · rw [Nat.min_eq_right fits.le]
      simp only [method, target, behindWord, fits, true_and, localSize]
    · have outside : ¬ min 1024 (firstWord text).length < localSize .mode := by
        simp only [localSize]
        omega
      simp only [method, fits, outside, false_and]

theorem inside_cutAccesses {url : Bytes} (short : url.length ≤ 1024) (c : UInt8) :
    Inside localSize (cutAccesses url c) := by
  unfold cutAccesses
  cases search : strchr url c with
  | none => exact inside_nil
  | some found =>
    have earlier := cutAt_length_lt search
    rw [inside_singleton]
    exact Nat.lt_of_lt_of_le earlier short

theorem urlWord_length_le (method target : Bytes) : (urlWord method target).length ≤ 1024 := by
  unfold urlWord
  split <;> exact List.length_take_le _ _

theorem inside_originUrlAccesses (text : Bytes) :
    Inside localSize (originUrlAccesses text) ↔
      text.length < requestBufferSize ∧ (HasOrigin text → (originWord text).length < 1024) := by
  rw [originUrlAccesses, inside_append, inside_string, scanOriginUrl_eq]
  refine and_congr Iff.rfl ?_
  by_cases origin : HasOrigin text
  · have named : scheme.isPrefixOf (target text) = true ∧ originWord text ≠ [] := origin
    simp only [if_pos named, inside_string, List.length_take, origin, true_imp_iff, localSize]
    omega
  · have unnamed : ¬ (scheme.isPrefixOf (target text) = true ∧ originWord text ≠ []) := origin
    simp only [if_neg unnamed, inside_nil, origin, false_imp_iff]

/-- Behind a target that fits, only a bare scheme can be followed by a word that does not. -/
theorem origin_fits_iff {text : Bytes} (fits : (target text).length < 1024) :
    (HasOrigin text → (originWord text).length < 1024) ↔
      (target text = scheme → (firstWord (behindTarget text)).length < 1024) := by
  unfold HasOrigin originWord
  by_cases bare : target text = scheme
  · simp only [bare, if_true, true_imp_iff]
    constructor
    · intro bound
      by_cases missing : firstWord (behindTarget text) = []
      · rw [missing]
        decide
      · exact bound ⟨by decide, missing⟩
    · exact fun bound _ => bound
  · have shorter : ((target text).drop 7).length < 1024 := by
      rw [List.length_drop]
      omega
    simp only [bare, if_false, shorter, implies_true, false_imp_iff]

theorem inside_detectAccesses (text : Bytes) :
    Inside localSize (detectAccesses text) ↔ text.length < requestBufferSize ∧ WordsFit text := by
  simp only [detectAccesses, scanRequestLine_eq, isTransparent_take, inside_append,
    inside_requestLineAccesses, wordsFit_iff]
  cases transparent : isTransparent (method text) with
  | false =>
    have cut := inside_cutAccesses (urlWord_length_le (method text) (target text)) 58
    simp [cut]
  | true =>
    have last : text.length < requestBufferSize → Inside localSize
        (match scanOriginUrl text with
          | none => string .buf text.length
          | some url => cutAccesses url 47) := by
      intro short
      cases scanned : scanOriginUrl text with
      | none => exact inside_string.mpr short
      | some url =>
        rw [scanOriginUrl_eq] at scanned
        split at scanned
        · cases scanned
          exact inside_cutAccesses (List.length_take_le _ _) 47
        · cases scanned
    simp only [Bool.not_true, Bool.false_eq_true, if_false, inside_append, inside_originUrlAccesses,
      true_imp_iff]
    constructor
    · rintro ⟨⟨short, first, second⟩, ⟨-, origin⟩, -⟩
      exact ⟨short, first, second, (origin_fits_iff second).mp origin⟩
    · rintro ⟨short, first, second, third⟩
      exact ⟨⟨short, first, second⟩, ⟨short, (origin_fits_iff second).mpr third⟩, last short⟩

/-- The arrays are zeroed, and the read delivers no more than it was asked for. -/
theorem inside_accesses {data : Bytes} (delivered : data.length ≤ requestBufferSize) (beyond : Bytes) :
    Inside localSize (accesses data beyond) ↔
      (requestBuffer data beyond).length < requestBufferSize ∧ WordsFit (requestBuffer data beyond) := by
  have zeroed : Inside localSize (fill Local.buf requestBufferSize ++ fill .buf data.length ++
      fill .url 1024 ++ fill .mode 1024) := by
    simp only [inside_append, inside_fill]
    exact ⟨⟨⟨Nat.le_refl _, delivered⟩, Nat.le_refl _⟩, Nat.le_refl _⟩
  simp only [accesses]
  rw [inside_append, inside_append, inside_detectAccesses, inside_string]
  constructor
  · exact fun inside => inside.1.2
  · exact fun inside => ⟨⟨zeroed, inside⟩, inside.1⟩

theorem closed_length_lt {data : Bytes} (delivered : data.length ≤ requestBufferSize)
    (closed : Closed data) : (cstr data).length < requestBufferSize := by
  rcases closed with short | nul
  · exact Nat.lt_of_le_of_lt (cstr_length_le data) short
  · obtain ⟨before, after, rfl, absent⟩ := List.eq_append_cons_of_mem nul
    rw [List.length_append, List.length_cons] at delivered
    have cut : cstr (before ++ 0 :: after) = before := by
      rw [cstr_append_of_nul_free absent]
      simp [cstr]
    rw [cut]
    omega

/-- The detector stays inside its arrays exactly if the read leaves a NUL in the buffer and each word
that is scanned out of the text before it is shorter than the array that it goes to. -/
theorem staysInside_iff {data : Bytes} (delivered : data.length ≤ requestBufferSize) :
    StaysInside data ↔ Closed data ∧ WordsFit (cstr data) := by
  simp only [StaysInside, inside_accesses delivered]
  by_cases closed : Closed data
  · have short := closed_length_lt delivered closed
    simp only [requestBuffer_closed closed, short, closed, true_and, forall_const]
  · simp only [closed, false_and, iff_false]
    intro inside
    have short := (inside []).1
    rw [requestBuffer_full closed, List.length_append] at short
    simp only [Closed, not_or, Nat.not_lt] at closed
    omega

theorem staysInside_line : StaysInside (bytes "GET http://example.com/ HTTP/1.1\r\n\r\n") :=
  (staysInside_iff (by decide)).mpr ⟨.inl (by decide), by decide, by decide, fun _ bare => by
    exact absurd bare (by decide)⟩

/-- A word that fills the array is stored with its NUL behind the array. -/
theorem outside_of_full_word {word : Bytes} (isWord : IsWord word) (nulFree : (0 : UInt8) ∉ word)
    (full : word.length = 1024) : ¬ StaysInside word := by
  have short : word.length < requestBufferSize := by
    rw [full]
    decide
  intro stays
  have inside := stays []
  rw [inside_accesses short.le, requestBuffer_eq nulFree short] at inside
  have fits := inside.2.method
  rw [method, firstWord_of_isWord isWord, full] at fits
  exact absurd fits (by decide)

/-- A first word of 1024 bytes. -/
theorem terminator_outside :
    ¬ ∀ data : Bytes, data ≠ [] → data.length ≤ requestBufferSize → StaysInside data := by
  intro claim
  have full : (List.replicate 1024 (65 : UInt8)).length = 1024 := List.length_replicate
  have isWord : IsWord (List.replicate 1024 (65 : UInt8)) := isWord_replicate (by decide) rfl
  refine outside_of_full_word isWord (notMem_replicate (by decide)) full (claim _ isWord.1 ?_)
  rw [full]
  decide

end NermalProxy.Detector
