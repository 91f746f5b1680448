import NermalProxy.Authentication
import NermalProxy.Credentials
import NermalProxy.RequestBuffers

/-! # The buffers of the credentials

The word behind `Proxy-Authorization: Basic ` goes into an array of 1024 bytes, what it
decodes to into a block that is allocated for it, and the two words of that into arrays
of 128 bytes, without a width. -/

namespace NermalProxy.Credentials

open NermalProxy.CString NermalProxy.Buffer NermalProxy.AuthManager

/-- The arrays of `HandleCommandSocketRead` and `Authenticate`, and the block of `Base64Decode`. -/
inductive Memory
  | rawCreds
  | block (size : Nat)
  | user
  | pass
  deriving DecidableEq, Repr

def memorySize : Memory → Nat
  | .rawCreds => 1024
  | .block size => size
  | .user => 128
  | .pass => 128

/-- `size + 3`, which `new` and `memset` are called with. -/
def blockSize (source : Bytes) : Nat := (source.length * 3 + 3) / 4 + 3

/-- The loop of `Base64Decode`: three bytes for every fourth character. -/
def base64Stores (size : Nat) : (idx dst : Nat) → Bytes → List (Access Memory)
  | _, _, [] => []
  | idx, dst, c :: source =>
    if c ≠ 61 ∧ base64Value c = none then []
    else if (idx + 1) % 4 = 0 then
      fillFrom (.block size) dst 3 ++ base64Stores size (idx + 1) (dst + 3) source
    else base64Stores size (idx + 1) dst source

def base64Accesses (source : Bytes) : List (Access Memory) :=
  fill (.block (blockSize source)) (blockSize source) ++
    base64Stores (blockSize source) 0 0 (cstr source)

/-- The blank that is stored over the first colon. -/
def colonAccesses (size : Nat) (credString : Bytes) : List (Access Memory) :=
  match strchr credString 58 with
  | some _ => [⟨.block size, (cutAt credString 58).length⟩]
  | none => []

/-- `sscanf(credString, "%s %s", user, pass)`. -/
def userPassAccesses (credString : Bytes) : List (Access Memory) :=
  match scanWord credString with
  | none => []
  | some (user, rest) =>
    string .user user.length ++
      match scanWord rest with
      | none => []
      | some (pass, _) => string .pass pass.length

/-- What `Authenticate` stores. -/
def authenticateAccesses (base64Creds : Bytes) : List (Access Memory) :=
  base64Accesses base64Creds ++
    match base64Decode base64Creds with
    | none => []
    | some decoded =>
      fill .user 128 ++ fill .pass 128 ++ colonAccesses (blockSize base64Creds) (cstr decoded) ++
        userPassAccesses (blankColon (cstr decoded))

/-- What is stored for the credentials of a request, where authentication is enabled. -/
def accesses (request : Bytes) : List (Access Memory) :=
  match authorization (cstr request) with
  | none => []
  | some scanned =>
    fill .rawCreds 1024 ++
      match scanned with
      | none => []
      | some rawCreds => string .rawCreds rawCreds.length ++ authenticateAccesses rawCreds

def StaysInside (request : Bytes) : Prop := Inside memorySize (accesses request)

/-- The word behind the header text. -/
def credentialWord (request : Bytes) : Bytes :=
  match strstr (cstr request) authHeader with
  | none => []
  | some authString => firstWord (authString.drop authHeader.length)

/-! ## The block -/

/-- Three bytes for four characters, those of a group that has been begun among them. -/
theorem inside_base64Stores {size idx dst : Nat} {source : Bytes}
    (room : dst + 3 * ((idx % 4 + source.length) / 4) ≤ size) :
    Inside memorySize (base64Stores size idx dst source) := by
  induction source generalizing idx dst with
  | nil => exact inside_nil
  | cons c source inductionHypothesis =>
    rw [List.length_cons] at room
    rw [base64Stores]
    split
    · exact inside_nil
    · split
      · rename_i closes
        rw [inside_append]
        refine ⟨inside_fillFrom ?_, inductionHypothesis ?_⟩
        · simp only [memorySize]
          omega
        · omega
      · rename_i inside
        exact inductionHypothesis (by omega)

/-- The stores of a loop that reaches the end are those of the decoded bytes. -/
theorem base64Stores_of_decoded {idx dst : Nat} {tmp : UInt32} {source stored : Bytes} (size : Nat)
    (decoded : base64Loop idx tmp source = some stored) :
    base64Stores size idx dst source = fillFrom (.block size) dst stored.length := by
  induction source generalizing idx dst tmp stored with
  | nil =>
    simp only [base64Loop] at decoded
    split at decoded
    · cases decoded
    · cases decoded
      rfl
  | cons c source inductionHypothesis =>
    simp only [base64Loop] at decoded
    split at decoded
    · cases decoded
    · rename_i accumulator taken
      have accepted : ¬ (c ≠ 61 ∧ base64Value c = none) := by
        rintro ⟨visible, unknown⟩
        rw [if_pos visible, unknown] at taken
        cases taken
      rw [base64Stores, if_neg accepted]
      split at decoded
      · rename_i closes
        obtain ⟨rest, loop, rfl⟩ := Option.map_eq_some_iff.mp decoded
        rw [if_pos closes, inductionHypothesis loop, ← fillFrom_append]
        simp only [List.length_cons]
        congr 1
        omega
      · rename_i inside
        rw [if_neg inside, inductionHypothesis decoded]

theorem base64Decode_length_le {source decoded : Bytes} (isDecoded : base64Decode source = some decoded) :
    decoded.length ≤ 3 * (source.length / 4) := by
  have shorter := cstr_length_le source
  have stores : base64Stores (3 * (source.length / 4)) 0 0 (cstr source) =
      fillFrom (.block (3 * (source.length / 4))) 0 decoded.length :=
    base64Stores_of_decoded _ isDecoded
  have inside : Inside memorySize (base64Stores (3 * (source.length / 4)) 0 0 (cstr source)) :=
    inside_base64Stores (by omega)
  rw [stores] at inside
  have bound : decoded.length ≤ memorySize (.block (3 * (source.length / 4))) := inside_fill.mp inside
  exact bound

theorem inside_base64Accesses (source : Bytes) : Inside memorySize (base64Accesses source) := by
  have shorter := cstr_length_le source
  rw [base64Accesses, inside_append, inside_fill]
  refine ⟨Nat.le_refl _, inside_base64Stores ?_⟩
  unfold blockSize
  omega

theorem inside_colonAccesses {source decoded : Bytes} (isDecoded : base64Decode source = some decoded) :
    Inside memorySize (colonAccesses (blockSize source) (cstr decoded)) := by
  have bound := base64Decode_length_le isDecoded
  have shorter := cstr_length_le decoded
  unfold colonAccesses
  cases search : strchr (cstr decoded) 58 with
  | none => exact inside_nil
  | some found =>
    have earlier := cutAt_length_lt search
    rw [inside_singleton]
    simp only [memorySize, blockSize]
    omega

/-! ## The words -/

theorem inside_userPassAccesses (credString : Bytes) :
    Inside memorySize (userPassAccesses credString) ↔ NamesFit credString := by
  unfold userPassAccesses NamesFit
  rw [scanWord_eq]
  by_cases first : firstWord credString = []
  · rw [if_pos first, first, behindWord_of_empty first]
    simp
  · rw [if_neg first]
    simp only [inside_append, inside_string, memorySize, scanWord_eq]
    by_cases second : firstWord (behindWord credString) = []
    · simp [second]
    · simp [second, memorySize]

theorem inside_authenticateAccesses (base64Creds : Bytes) :
    Inside memorySize (authenticateAccesses base64Creds) ↔
      ∀ decoded, base64Decode base64Creds = some decoded → NamesFit (blankColon (cstr decoded)) := by
  unfold authenticateAccesses
  cases isDecoded : base64Decode base64Creds with
  | none => simp [inside_base64Accesses]
  | some decoded =>
    simp only [inside_append, inside_base64Accesses, inside_fill, inside_colonAccesses isDecoded,
      inside_userPassAccesses, memorySize, Nat.le_refl, true_and, Option.some.injEq, forall_eq']

theorem credentialsFit_nil : CredentialsFit [] := by
  refine ⟨by decide, fun decoded isDecoded => ?_⟩
  cases isDecoded
  exact ⟨by decide, by decide⟩

theorem inside_accesses_of_header {request rest : Bytes}
    (occurs : strstr (cstr request) authHeader = some (authHeader ++ rest)) :
    Inside memorySize (accesses request) ↔ CredentialsFit (firstWord rest) := by
  rw [accesses, authorization, occurs, Option.map_some, scanCredentials_append, scanString_eq]
  by_cases empty : (firstWord rest).take 1024 = []
  · rw [if_pos empty, Detector.take_width_eq_nil.mp empty]
    simp only [Option.map_none, List.append_nil, inside_fill]
    exact ⟨fun _ => credentialsFit_nil, fun _ => Nat.le_refl _⟩
  · rw [if_neg empty]
    simp only [Option.map_some, inside_append, inside_fill, inside_string, memorySize, Nat.le_refl,
      true_and, List.length_take, inside_authenticateAccesses, CredentialsFit]
    by_cases fits : (firstWord rest).length < 1024
    · rw [List.take_of_length_le fits.le, Nat.min_eq_right fits.le]
    · have outside : ¬ min 1024 (firstWord rest).length < 1024 := by omega
      simp only [fits, outside, false_and]

/-- The credentials stay inside their buffers exactly if the word behind the header is shorter than
its array and each word of what it decodes to is shorter than the array that it goes to. -/
theorem staysInside_iff_credentialsFit (request : Bytes) :
    StaysInside request ↔ CredentialsFit (credentialWord request) := by
  unfold StaysInside credentialWord
  cases occurs : strstr (cstr request) authHeader with
  | none =>
    have nothing : accesses request = [] := by simp [accesses, authorization, occurs]
    rw [nothing]
    exact ⟨fun _ => credentialsFit_nil, fun _ => inside_nil⟩
  | some authString =>
    obtain ⟨rest, rfl⟩ := authString_split occurs
    simp only [List.drop_left]
    exact inside_accesses_of_header occurs

/-- The request line of a tunnel, and a name that is encoded without a password. -/
def namedRequest (name : Bytes) : Bytes :=
  bytes "CONNECT a:1\r\n" ++ (authHeader ++ Base64.encode name)

theorem namedRequest_nul_free (name : Bytes) : (0 : UInt8) ∉ namedRequest name := by
  simp only [namedRequest, List.mem_append, not_or]
  exact ⟨by decide, by decide, Base64.nul_notMem_encode name⟩

theorem isWord_encode {name : Bytes} (nonempty : name ≠ []) : IsWord (Base64.encode name) := by
  refine ⟨fun empty => nonempty ?_, Base64.forall_mem_encode (by decide) (by decide) name⟩
  have length := Base64.length_encode name
  rw [empty, List.length_nil] at length
  exact List.length_eq_zero_iff.mp (by omega)

/-- A name that fills its array is stored with its NUL behind the array. -/
theorem outside_of_full_name {name : Bytes} (isWord : IsWord name) (nulFree : (0 : UInt8) ∉ name)
    (colonFree : (58 : UInt8) ∉ name) (full : name.length = 128) :
    ¬ StaysInside (namedRequest name) := by
  have occurs : strstr (cstr (namedRequest name)) authHeader = some (authHeader ++ Base64.encode name) := by
    rw [cstr_of_nul_free (namedRequest_nul_free name)]
    rfl
  rw [StaysInside, inside_accesses_of_header occurs, firstWord_of_isWord (isWord_encode isWord.1)]
  rintro ⟨-, names⟩
  obtain ⟨decoded, isDecoded, text⟩ := Option.map_eq_some_iff.mp (decoded_text name)
  rw [cstr_of_nul_free nulFree] at text
  have blanked : blankColon name = name := by rw [blankColon, strchr_of_notMem colonFree]
  have fits := (names decoded isDecoded).1
  rw [text, blanked, firstWord_of_isWord isWord, full] at fits
  exact absurd fits (by decide)

/-- A user name of 128 bytes, which the detector stores as part of a request. -/
theorem long_name_outside :
    ¬ ∀ data beyond detection, data.length ≤ Detector.requestBufferSize →
      Detector.asyncDetector (.data data) beyond = some detection → StaysInside detection.request := by
  intro claim
  have full : (List.replicate 128 (97 : UInt8)).length = 128 := List.length_replicate
  have isWord : IsWord (List.replicate 128 (97 : UInt8)) := isWord_replicate (by decide) rfl
  have short : (namedRequest (List.replicate 128 97)).length < Detector.requestBufferSize := by
    rw [namedRequest, List.length_append, List.length_append, Base64.length_encode, full]
    decide
  have nonempty : namedRequest (List.replicate 128 97) ≠ [] := by
    intro empty
    cases empty
  have tunnel : Detector.isTransparent (Detector.method (namedRequest (List.replicate 128 97))) = false :=
    rfl
  have stored := Detector.asyncDetector_data nonempty []
  rw [Detector.requestBuffer_eq (namedRequest_nul_free _) short, Detector.detect_tunnel tunnel] at stored
  exact outside_of_full_name isWord (notMem_replicate (by decide)) (notMem_replicate (by decide)) full
    (claim _ [] _ short.le stored)

end NermalProxy.Credentials
