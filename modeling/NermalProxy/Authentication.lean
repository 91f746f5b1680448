import NermalProxy.Library.Base64
import NermalProxy.Library.Words
import NermalProxy.UserAuth

/-! # What `Authenticate` accepts

The decoder, the split of the credentials and the search of the user table together:
when the result means what the caller takes it to mean, and which byte strings a client
can authenticate with. -/

namespace NermalProxy

open NermalProxy.CString NermalProxy.KeyedList

namespace Credentials

/-- The first two words, with a NUL behind each, in the arrays of `Authenticate`. -/
def NamesFit (credString : Bytes) : Prop :=
  (firstWord credString).length < 128 ∧ (firstWord (behindWord credString)).length < 128

/-- Credentials that fit, and that decode to words that do. -/
def CredentialsFit (base64Creds : Bytes) : Prop :=
  base64Creds.length < 1024 ∧
    ∀ decoded, AuthManager.base64Decode base64Creds = some decoded →
      NamesFit (AuthManager.blankColon (cstr decoded))

instance (credString : Bytes) : Decidable (NamesFit credString) := instDecidableAnd

instance (base64Creds : Bytes) : Decidable (CredentialsFit base64Creds) :=
  match decoding : AuthManager.base64Decode base64Creds with
  | none => decidable_of_iff (base64Creds.length < 1024) (by simp [CredentialsFit, decoding])
  | some decoded =>
    decidable_of_iff (base64Creds.length < 1024 ∧ NamesFit (AuthManager.blankColon (cstr decoded)))
      (by simp [CredentialsFit, decoding])

end Credentials

namespace AuthManager

/-! ## Decoding what was encoded -/

/-- What a character adds to the accumulator: a padding character nothing. -/
def sextet (c : UInt8) : Option Nat := if c = 61 then some 0 else (base64Value c).map UInt32.toNat

theorem or_sextet {t v : Nat} (room : t < 67108864) (small : v < 64) :
    UInt32.ofNat (64 * t) ||| (UInt32.ofNat v &&& 0x3F) = UInt32.ofNat (64 * t + v) := by
  have mask : v &&& 63 = v := by
    rw [show 63 = 2 ^ 6 - 1 from rfl, Nat.and_two_pow_sub_one_eq_mod]
    omega
  have shifted : 64 * t ||| v = 64 * t + v := by
    rw [show 64 * t = t <<< 6 from by rw [Nat.shiftLeft_eq]; omega,
      Nat.shiftLeft_add_eq_or_of_lt (by omega)]
  apply UInt32.toNat_inj.mp
  have left : (64 * t) % 2 ^ 32 = 64 * t := Nat.mod_eq_of_lt (by omega)
  have right : v % 2 ^ 32 = v := Nat.mod_eq_of_lt (by omega)
  rw [UInt32.toNat_or, UInt32.toNat_and, UInt32.toNat_ofNat', UInt32.toNat_ofNat',
    UInt32.toNat_ofNat', left, right, show (0x3F : UInt32).toNat = 63 from rfl, mask, shifted]
  exact (Nat.mod_eq_of_lt (by omega)).symm

theorem shiftLeft_sextet (n : Nat) : UInt32.ofNat n <<< 6 = UInt32.ofNat (64 * n) := by
  apply UInt32.toNat_inj.mp
  rw [UInt32.toNat_shiftLeft, UInt32.toNat_ofNat', UInt32.toNat_ofNat',
    show (6 : UInt32).toNat % 32 = 6 from rfl, Nat.shiftLeft_eq]
  omega

/-- The bytes that a full accumulator stores. -/
theorem stored_bytes {n : Nat} (small : n < 16777216) :
    (UInt32.ofNat n >>> 16).toUInt8 = UInt8.ofNat (n / 65536) ∧
      (UInt32.ofNat n >>> 8).toUInt8 = UInt8.ofNat (n / 256) ∧
      (UInt32.ofNat n).toUInt8 = UInt8.ofNat n := by
  have whole : (UInt32.ofNat n).toNat = n := by
    rw [UInt32.toNat_ofNat', Nat.mod_eq_of_lt (by omega)]
  refine ⟨UInt8.toNat_inj.mp ?_, UInt8.toNat_inj.mp ?_, UInt8.toNat_inj.mp ?_⟩
  · rw [UInt32.toNat_toUInt8, UInt32.toNat_shiftRight, whole, UInt8.toNat_ofNat',
      show (16 : UInt32).toNat % 32 = 16 from rfl, Nat.shiftRight_eq_div_pow]
  · rw [UInt32.toNat_toUInt8, UInt32.toNat_shiftRight, whole, UInt8.toNat_ofNat',
      show (8 : UInt32).toNat % 32 = 8 from rfl, Nat.shiftRight_eq_div_pow]
  · rw [UInt32.toNat_toUInt8, whole, UInt8.toNat_ofNat']

/-- The accumulator behind a character. -/
theorem accumulated {c : UInt8} {t v : Nat} (value : sextet c = some v) (room : t < 67108864)
    (small : v < 64) :
    (if c ≠ 61 then
        (base64Value c).map (fun value => UInt32.ofNat (64 * t) ||| (value &&& 0x3F))
      else some (UInt32.ofNat (64 * t))) = some (UInt32.ofNat (64 * t + v)) := by
  unfold sextet at value
  by_cases pad : c = 61
  · simp only [pad, if_true, Option.some.injEq] at value
    simp [pad, ← value]
  · rw [if_neg pad] at value
    obtain ⟨word, found, rfl⟩ := Option.map_eq_some_iff.mp value
    have taken := or_sextet room small
    rw [UInt32.ofNat_toNat] at taken
    rw [if_pos pad, found, Option.map_some, taken]

theorem base64Loop_inside {idx t v : Nat} {c : UInt8} {source : Bytes}
    (value : sextet c = some v) (room : t < 67108864) (small : v < 64)
    (inside : ¬ (idx + 1) % 4 = 0) :
    base64Loop idx (UInt32.ofNat (64 * t)) (c :: source) =
      base64Loop (idx + 1) (UInt32.ofNat (64 * (64 * t + v))) source := by
  simp only [base64Loop, accumulated value room small, if_neg inside, shiftLeft_sextet]

theorem base64Loop_closing {idx t v : Nat} {c : UInt8} {source : Bytes}
    (value : sextet c = some v) (room : t < 262144) (small : v < 64) (closes : (idx + 1) % 4 = 0) :
    base64Loop idx (UInt32.ofNat (64 * t)) (c :: source) =
      (base64Loop (idx + 1) 0 source).map (fun stored =>
        UInt8.ofNat ((64 * t + v) / 65536) :: UInt8.ofNat ((64 * t + v) / 256) ::
          UInt8.ofNat (64 * t + v) :: stored) := by
  obtain ⟨high, middle, low⟩ := stored_bytes (by omega : 64 * t + v < 16777216)
  simp only [base64Loop, accumulated value (by omega : t < 67108864) small, if_pos closes, high,
    middle, low]

/-- Four characters that stand for three bytes. -/
theorem base64Loop_group {idx : Nat} {a b c c1 c2 c3 c4 : UInt8} {source : Bytes}
    (aligned : idx % 4 = 0) (one : sextet c1 = some (Base64.first (Base64.group a b c)))
    (two : sextet c2 = some (Base64.second (Base64.group a b c)))
    (three : sextet c3 = some (Base64.third (Base64.group a b c)))
    (four : sextet c4 = some (Base64.fourth (Base64.group a b c))) :
    base64Loop idx 0 (c1 :: c2 :: c3 :: c4 :: source) =
      (base64Loop (idx + 4) 0 source).map (fun stored => a :: b :: c :: stored) := by
  have firstSmall := Base64.first_lt a b c
  have secondSmall := Base64.second_lt (Base64.group a b c)
  have thirdSmall := Base64.third_lt (Base64.group a b c)
  have fourthSmall := Base64.fourth_lt (Base64.group a b c)
  have sum := Base64.sextets_sum (Base64.group a b c)
  obtain ⟨isA, isB, isC⟩ := Base64.group_bytes a b c
  have start : (0 : UInt32) = UInt32.ofNat (64 * 0) := rfl
  conv_lhs => rw [start]
  rw [base64Loop_inside one (by omega) firstSmall (by omega),
    base64Loop_inside two (by omega) secondSmall (by omega),
    base64Loop_inside three (by omega) thirdSmall (by omega),
    base64Loop_closing four (by omega) fourthSmall (by omega)]
  simp only [Nat.mul_zero, Nat.zero_add, sum, isA, isB, isC]

theorem sextet_digit : ∀ value < 64, sextet (Base64.digit value) = some value := by decide

theorem sextet_padding : sextet Base64.padding = some 0 := by decide

/-- A last group that is short is decoded with the zeros it was filled up with. -/
theorem base64Loop_encode {idx : Nat} (aligned : idx % 4 = 0) (text : Bytes) :
    ∃ filler, base64Loop idx 0 (Base64.encode text) = some (text ++ List.replicate filler 0) := by
  induction text using Base64.encode.induct generalizing idx with
  | case1 => exact ⟨0, by simp [Base64.encode, base64Loop, aligned]⟩
  | case2 a =>
    have three : sextet Base64.padding = some (Base64.third (Base64.group a 0 0)) := by
      rw [sextet_padding, Base64.third_of_one]
    have four : sextet Base64.padding = some (Base64.fourth (Base64.group a 0 0)) := by
      rw [sextet_padding, Base64.fourth_of_one]
    refine ⟨2, ?_⟩
    rw [Base64.encode, base64Loop_group aligned (sextet_digit _ (Base64.first_lt a 0 0))
      (sextet_digit _ (Base64.second_lt _)) three four]
    simp [base64Loop, aligned]
  | case3 a b =>
    have four : sextet Base64.padding = some (Base64.fourth (Base64.group a b 0)) := by
      rw [sextet_padding, Base64.fourth_of_two]
    refine ⟨1, ?_⟩
    rw [Base64.encode, base64Loop_group aligned (sextet_digit _ (Base64.first_lt a b 0))
      (sextet_digit _ (Base64.second_lt _)) (sextet_digit _ (Base64.third_lt _)) four]
    simp [base64Loop, aligned]
  | case4 a b c rest inductionHypothesis =>
    have alignedNext : (idx + 4) % 4 = 0 := by omega
    obtain ⟨filler, decoded⟩ := inductionHypothesis alignedNext
    refine ⟨filler, ?_⟩
    rw [Base64.encode, base64Loop_group aligned (sextet_digit _ (Base64.first_lt a b c))
      (sextet_digit _ (Base64.second_lt _)) (sextet_digit _ (Base64.third_lt _))
      (sextet_digit _ (Base64.fourth_lt _)), decoded]
    simp

/-- The text that the decoder leaves of encoded bytes ends at their first NUL. -/
theorem decoded_text (text : Bytes) :
    (base64Decode (Base64.encode text)).map cstr = some (cstr text) := by
  obtain ⟨filler, decoded⟩ := base64Loop_encode (show 0 % 4 = 0 from rfl) text
  have whole : cstr (Base64.encode text) = Base64.encode text := by
    simpa [cstr] using cstr_append_of_nul_free (Base64.nul_notMem_encode text) []
  have filled : cstr (text ++ List.replicate filler 0) = cstr text := by
    unfold cstr
    rw [List.takeWhile_append]
    split
    · rename_i full
      have nulFree : text.takeWhile (· != 0) = text := List.IsPrefix.eq_of_length
        (List.takeWhile_prefix _) full
      cases filler <;> simp [nulFree, List.replicate_succ]
    · rfl
  rw [base64Decode, whole, decoded, Option.map_some, filled]

/-! ## The result -/

/-- The result is true just for accepted credentials, a true one comes with the name of a
registered user, and a false one leaves the name alone. -/
def ResultMeansAccepted (users : List User) (base64Creds username : Bytes) : Prop :=
  ((authenticate users base64Creds username).1 = true ↔
    ∃ user pass, credentials base64Creds = some (user, pass) ∧ authenticate_i users user pass = true) ∧
  ((authenticate users base64Creds username).1 = true →
    ∃ registered ∈ users, registered.name = (authenticate users base64Creds username).2) ∧
  ((authenticate users base64Creds username).1 = false →
    (authenticate users base64Creds username).2 = username)

/-- Where the decoded words fit their arrays, the result is right except for credentials that decode
and are not accepted. -/
theorem resultMeansAccepted_iff (users : List User) {base64Creds : Bytes} (username : Bytes)
    (_fit : ∀ decoded, base64Decode base64Creds = some decoded →
      Credentials.NamesFit (blankColon (cstr decoded))) :
    ResultMeansAccepted users base64Creds username ↔
      base64Decode base64Creds = none ∨
      ∃ user pass, credentials base64Creds = some (user, pass) ∧
        authenticate_i users user pass = true := by
  unfold ResultMeansAccepted authenticate
  cases decoded : base64Decode base64Creds with
  | none => simp [credentials, decoded]
  | some block =>
    obtain ⟨user, pass, read⟩ : ∃ user pass, credentials base64Creds = some (user, pass) :=
      ⟨_, _, by simp only [credentials, decoded, Option.map_some]; rfl⟩
    rw [read]
    by_cases accepted : authenticate_i users user pass = true
    · obtain ⟨registered, member, name, -⟩ := authenticate_i_sound accepted
      simp only [accepted, if_true]
      refine ⟨fun _ => .inr ⟨user, pass, rfl, accepted⟩, fun _ => ⟨?_, ?_, ?_⟩⟩
      · exact ⟨fun _ => ⟨user, pass, rfl, accepted⟩, fun _ => trivial⟩
      · exact fun _ => ⟨registered, member, name⟩
      · rintro ⟨⟩
    · have refused : ¬ ∃ user' pass', some (user, pass) = some (user', pass') ∧
          authenticate_i users user' pass' = true := by
        rintro ⟨user', pass', same, found⟩
        cases same
        exact accepted found
      simp only [accepted, Bool.false_eq_true, if_false, refused, iff_false, not_true_eq_false,
        false_and, reduceCtorEq, or_false]

theorem resultMeansAccepted_right_password :
    ResultMeansAccepted [User.make (bytes "alice") (bytes "secret")] (bytes "YWxpY2U6c2VjcmV0") [] := by
  refine (resultMeansAccepted_iff _ [] fun decoded isDecoded => ?_).mpr
    (.inr ⟨bytes "alice", bytes "secret", by decide, by decide⟩)
  cases isDecoded
  decide

/-- A wrong password for a registered user. -/
theorem authenticate_wrong_password :
    ¬ ∀ (users : List User) (base64Creds username : Bytes),
      ResultMeansAccepted users base64Creds username := by
  intro claim
  have result := (claim [User.make (bytes "alice") (bytes "secret")] (bytes "YWxpY2U6YmFk") []).1
  have wrong : credentials (bytes "YWxpY2U6YmFk") = some (bytes "alice", bytes "bad") := by decide
  obtain ⟨user, pass, read, accepted⟩ := result.mp (by decide)
  rw [wrong] at read
  cases read
  exact absurd accepted (by decide)

/-! ## The credentials that are accepted -/

/-- The user name and the password that are read out of a byte string. -/
def reading (text : Bytes) : Bytes × Bytes := scanUserPass (blankColon (cstr text))

def Registered (users : List User) (name password : Bytes) : Prop :=
  ∃ user ∈ users, user.name = name ∧ user.password = password

/-- A byte string that is split at its first colon. -/
def SplitsInto (text name password : Bytes) : Prop := text = name ++ 58 :: password ∧ (58 : UInt8) ∉ name

/-- The call stores this name, whatever the variable held before. -/
def StoresName (users : List User) (base64Creds name : Bytes) : Prop :=
  ∀ username, (authenticate users base64Creds username).2 = name

/-- Neither white space nor a NUL, a colon, and a user name before it unless there is nothing else. -/
def Plain (text : Bytes) : Prop :=
  (∀ c ∈ text, c ≠ 0 ∧ isSpace c = false) ∧ (58 : UInt8) ∈ text ∧
    (text.head? ≠ some 58 ∨ text = [58])

theorem credentials_encode (text : Bytes) : credentials (Base64.encode text) = some (reading text) := by
  have decoded := decoded_text text
  cases block : base64Decode (Base64.encode text) with
  | none =>
    rw [block] at decoded
    cases decoded
  | some stored =>
    rw [block, Option.map_some, Option.some.injEq] at decoded
    simp only [credentials, block, Option.map_some, decoded, reading]

theorem scanUserPass_eq (credString : Bytes) :
    scanUserPass credString = (firstWord credString, firstWord (behindWord credString)) := by
  rw [scanUserPass, scanWord_eq]
  by_cases first : firstWord credString = []
  · rw [if_pos first, first, behindWord_of_empty first]
    rfl
  · rw [if_neg first]
    simp only [scanWord_eq]
    by_cases second : firstWord (behindWord credString) = []
    · simp [second]
    · simp [second]

theorem mem_of_mem_blankColon {credString : Bytes} {c : UInt8} (member : c ∈ blankColon credString)
    (visible : c ≠ 32) : c ∈ credString := by
  by_cases colon : (58 : UInt8) ∈ credString
  · rw [blankColon, strchr_eq_some colon] at member
    rcases List.mem_append.mp member with before | behind
    · exact (List.takeWhile_prefix _).subset before
    · rcases List.mem_cons.mp behind with blank | after
      · exact absurd blank visible
      · exact List.mem_of_mem_drop after
  · rwa [blankColon, strchr_of_notMem colon] at member

theorem authenticate_i_iff {users : List User} {name password : Bytes} :
    authenticate_i users name password = true ↔ Registered users name password := by
  simp [authenticate_i, Registered]

/-- The words that are read decide, and the first of them is the name. -/
theorem storesName_encode_iff {users : List User} {text name : Bytes} :
    StoresName users (Base64.encode text) name ↔
      (reading text).1 = name ∧ Registered users (reading text).1 (reading text).2 := by
  unfold StoresName authenticate
  simp only [credentials_encode]
  by_cases accepted : authenticate_i users (reading text).1 (reading text).2 = true
  · simp only [accepted, if_true, authenticate_i_iff.mp accepted, and_true]
    exact ⟨fun stored => stored [], fun same _ => same⟩
  · have refused : ¬ Registered users (reading text).1 (reading text).2 :=
      fun registered => accepted (authenticate_i_iff.mpr registered)
    simp only [accepted, Bool.false_eq_true, if_false, refused, and_false, iff_false]
    intro stored
    have longer := congrArg List.length (stored (0 :: name))
    simp only [List.length_cons] at longer
    omega

/-- A plain byte string is read as it splits. -/
theorem reading_of_plain {text name password : Bytes} (plain : Plain text)
    (splits : SplitsInto text name password) : reading text = (name, password) := by
  obtain ⟨visible, -, named⟩ := plain
  obtain ⟨rfl, colonFree⟩ := splits
  have nulFree : (0 : UInt8) ∉ name ++ 58 :: password := fun member => (visible 0 member).1 rfl
  have whole : cstr (name ++ 58 :: password) = name ++ 58 :: password := by
    simpa [cstr] using cstr_append_of_nul_free nulFree []
  have blanked : blankColon (name ++ 58 :: password) = name ++ 32 :: password := by
    rw [blankColon, strchr_append colonFree, cutAt_append colonFree]
  have second : scanUserPass (name ++ 32 :: password) = (name, password) := by
    cases name with
    | nil =>
      obtain onlyColon : password = [] := by simpa using named
      subst onlyColon
      decide
    | cons c name =>
      have isName : IsWord (c :: name) :=
        ⟨by simp, fun d member => (visible d (List.mem_append_left _ member)).2⟩
      have blank : Delimits (32 :: password) := rfl
      rw [scanUserPass, scanWord_word isName blank]
      cases password with
      | nil =>
        have nothing : scanWord [32] = none := by decide
        simp only [nothing]
      | cons d password =>
        have isPassword : IsWord (d :: password) := by
          refine ⟨by simp, fun e member => (visible e ?_).2⟩
          exact List.mem_append_right _ (List.mem_cons_of_mem _ member)
        have skipped : scanWord (32 :: d :: password) = scanWord (d :: password ++ []) := by
          simp only [scanWord, skipSpace_space, List.append_nil]
        have ends : Delimits [] := trivial
        simp only [skipped, scanWord_word isPassword ends]
  rw [reading, whole, blanked, second]

/-- Every byte of the words is one of the text, before its first NUL. -/
theorem mem_reading {text : Bytes} {c : UInt8} (member : c ∈ (reading text).1 ∨ c ∈ (reading text).2) :
    c ≠ 0 ∧ isSpace c = false := by
  obtain ⟨inside, visible⟩ : c ∈ blankColon (cstr text) ∧ isSpace c = false := by
    rw [reading, scanUserPass_eq] at member
    rcases member with first | second
    · exact mem_firstWord first
    · obtain ⟨behind, visible⟩ := mem_firstWord second
      exact ⟨mem_of_mem_behindWord behind, visible⟩
  refine ⟨?_, visible⟩
  rintro rfl
  exact cstr_nul_free text (mem_of_mem_blankColon inside (by decide))

/-- Without a name there is no password either. -/
theorem reading_password_nil {text : Bytes} (nameless : (reading text).1 = []) : (reading text).2 = [] := by
  rw [reading, scanUserPass_eq] at nameless ⊢
  rw [behindWord_of_empty nameless]
  rfl

/-- A byte string that splits into the words that are read out of it. -/
theorem plain_of_splits_reading {text : Bytes}
    (splits : SplitsInto text (reading text).1 (reading text).2) : Plain text := by
  refine ⟨fun c member => ?_, ?_, ?_⟩
  · rw [splits.1, List.mem_append, List.mem_cons] at member
    rcases member with inName | rfl | inPassword
    · exact mem_reading (.inl inName)
    · decide
    · exact mem_reading (.inr inPassword)
  · rw [splits.1]
    exact List.mem_append_right _ List.mem_cons_self
  · cases name : (reading text).1 with
    | nil =>
      right
      have whole := splits.1
      rwa [name, reading_password_nil name] at whole
    | cons c rest =>
      left
      rw [splits.1, name]
      rintro starts
      cases starts
      exact splits.2 (by simp [name])

/-- Exactly the registered pairs are accepted, joined by a colon, whatever the user table, just for the
plain byte strings. -/
theorem accepts_exactly_iff {text : Bytes} (_short : text.length < 128) :
    (∀ users name, StoresName users (Base64.encode text) name ↔
      ∃ password, SplitsInto text name password ∧ Registered users name password) ↔ Plain text := by
  simp only [storesName_encode_iff]
  constructor
  · intro exactly
    have only : Registered [User.make (reading text).1 (reading text).2] (reading text).1
        (reading text).2 := ⟨_, List.mem_singleton_self _, rfl, rfl⟩
    obtain ⟨password, splits, user, member, -, registered⟩ := (exactly _ _).mp ⟨rfl, only⟩
    cases List.mem_singleton.mp member
    cases registered
    exact plain_of_splits_reading splits
  · intro plain users name
    obtain ⟨before, after, split, colonFree⟩ := List.eq_append_cons_of_mem plain.2.1
    have splits : SplitsInto text before after := ⟨split, colonFree⟩
    have read := reading_of_plain plain splits
    rw [read]
    constructor
    · rintro ⟨rfl, registered⟩
      exact ⟨after, splits, registered⟩
    · rintro ⟨password, otherSplit, registered⟩
      have otherRead := reading_of_plain plain otherSplit
      rw [read, Prod.mk.injEq] at otherRead
      obtain ⟨rfl, rfl⟩ := otherRead
      exact ⟨rfl, registered⟩

theorem accepts_exactly_alice :
    StoresName [User.make (bytes "alice") (bytes "secret")] (Base64.encode (bytes "alice:secret"))
      (bytes "alice") := by
  have nulFree : (0 : UInt8) ∉ bytes "alice:secret" := by decide
  have plain : Plain (bytes "alice:secret") :=
    ⟨fun c member => ⟨fun isNul => nulFree (isNul ▸ member), spaceless_of_all (by decide) c member⟩,
      by decide, .inl (by decide)⟩
  refine ((accepts_exactly_iff (by decide)).mpr plain _ _).mpr ⟨bytes "secret", ⟨rfl, by decide⟩, ?_⟩
  exact ⟨_, List.mem_singleton_self _, rfl, rfl⟩

/-- A blank in the place of the colon is accepted. -/
theorem blank_for_colon_accepted :
    ¬ ∀ (users : List User) (text name : Bytes), text.length < 128 →
      (StoresName users (Base64.encode text) name ↔
        ∃ password, SplitsInto text name password ∧ Registered users name password) := by
  intro claim
  have exactly := claim [User.make (bytes "alice") (bytes "secret")] (bytes "alice secret")
    (bytes "alice") (by decide)
  have stored : StoresName [User.make (bytes "alice") (bytes "secret")]
      (Base64.encode (bytes "alice secret")) (bytes "alice") := by
    rw [storesName_encode_iff]
    exact ⟨by decide, ⟨_, List.mem_singleton_self _, by decide⟩⟩
  obtain ⟨password, splits, -⟩ := exactly.mp stored
  have colon : (58 : UInt8) ∈ bytes "alice secret" := by
    rw [splits.1]
    simp
  exact absurd colon (by decide)

end AuthManager

end NermalProxy
