import Mathlib.Data.List.Basic

/-! # Base64

The encoding of bytes by groups of three: 24 bits make four sextets, and a last group
that is short is filled up with padding characters. -/

namespace NermalProxy.Base64

/-- The character of a sextet. -/
def digit (sextet : Nat) : UInt8 :=
  if sextet < 26 then UInt8.ofNat (65 + sextet)
  else if sextet < 52 then UInt8.ofNat (97 + (sextet - 26))
  else if sextet < 62 then UInt8.ofNat (48 + (sextet - 52))
  else if sextet = 62 then 43
  else 47

def padding : UInt8 := 61

/-- Three bytes as one number. -/
def group (a b c : UInt8) : Nat := a.toNat * 65536 + b.toNat * 256 + c.toNat

def first (bits : Nat) : Nat := bits / 262144

def second (bits : Nat) : Nat := bits / 4096 % 64

def third (bits : Nat) : Nat := bits / 64 % 64

def fourth (bits : Nat) : Nat := bits % 64

def encode : List UInt8 → List UInt8
  | [] => []
  | [a] => [digit (first (group a 0 0)), digit (second (group a 0 0)), padding, padding]
  | [a, b] =>
    [digit (first (group a b 0)), digit (second (group a b 0)), digit (third (group a b 0)), padding]
  | a :: b :: c :: rest =>
    digit (first (group a b c)) :: digit (second (group a b c)) :: digit (third (group a b c)) ::
      digit (fourth (group a b c)) :: encode rest

theorem group_lt (a b c : UInt8) : group a b c < 16777216 := by
  have := a.toNat_lt
  have := b.toNat_lt
  have := c.toNat_lt
  unfold group
  omega

theorem first_lt (a b c : UInt8) : first (group a b c) < 64 := by
  have := group_lt a b c
  unfold first
  omega

theorem second_lt (bits : Nat) : second bits < 64 := Nat.mod_lt _ (by decide)

theorem third_lt (bits : Nat) : third bits < 64 := Nat.mod_lt _ (by decide)

theorem fourth_lt (bits : Nat) : fourth bits < 64 := Nat.mod_lt _ (by decide)

theorem sextets_sum (bits : Nat) :
    64 * (64 * (64 * first bits + second bits) + third bits) + fourth bits = bits := by
  unfold first second third fourth
  omega

theorem group_bytes (a b c : UInt8) :
    UInt8.ofNat (group a b c / 65536) = a ∧ UInt8.ofNat (group a b c / 256) = b ∧
      UInt8.ofNat (group a b c) = c := by
  have boundA := a.toNat_lt
  have boundB := b.toNat_lt
  have boundC := c.toNat_lt
  refine ⟨UInt8.toNat_inj.mp ?_, UInt8.toNat_inj.mp ?_, UInt8.toNat_inj.mp ?_⟩
  · rw [UInt8.toNat_ofNat']
    unfold group
    omega
  · rw [UInt8.toNat_ofNat']
    unfold group
    omega
  · rw [UInt8.toNat_ofNat']
    unfold group
    omega

/-! ## Padding a short group -/

theorem third_of_one (a : UInt8) : third (group a 0 0) = 0 := by
  have : (0 : UInt8).toNat = 0 := rfl
  unfold third group
  omega

theorem fourth_of_one (a : UInt8) : fourth (group a 0 0) = 0 := by
  have : (0 : UInt8).toNat = 0 := rfl
  unfold fourth group
  omega

theorem fourth_of_two (a b : UInt8) : fourth (group a b 0) = 0 := by
  have : (0 : UInt8).toNat = 0 := rfl
  unfold fourth group
  omega

/-! ## The alphabet -/

theorem digit_ne : ∀ sextet < 64, digit sextet ≠ padding ∧ digit sextet ≠ 0 := by decide

/-- Encoded text holds nothing but digits and padding. -/
theorem forall_mem_encode {property : UInt8 → Prop} (digits : ∀ sextet < 64, property (digit sextet))
    (filled : property padding) (bytes : List UInt8) : ∀ c ∈ encode bytes, property c := by
  induction bytes using encode.induct with
  | case1 => simp [encode]
  | case2 a => simp [encode, digits _ (first_lt a 0 0), digits _ (second_lt _), filled]
  | case3 a b =>
    simp [encode, digits _ (first_lt a b 0), digits _ (second_lt _), digits _ (third_lt _), filled]
  | case4 a b c rest inductionHypothesis =>
    have others : ∀ d ∈ encode rest, property d := inductionHypothesis
    simp only [encode, List.forall_mem_cons]
    exact ⟨digits _ (first_lt a b c), digits _ (second_lt _), digits _ (third_lt _),
      digits _ (fourth_lt _), others⟩

theorem nul_notMem_encode (bytes : List UInt8) : (0 : UInt8) ∉ encode bytes := by
  intro member
  have visible : ∀ c ∈ encode bytes, c ≠ 0 :=
    forall_mem_encode (fun sextet bound => (digit_ne sextet bound).2) (by decide) bytes
  exact visible 0 member rfl

/-- Four characters for every group of three, the last one filled up. -/
theorem length_encode (bytes : List UInt8) : (encode bytes).length = 4 * ((bytes.length + 2) / 3) := by
  induction bytes using encode.induct with
  | case1 => simp [encode]
  | case2 a => simp [encode]
  | case3 a b => simp [encode]
  | case4 a b c rest inductionHypothesis =>
    simp only [encode, List.length_cons, inductionHypothesis]
    omega

end NermalProxy.Base64
