import Mathlib.Algebra.Group.Nat.Defs
import NermalProxy.Library.CString

/-! # Formatted numbers

The conversions `%lu`, `%0<width>lu` and `%d` as the bytes they write. -/

namespace NermalProxy.CString

/-- The conversion `%lu`. -/
def decimal (n : Nat) : Bytes := (Nat.toDigits 10 n).map Char.toUInt8

/-- The conversion `%0<width>lu`. -/
def zeroPadded (width n : Nat) : Bytes := List.replicate (width - (decimal n).length) 48 ++ decimal n

/-- The conversion `%d` of a 32-bit `int`. -/
def signedDecimal (value : Int) : Bytes :=
  let int := Int.bmod value UInt32.size
  if int < 0 then 45 :: decimal int.natAbs else decimal int.natAbs

theorem decimal_length_pos (n : Nat) : 0 < (decimal n).length := by
  simpa [decimal] using Nat.length_toDigits_pos

theorem decimal_length_le_iff {n k : Nat} (positive : 0 < k) : (decimal n).length ≤ k ↔ n < 10 ^ k := by
  rw [decimal, List.length_map]
  exact Nat.length_toDigits_le_iff (by omega) positive

theorem decimal_length_mono {m n : Nat} (smaller : m ≤ n) : (decimal m).length ≤ (decimal n).length := by
  rw [decimal_length_le_iff (decimal_length_pos n)]
  exact Nat.lt_of_le_of_lt smaller ((decimal_length_le_iff (decimal_length_pos n)).mp (Nat.le_refl _))

theorem zeroPadded_length (width n : Nat) : (zeroPadded width n).length = max width (decimal n).length := by
  rw [zeroPadded, List.length_append, List.length_replicate]
  omega

/-- A sign and ten digits at most. -/
theorem signedDecimal_length_le (value : Int) : (signedDecimal value).length ≤ 11 := by
  have low := Int.le_bmod (x := value) (by decide : 0 < UInt32.size)
  have high := Int.bmod_lt (x := value) (by decide : 0 < UInt32.size)
  have small : (Int.bmod value UInt32.size).natAbs < 10 ^ 10 := by
    simp only [UInt32.size] at low high ⊢
    omega
  have digits := (decimal_length_le_iff (by decide : 0 < 10)).mpr small
  simp only [signedDecimal]
  split
  · rw [List.length_cons]
    omega
  · omega

theorem signedDecimal_of_int {n : Nat} (int : n < 2147483648) : signedDecimal n = decimal n := by
  have whole : Int.bmod n UInt32.size = n := by
    rw [show UInt32.size = 4294967296 from rfl, Int.bmod_eq_emod]
    split <;> omega
  have positive : ¬ (n : Int) < 0 := by omega
  simp only [signedDecimal, whole, positive, if_false, Int.natAbs_natCast]

theorem toUInt8_toNat_of_isDigit {char : Char} (digit : char.isDigit = true) :
    char.toUInt8.toNat = char.toNat ∧ 48 ≤ char.toNat ∧ char.toNat ≤ 57 := by
  obtain ⟨low, high⟩ := Char.isDigit_iff_toNat.mp digit
  have low : 48 ≤ char.toNat := low
  have high : char.toNat ≤ 57 := high
  have byte : char.toUInt8.toNat = char.toNat % 256 := UInt32.toNat_toUInt8 char.val
  exact ⟨by omega, low, high⟩

theorem isDigit_of_mem_toDigits {n : Nat} {char : Char} (member : char ∈ Nat.toDigits 10 n) :
    char.isDigit = true := Nat.isDigit_of_mem_toDigits (by decide) (by decide) member

theorem isDigit_of_mem_decimal {n : Nat} {c : UInt8} (member : c ∈ decimal n) : isDigit c = true := by
  obtain ⟨char, inDigits, rfl⟩ := List.mem_map.mp member
  obtain ⟨byte, low, high⟩ := toUInt8_toNat_of_isDigit (isDigit_of_mem_toDigits inDigits)
  have zero : (48 : UInt8).toNat = 48 := rfl
  have nine : (57 : UInt8).toNat = 57 := rfl
  simp only [isDigit, Bool.and_eq_true, decide_eq_true_eq, UInt8.le_iff_toNat_le]
  omega

theorem mem_signedDecimal {value : Int} {c : UInt8} (member : c ∈ signedDecimal value) :
    c = 45 ∨ isDigit c = true := by
  simp only [signedDecimal] at member
  split at member
  · rcases List.mem_cons.mp member with sign | digit
    · exact .inl sign
    · exact .inr (isDigit_of_mem_decimal digit)
  · exact .inr (isDigit_of_mem_decimal member)

/-- The digits of a number are read as the number. -/
theorem digitsValue_decimal (n : Nat) : digitsValue (decimal n) = n := by
  have fold : ∀ (chars : List Char) (value : Nat), (∀ char ∈ chars, char.isDigit = true) →
      (chars.map Char.toUInt8).foldl (fun value c => 10 * value + (c.toNat - 48)) value =
        Nat.ofDigitChars 10 chars value := by
    intro chars
    induction chars with
    | nil => exact fun _ _ => rfl
    | cons char chars inductionHypothesis =>
      intro value digits
      obtain ⟨byte, -, -⟩ := toUInt8_toNat_of_isDigit (digits char List.mem_cons_self)
      have tail := inductionHypothesis (10 * value + (char.toNat - 48))
        (fun other member => digits other (List.mem_cons_of_mem _ member))
      rw [List.map_cons, List.foldl_cons, byte, tail]
      rfl
  rw [digitsValue, decimal, fold _ 0 (fun _ => isDigit_of_mem_toDigits)]
  exact Nat.ofDigitChars_ten_toDigits

end NermalProxy.CString
