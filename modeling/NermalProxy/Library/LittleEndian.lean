import NermalProxy.Library.CString

/-! # Fields of a structure in memory

The `int` and `bool` fields of a C structure by their offsets, where a word has its least significant
byte first: how they are written, and what is read at an offset behind other bytes. -/

namespace NermalProxy.LittleEndian

open NermalProxy.CString

/-- The 32-bit word at an offset, least significant byte first. -/
def wordAt (offset : Nat) (memory : Bytes) : Nat :=
  let bytes := memory.drop offset
  (bytes.getD 0 0).toNat + 256 * (bytes.getD 1 0).toNat + 65536 * (bytes.getD 2 0).toNat +
    16777216 * (bytes.getD 3 0).toNat

/-- The `int` at an offset. -/
def intAt (offset : Nat) (memory : Bytes) : Int :=
  if wordAt offset memory < 2147483648 then wordAt offset memory
  else wordAt offset memory - 4294967296

def boolAt (offset : Nat) (memory : Bytes) : Bool := memory.getD offset 0 ≠ 0

def wordBytes (value : Int) : Bytes :=
  let word := (value % 4294967296).toNat
  [UInt8.ofNat word, UInt8.ofNat (word / 256), UInt8.ofNat (word / 65536), UInt8.ofNat (word / 16777216)]

def boolByte (value : Bool) : UInt8 := if value then 1 else 0

/-- What an `int` can hold. -/
def FitsInt (value : Int) : Prop := -2147483648 ≤ value ∧ value < 2147483648

/-! ## Reading back -/

/-- The bytes of a word, read back. -/
theorem word_of_bytes {word : Nat} (small : word < 4294967296) :
    word % 256 + 256 * (word / 256 % 256) + 65536 * (word / 65536 % 256) +
      16777216 * (word / 16777216 % 256) = word := by
  omega

theorem wordAt_wordBytes (front rest : Bytes) (value : Int) :
    wordAt front.length (front ++ (wordBytes value ++ rest)) = (value % 4294967296).toNat := by
  have small : (value % 4294967296).toNat < 4294967296 := by omega
  simp only [wordAt, List.drop_left]
  simp only [wordBytes, List.cons_append, List.getD_cons_zero, List.getD_cons_succ, UInt8.toNat_ofNat']
  exact word_of_bytes small

theorem intAt_wordBytes (front rest : Bytes) {value : Int} (fits : FitsInt value) :
    intAt front.length (front ++ (wordBytes value ++ rest)) = value := by
  obtain ⟨low, high⟩ := fits
  unfold intAt
  rw [wordAt_wordBytes]
  split <;> omega

theorem boolAt_boolByte (front rest : Bytes) (value : Bool) :
    boolAt front.length (front ++ boolByte value :: rest) = value := by
  cases value <;> simp [boolAt, boolByte]

end NermalProxy.LittleEndian
