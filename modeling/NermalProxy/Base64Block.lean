import Mathlib.Algebra.GroupWithZero.Nat
import NermalProxy.CredentialBuffers

/-! # The block that `Base64Decode` fills

`Base64Decode` sizes its block by the whole string, zeroes it, and stores three bytes for
every fourth character; the size it reports is the distance it has come.  The decoder of
`UserAuth` is what it stores. -/

namespace NermalProxy

open NermalProxy.CString NermalProxy.Buffer NermalProxy.Credentials

namespace Base64

/-- The characters that stand for the 64 sextets. -/
def alphabet : List UInt8 := (List.range 64).map digit

end Base64

namespace AuthManager

/-- What a call returns, and `size` as it leaves it. -/
structure Block where
  bytes : Bytes
  size : Nat
  deriving DecidableEq, Repr

/-- `size` before the loop: a `size_t` that becomes an `int`. -/
def initialSize (source : Bytes) : Int := Int.bmod ((source.length * 3 + 3) / 4 : Nat) UInt32.size

/-- What `new` is called with. -/
def allocated (source : Bytes) : Nat := (initialSize source + 3).toNat

/-- The loop, on the block; `none` where the call returns a null pointer. -/
def fillBlock : (idx dst : Nat) → (tmp : UInt32) → (block : Bytes) → Bytes → Option Block
  | idx, dst, _, block, [] => if idx % 4 ≠ 0 then none else some ⟨block, dst⟩
  | idx, dst, tmp, block, c :: source =>
    match if c ≠ 61 then (base64Value c).map (fun value => tmp ||| (value &&& 0x3F)) else some tmp with
    | none => none
    | some tmp =>
      if (idx + 1) % 4 = 0 then
        let block := block.set dst (tmp >>> 16).toUInt8
        let block := block.set (dst + 1) (tmp >>> 8).toUInt8
        let block := block.set (dst + 2) tmp.toUInt8
        fillBlock (idx + 1) (dst + 3) 0 block source
      else fillBlock (idx + 1) dst (tmp <<< 6) block source

/-- `Base64Decode`, with the block. -/
def base64DecodeBlock (source : Bytes) : Option Block :=
  fillBlock 0 0 0 (List.replicate (allocated source) 0) (cstr source)

/-- The `memset` and the stores of the loop. -/
def blockAccesses (source : Bytes) : List (Access Memory) :=
  fill (.block (allocated source)) (allocated source) ++
    base64Stores (allocated source) 0 0 (cstr source)

/-! ## Storing into a block -/

/-- A block with some bytes stored at an offset. -/
def overwrite (block : Bytes) (dst : Nat) (stored : Bytes) : Bytes :=
  block.take dst ++ (stored ++ block.drop (dst + stored.length))

theorem overwrite_nil (block : Bytes) (dst : Nat) : overwrite block dst [] = block := by
  simp [overwrite]

theorem overwrite_set {block : Bytes} {dst : Nat} (inside : dst < block.length) (c : UInt8)
    (stored : Bytes) : overwrite (block.set dst c) (dst + 1) stored = overwrite block dst (c :: stored) := by
  have front : (block.take dst).length = dst := by
    rw [List.length_take]
    omega
  have behind : ∀ n, (block.take dst ++ c :: block.drop (dst + 1)).drop (dst + 1 + n) =
      block.drop (dst + 1 + n) := by
    intro n
    rw [List.drop_append, front, List.drop_eq_nil_of_le (by omega), List.nil_append,
      show dst + 1 + n - dst = n + 1 by omega, List.drop_succ_cons, List.drop_drop]
  have upTo : (block.take dst ++ c :: block.drop (dst + 1)).take (dst + 1) = block.take dst ++ [c] := by
    rw [List.take_append, front, List.take_of_length_le (by omega), Nat.add_sub_cancel_left,
      List.take_succ_cons, List.take_zero]
  rw [List.set_eq_take_append_cons_drop, if_pos inside, overwrite, overwrite, behind, upTo,
    List.length_cons, List.append_assoc, List.singleton_append, List.cons_append,
    show dst + (stored.length + 1) = dst + 1 + stored.length by omega]

/-! ## The loop -/

/-- The loop stores the decoded bytes one after the other. -/
theorem fillBlock_eq {source : Bytes} :
    ∀ {idx dst : Nat} {tmp : UInt32} {block : Bytes},
      dst + 3 * ((idx % 4 + source.length) / 4) ≤ block.length →
      fillBlock idx dst tmp block source =
        (base64Loop idx tmp source).map (fun stored => ⟨overwrite block dst stored, dst + stored.length⟩) := by
  induction source with
  | nil =>
    intro idx dst tmp block room
    simp only [fillBlock, base64Loop]
    split
    · rfl
    · simp [overwrite_nil]
  | cons c source inductionHypothesis =>
    intro idx dst tmp block room
    rw [List.length_cons] at room
    simp only [fillBlock, base64Loop]
    generalize (if c ≠ 61 then (base64Value c).map (fun value => tmp ||| (value &&& 0x3F))
      else some tmp) = taken
    cases taken with
    | none => rfl
    | some accumulator =>
      dsimp only
      split
      · rename_i closes
        rw [inductionHypothesis (by simp only [List.length_set]; omega), Option.map_map]
        congr 1
        funext stored
        have first : dst < block.length := by omega
        have second : dst + 1 < (block.set dst (accumulator >>> 16).toUInt8).length := by
          rw [List.length_set]
          omega
        have third : dst + 1 + 1 < ((block.set dst (accumulator >>> 16).toUInt8).set (dst + 1)
            (accumulator >>> 8).toUInt8).length := by
          rw [List.length_set, List.length_set]
          omega
        simp only [Function.comp, List.length_cons, Block.mk.injEq]
        refine ⟨?_, by omega⟩
        rw [← overwrite_set first, ← overwrite_set second, ← overwrite_set third]
      · rename_i inside
        refine inductionHypothesis ?_
        omega

/-- Three bytes for four characters. -/
theorem base64Loop_length {source : Bytes} :
    ∀ {idx : Nat} {tmp : UInt32} {stored : Bytes}, base64Loop idx tmp source = some stored →
      stored.length = 3 * ((idx % 4 + source.length) / 4) := by
  induction source with
  | nil =>
    intro idx tmp stored decoded
    simp only [base64Loop] at decoded
    split at decoded
    · cases decoded
    · cases decoded
      simp only [List.length_nil]
      omega
  | cons c source inductionHypothesis =>
    intro idx tmp stored decoded
    simp only [base64Loop] at decoded
    split at decoded
    · cases decoded
    · split at decoded
      · obtain ⟨rest, loop, rfl⟩ := Option.map_eq_some_iff.mp decoded
        have length := inductionHypothesis loop
        simp only [List.length_cons]
        omega
      · have length := inductionHypothesis decoded
        simp only [List.length_cons]
        omega

/-- The loop fails at a character that is neither a digit nor padding, and at an end inside a group. -/
theorem base64Loop_eq_none_iff {source : Bytes} :
    ∀ {idx : Nat} {tmp : UInt32}, base64Loop idx tmp source = none ↔
      (∃ c ∈ source, c ≠ 61 ∧ base64Value c = none) ∨ (idx + source.length) % 4 ≠ 0 := by
  induction source with
  | nil =>
    intro idx tmp
    simp [base64Loop]
  | cons c source inductionHypothesis =>
    intro idx tmp
    rw [List.length_cons, show idx + (source.length + 1) = idx + 1 + source.length by omega]
    by_cases bad : c ≠ 61 ∧ base64Value c = none
    · have stops : base64Loop idx tmp (c :: source) = none := by
        simp [base64Loop, bad.1, bad.2]
      simp only [stops, true_iff]
      exact .inl ⟨c, List.mem_cons_self, bad⟩
    · have rest : base64Loop idx tmp (c :: source) = none ↔
          (∃ c ∈ source, c ≠ 61 ∧ base64Value c = none) ∨ (idx + 1 + source.length) % 4 ≠ 0 := by
        simp only [base64Loop]
        split
        · rename_i taken
          refine absurd ?_ bad
          by_cases pad : c = 61
          · simp [pad] at taken
          · simpa [pad] using taken
        · split
          · rw [Option.map_eq_none_iff]
            exact inductionHypothesis
          · exact inductionHypothesis
      rw [rest]
      simp only [List.mem_cons, exists_eq_or_imp, bad, false_or]

theorem base64Value_digit : ∀ sextet < 64, base64Value (Base64.digit sextet) ≠ none := by decide

/-- Whatever has a value is the digit of it. -/
theorem digit_of_base64Value : ∀ n < 256, (base64Value (UInt8.ofNat n)).all (fun value =>
    value.toNat < 64 && Base64.digit value.toNat == UInt8.ofNat n) = true := by
  decide +kernel

theorem base64Value_eq_none_iff (c : UInt8) : base64Value c = none ↔ c ∉ Base64.alphabet := by
  constructor
  · intro invalid member
    obtain ⟨sextet, bound, rfl⟩ := List.mem_map.mp member
    exact base64Value_digit sextet (List.mem_range.mp bound) invalid
  · intro foreign
    by_contra valid
    obtain ⟨value, isValue⟩ := Option.ne_none_iff_exists'.mp valid
    have inverse := digit_of_base64Value c.toNat c.toNat_lt
    simp only [UInt8.ofNat_toNat, isValue, Option.all_some, Bool.and_eq_true, decide_eq_true_eq,
      beq_iff_eq] at inverse
    exact foreign (List.mem_map.mpr ⟨value.toNat, List.mem_range.mpr inverse.1, inverse.2⟩)

/-! ## The call -/

theorem allocated_eq {source : Bytes} (short : source.length < 2 ^ 29) :
    allocated source = blockSize source := by
  unfold allocated initialSize blockSize
  have small : (source.length * 3 + 3) / 4 < 2147483648 := by omega
  generalize (source.length * 3 + 3) / 4 = size at small
  rw [show UInt32.size = 4294967296 from rfl, Int.bmod_eq_emod]
  split <;> omega

theorem base64DecodeBlock_eq {source : Bytes} (short : source.length < 2 ^ 29) :
    base64DecodeBlock source = (base64Decode source).map
      (fun stored => ⟨overwrite (List.replicate (blockSize source) 0) 0 stored, stored.length⟩) := by
  have shorter := cstr_length_le source
  have room : 0 + 3 * ((0 % 4 + (cstr source).length) / 4) ≤
      (List.replicate (blockSize source) (0 : UInt8)).length := by
    rw [List.length_replicate]
    unfold blockSize
    omega
  rw [base64DecodeBlock, allocated_eq short, fillBlock_eq room]
  simp only [Nat.zero_add]
  rfl

/-- Encoded bytes are decoded to a block that begins with them and holds zeros behind them. -/
theorem base64DecodeBlock_encode {text : Bytes} (short : (Base64.encode text).length < 2 ^ 29) :
    ∃ block, base64DecodeBlock (Base64.encode text) = some block ∧
      block.size = 3 * ((text.length + 2) / 3) ∧ block.bytes.take text.length = text ∧
      ∀ i, text.length ≤ i → i ≤ block.size → block.bytes[i]? = some 0 := by
  obtain ⟨filler, decoded⟩ := base64Loop_encode (show 0 % 4 = 0 from rfl) text
  have length := base64Loop_length decoded
  have encoded := Base64.length_encode text
  rw [List.length_append, List.length_replicate, encoded] at length
  have nulFree := Base64.nul_notMem_encode text
  have whole : base64Decode (Base64.encode text) = some (text ++ List.replicate filler 0) := by
    rw [base64Decode, cstr_of_nul_free nulFree, decoded]
  have behind : overwrite (List.replicate (blockSize (Base64.encode text)) 0) 0
      (text ++ List.replicate filler 0) = text ++ List.replicate (filler + 3) 0 := by
    rw [overwrite, List.take_zero, List.nil_append, List.drop_replicate, List.append_assoc,
      List.replicate_append_replicate, List.length_append, List.length_replicate, blockSize, encoded]
    congr 2
    omega
  refine ⟨_, by rw [base64DecodeBlock_eq short, whole, Option.map_some], ?_, ?_, ?_⟩
  · simp only [List.length_append, List.length_replicate]
    omega
  · simp only [behind, List.take_left]
  · intro i from_ upTo
    simp only [List.length_append, List.length_replicate] at upTo
    simp only [behind]
    rw [List.getElem?_append_right from_, List.getElem?_replicate, if_pos (by omega)]

/-- Decoding undoes encoding, keeps inside its block for every string, and fails for just the strings
with another character or a length that is no multiple of four. -/
theorem base64_block :
    (∀ text : Bytes, (Base64.encode text).length < 2 ^ 29 →
      ∃ block, base64DecodeBlock (Base64.encode text) = some block ∧
        block.size = 3 * ((text.length + 2) / 3) ∧ block.bytes.take text.length = text ∧
        ∀ i, text.length ≤ i → i ≤ block.size → block.bytes[i]? = some 0) ∧
    ∀ source : Bytes, (0 : UInt8) ∉ source → source.length < 2 ^ 29 →
      Inside memorySize (blockAccesses source) ∧
      (base64DecodeBlock source = none ↔
        (∃ c ∈ source, c ∉ Base64.alphabet ∧ c ≠ 61) ∨ ¬ 4 ∣ source.length) := by
  refine ⟨fun text short => base64DecodeBlock_encode short, fun source nulFree short => ⟨?_, ?_⟩⟩
  · have inside := inside_base64Accesses source
    rwa [base64Accesses, ← allocated_eq short] at inside
  · rw [base64DecodeBlock_eq short, Option.map_eq_none_iff, base64Decode, cstr_of_nul_free nulFree,
      base64Loop_eq_none_iff]
    simp only [base64Value_eq_none_iff, Nat.zero_add, Nat.dvd_iff_mod_eq_zero, and_comm]

/-- The encoding of two bytes. -/
theorem base64_block_hi : ∃ block, base64DecodeBlock (bytes "aGk=") = some block ∧
    block.size = 3 ∧ block.bytes.take 2 = bytes "hi" := by
  have encoded : Base64.encode (bytes "hi") = bytes "aGk=" := by decide
  have length : (Base64.encode (bytes "hi")).length = 4 := rfl
  obtain ⟨block, decoded, size, front, -⟩ := base64_block.1 (bytes "hi") (by omega)
  rw [encoded] at decoded
  exact ⟨block, decoded, size, front⟩

end AuthManager

end NermalProxy
