import NermalProxy.Library.Printf

/-! # Log lines

`Log` formats a line into an array of 1024 bytes: the time, the tag of the severity, the
message and a NUL.  Nothing limits the message. -/

namespace NermalProxy.Log

open NermalProxy.CString

inductive LogSeverity
  | error
  | warn
  | info
  | debug
  | verbose
  deriving DecidableEq, Repr

def LogSeverity.toNat : LogSeverity → Nat
  | .error => 0
  | .warn => 1
  | .info => 2
  | .debug => 3
  | .verbose => 4

def bufferSize : Nat := 1024

/-- `"[%04lu.%03lu]"` of `ts / 1000` and `ts % 1000`. -/
def stamp (timestamp : UInt64) : Bytes :=
  bytes "[" ++ zeroPadded 4 (timestamp.toNat / 1000) ++ bytes "." ++
    zeroPadded 3 (timestamp.toNat % 1000) ++ bytes "]"

/-- The `switch` over the severity has no case for `Verbose`. -/
def tag : LogSeverity → Bytes
  | .error => bytes "\tERR\t"
  | .warn => bytes "\tWRN\t"
  | .info => bytes "\tNFO\t"
  | .debug => bytes "\tDBG\t"
  | .verbose => []

/-- A call of `Log`, with the text that its format and arguments make. -/
structure Call where
  severity : LogSeverity
  message : Bytes
  deriving DecidableEq, Repr

namespace Call

def debug (message : Bytes) : Call := ⟨.debug, message⟩

/-- Anything above the verbosity returns at once. -/
def emitted (verbosity : LogSeverity) (call : Call) : Bool :=
  !decide (verbosity.toNat < call.severity.toNat)

def line (timestamp : UInt64) (call : Call) : Bytes :=
  stamp timestamp ++ tag call.severity ++ call.message

/-- At any time up to `latest` the line and its NUL fit the array. -/
def Fits (verbosity : LogSeverity) (latest : UInt64) (call : Call) : Prop :=
  call.emitted verbosity = true →
    ∀ timestamp ≤ latest, (call.line timestamp).length + 1 ≤ bufferSize

end Call

/-- What the time, a tag and the NUL leave for the message. -/
def messageRoom (latest : UInt64) : Nat := bufferSize - ((stamp latest).length + 5 + 1)

theorem stamp_length (timestamp : UInt64) :
    (stamp timestamp).length = 6 + max 4 (decimal (timestamp.toNat / 1000)).length := by
  have fraction : (decimal (timestamp.toNat % 1000)).length ≤ 3 :=
    (decimal_length_le_iff (by omega)).mpr (Nat.mod_lt _ (by omega))
  have brackets : (bytes "[").length = 1 ∧ (bytes ".").length = 1 ∧ (bytes "]").length = 1 := by decide
  simp only [stamp, List.length_append, zeroPadded_length, brackets]
  omega

theorem stamp_length_mono {timestamp latest : UInt64} (before : timestamp ≤ latest) :
    (stamp timestamp).length ≤ (stamp latest).length := by
  rw [UInt64.le_iff_toNat_le] at before
  have seconds : timestamp.toNat / 1000 ≤ latest.toNat / 1000 := Nat.div_le_div_right before
  have digits := decimal_length_mono seconds
  rw [stamp_length, stamp_length]
  omega

/-- The clock has 64 bits, so there are 17 digits of seconds at most. -/
theorem stamp_length_le (timestamp : UInt64) : (stamp timestamp).length ≤ 23 := by
  have bound := timestamp.toNat_lt
  have seconds : timestamp.toNat / 1000 < 10 ^ 17 := by omega
  have digits := (decimal_length_le_iff (by omega : 0 < 17)).mpr seconds
  rw [stamp_length]
  omega

theorem tag_length_le (severity : LogSeverity) : (tag severity).length ≤ 5 := by
  cases severity <;> decide

section Fits

variable {verbosity : LogSeverity} {latest : UInt64}

theorem fits_of_room {call : Call} (room : call.message.length ≤ messageRoom latest) :
    call.Fits verbosity latest := by
  intro _ timestamp before
  have time := stamp_length_mono before
  have longest := stamp_length_le latest
  have tagged := tag_length_le call.severity
  simp only [messageRoom, bufferSize] at room
  simp only [Call.line, List.length_append, bufferSize]
  omega

/-- Whatever is not made of a client's text is far shorter. -/
theorem fits_of_short {call : Call} (short : call.message.length ≤ 900) :
    call.Fits verbosity latest := by
  apply fits_of_room
  have longest := stamp_length_le latest
  simp only [messageRoom, bufferSize]
  omega

theorem emitted_iff {call : Call} :
    call.emitted verbosity = true ↔ ¬ verbosity.toNat < call.severity.toNat := by
  unfold Call.emitted
  rw [Bool.not_eq_true', decide_eq_false_iff_not]

theorem fits_debug_iff {message : Bytes} :
    (Call.debug message).Fits verbosity latest ↔
      verbosity.toNat < LogSeverity.debug.toNat ∨ message.length ≤ messageRoom latest := by
  constructor
  · intro fits
    by_cases quiet : verbosity.toNat < LogSeverity.debug.toNat
    · exact .inl quiet
    · have emitted : (Call.debug message).emitted verbosity = true := emitted_iff.mpr quiet
      have bound := fits emitted latest UInt64.le_rfl
      have tagged : (tag .debug).length = 5 := by decide
      simp only [Call.line, Call.debug, List.length_append, tagged] at bound
      refine .inr ?_
      simp only [messageRoom]
      omega
  · rintro (quiet | room)
    · exact fun emitted => absurd quiet (emitted_iff.mp emitted)
    · exact fits_of_room room

end Fits

end NermalProxy.Log
