import NermalProxy.RequestLine

/-! # The port a request names

`requestedPort` is what a first read asks for: the port of a well-formed CONNECT, GET or
POST request, and nothing for any other bytes.  The detector stores the result of a
scan; the lemmas here compare the two. -/

namespace NermalProxy.Detector

open NermalProxy.CString

/-- The port behind a colon: 80 when none is written, else a decimal number in 1..65535. -/
def writtenPort (digits : Bytes) : Option Nat :=
  if digits = [] then some 80
  else if digits.all isDigit = true ∧ 1 ≤ digitsValue digits ∧ digitsValue digits ≤ 65535 then
    some (digitsValue digits)
  else none

/-- The port of `host[:port]`. -/
def authorityPort (authority : Bytes) : Option Nat :=
  if cutAt authority 58 = [] ∨ (0 : UInt8) ∈ cutAt authority 58 then none
  else match strchr authority 58 with
    | some (_ :: digits) => writtenPort digits
    | _ => some 80

/-- What the bytes of a first read ask for, if they are a proxy request. -/
def requestedPort (data : Bytes) : Option Nat :=
  if method data = bytes "CONNECT" then authorityPort (target data)
  else if (method data = bytes "GET" ∨ method data = bytes "POST") ∧
      scheme.isPrefixOf (target data) = true then
    authorityPort (cutAt ((target data).drop 7) 47)
  else none

/-- The parameter of `SetPort` is a `uint16_t`. -/
def narrowed (port : Int) : Nat := (UInt16.ofInt port).toNat

theorem narrowed_natCast (value : Nat) : narrowed (value : Int) = value % 65536 := by
  unfold narrowed UInt16.ofInt
  rw [UInt16.toNat_ofNat']
  omega

/-- The forms of an authority with a port. -/
theorem authorityPort_cases {authority : Bytes} {port : Nat}
    (requested : authorityPort authority = some port) :
    (0 : UInt8) ∉ authority ∧ authority ≠ [] ∧
    (((58 : UInt8) ∉ authority ∧ port = 80) ∨
    ∃ host digits, authority = host ++ 58 :: digits ∧ (58 : UInt8) ∉ host ∧ host ≠ [] ∧
      ((digits = [] ∧ port = 80) ∨
        digits ≠ [] ∧ (∀ c ∈ digits, isDigit c = true) ∧ 1 ≤ port ∧ port ≤ 65535 ∧
          port = digitsValue digits)) := by
  unfold authorityPort at requested
  split at requested
  · cases requested
  · rename_i named
    simp only [not_or] at named
    obtain ⟨nonempty, nulFree⟩ := named
    by_cases colon : (58 : UInt8) ∈ authority
    · obtain ⟨host, digits, rfl, colonFree⟩ := List.eq_append_cons_of_mem colon
      rw [cutAt_append colonFree] at nonempty nulFree
      rw [strchr_append colonFree] at requested
      simp only [writtenPort] at requested
      by_cases unwritten : digits = []
      · rw [if_pos unwritten, Option.some.injEq] at requested
        subst unwritten requested
        exact ⟨by simp [nulFree], by simp, .inr ⟨host, [], rfl, colonFree, nonempty, .inl ⟨rfl, rfl⟩⟩⟩
      · rw [if_neg unwritten] at requested
        by_cases decimal : digits.all isDigit = true ∧ 1 ≤ digitsValue digits ∧ digitsValue digits ≤ 65535
        · rw [if_pos decimal, Option.some.injEq] at requested
          subst requested
          obtain ⟨all, positive, small⟩ := decimal
          have digitsAll := List.all_eq_true.mp all
          refine ⟨?_, by simp, .inr ⟨host, digits, rfl, colonFree, nonempty, .inr
            ⟨unwritten, digitsAll, positive, small, rfl⟩⟩⟩
          intro member
          rcases List.mem_append.mp member with inHost | behind
          · exact nulFree inHost
          · rcases List.mem_cons.mp behind with isColon | inDigits
            · exact absurd isColon (by decide)
            · exact (isDigit_visible (digitsAll 0 inDigits)).2.1 rfl
        · rw [if_neg decimal] at requested
          cases requested
    · rw [cutAt_of_notMem colon] at nonempty nulFree
      rw [strchr_of_notMem colon] at requested
      cases requested
      exact ⟨nulFree, nonempty, .inl ⟨colon, rfl⟩⟩

theorem storedPort_of_notMem {url : Bytes} (colonFree : (58 : UInt8) ∉ url) : storedPort url = 80 := by
  rw [storedPort, strchr_of_notMem colonFree]

theorem storedPort_empty {host : Bytes} (colonFree : (58 : UInt8) ∉ host) :
    storedPort (host ++ [58]) = 80 := by
  rw [storedPort, strchr_append colonFree]
  decide

theorem storedPort_digits {host digits : Bytes} (colonFree : (58 : UInt8) ∉ host)
    (nonempty : digits ≠ []) (all : ∀ c ∈ digits, isDigit c = true)
    (small : digitsValue digits < 2147483648) :
    storedPort (host ++ 58 :: digits) = digitsValue digits := by
  have literal : scanLiteral (bytes ":") (58 :: digits) = some digits := by
    exact scanLiteral_self (spaceless_of_all (by decide)) digits
  rw [storedPort, strchr_append colonFree]
  simp only [scanPort, literal, scanInt_digits nonempty all small]

/-- A port that is named is the one that the scan stores. -/
theorem narrowed_storedPort {authority : Bytes} {port : Nat}
    (requested : authorityPort authority = some port) : narrowed (storedPort authority) = port := by
  obtain ⟨-, -, ⟨colonFree, rfl⟩ | ⟨host, digits, rfl, colonFree, -, ⟨rfl, rfl⟩ |
    ⟨nonempty, all, positive, small, rfl⟩⟩⟩ := authorityPort_cases requested
  · rw [storedPort_of_notMem colonFree]
    rfl
  · rw [storedPort_empty colonFree]
    rfl
  · rw [storedPort_digits colonFree nonempty all (by omega), narrowed_natCast]
    omega

end NermalProxy.Detector
