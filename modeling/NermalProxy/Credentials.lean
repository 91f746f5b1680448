import NermalProxy.Library.CString

/-! # The credentials in a stored request

`HandleCommandSocketRead` looks for the first `Proxy-Authorization: Basic ` in the
stored request and reads one word behind it. -/

namespace NermalProxy.Credentials

open NermalProxy.CString

def authHeader : Bytes := bytes "Proxy-Authorization: Basic "

/-- `sscanf(authString, "Proxy-Authorization: Basic %1024s", rawCreds)`; `none` unless it returns 1. -/
def scanCredentials (authString : Bytes) : Option Bytes :=
  match scanLiteral authHeader authString with
  | none => none
  | some rest => (scanString 1024 rest).map Prod.fst

/-- Whether the header text is there, and what is read behind it. -/
def authorization (request : Bytes) : Option (Option Bytes) :=
  (strstr request authHeader).map scanCredentials

/-- How far the search and the scan look into the request. -/
def authorizationEnd (request : Bytes) : Nat :=
  match strstr request authHeader with
  | none => 0
  | some authString =>
    request.length - authString.length + authHeader.length +
      scanEnd (authString.drop authHeader.length)

/-- Behind the header text, which the format matches, one word is read. -/
theorem scanCredentials_append (rest : Bytes) :
    scanCredentials (authHeader ++ rest) = (scanString 1024 rest).map Prod.fst := by
  have name : ∀ c ∈ bytes "Proxy-Authorization:", isSpace c = false :=
    spaceless_of_all (by decide)
  have scheme : IsWord (bytes "Basic") := by decide
  have split : authHeader = bytes "Proxy-Authorization:" ++ 32 :: (bytes "Basic" ++ [32]) := by decide
  have matched : scanLiteral authHeader (authHeader ++ rest) = some (skipSpace rest) := by
    conv_lhs => rw [split]
    rw [List.append_assoc, scanLiteral_append, scanLiteral_self name, Option.bind_some,
      scanLiteral_space, List.cons_append, List.append_assoc, skipSpace_space,
      skipSpace_of_spaceless scheme, scanLiteral_append, scanLiteral_self scheme.2, Option.bind_some,
      List.singleton_append, scanLiteral_space, skipSpace_space]
    rfl
  rw [scanCredentials, matched]
  simp only [scanString_skipSpace]

theorem authString_split {request authString : Bytes}
    (occurs : strstr request authHeader = some authString) :
    ∃ rest, authString = authHeader ++ rest := by
  obtain ⟨rest, split⟩ := List.isPrefixOf_iff_prefix.mp (strstr_isSome_isPrefixOf occurs).1
  exact ⟨rest, split.symm⟩

/-- A cut behind what was looked at finds the same credentials. -/
theorem authorization_take {request : Bytes} {n : Nat} (reaches : authorizationEnd request ≤ n) :
    authorization (request.take n) = authorization request := by
  cases occurs : strstr request authHeader with
  | none => simp [authorization, strstr_take_none occurs, occurs]
  | some authString =>
    obtain ⟨rest, split⟩ := authString_split occurs
    have shorter := (strstr_isSome_isPrefixOf occurs).2
    simp only [authorizationEnd, occurs] at reaches
    have cut := strstr_take occurs (by omega : _ ≤ n)
    simp only [authorization, cut, occurs, Option.map_some, Option.some.injEq]
    subst split
    simp only [List.drop_left] at reaches
    rw [List.take_append, List.take_of_length_le (by omega), scanCredentials_append,
      scanCredentials_append]
    exact scanString_take (by omega)

end NermalProxy.Credentials
