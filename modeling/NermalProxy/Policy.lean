import NermalProxy.Blacklist

/-! # Policies and the filter decision

A policy names the lists that apply to a user.  `isAllowed` asks for the domains of the
session's user and then for those of the reserved user `<global>`, by index until an
index is past the end. -/

namespace NermalProxy

open NermalProxy.CString NermalProxy.KeyedList

structure UserPolicy where
  name : Bytes
  domains : List Bytes
  deriving DecidableEq, Repr

namespace UserPolicy

def getDomain (policy : UserPolicy) (idx : Nat) : Option Bytes := policy.domains[idx]?

end UserPolicy

namespace UserPolicyList

def getUserDomain (policies : List UserPolicy) (idx : Nat) (user : Bytes) : Option Bytes :=
  match lookup UserPolicy.name user policies with
  | some policy => policy.getDomain idx
  | none => none

/-- What `GetUserDomain` returns for 0, 1, … until it fails. -/
def userDomains (policies : List UserPolicy) (user : Bytes) : List Bytes :=
  match lookup UserPolicy.name user policies with
  | some policy => policy.domains
  | none => []

theorem getUserDomain_eq (policies : List UserPolicy) (idx : Nat) (user : Bytes) :
    getUserDomain policies idx user = (userDomains policies user)[idx]? := by
  unfold getUserDomain userDomains
  cases lookup UserPolicy.name user policies with
  | none => rfl
  | some policy => rfl

end UserPolicyList

open BlacklistList UserPolicyList

def globalDomain : Bytes := bytes "<global>"

/-- The loop over the domains of one user, from `idx` on; `budget` bounds the turns. -/
def allowedFrom (lists : List Blacklist) (policies : List UserPolicy) (user host : Bytes) :
    (budget idx : Nat) → Bool
  | 0, _ => true
  | budget + 1, idx =>
    match getUserDomain policies idx user with
    | none => true
    | some domain =>
      if !isAllowedInList lists domain host then false
      else allowedFrom lists policies user host budget (idx + 1)

/-- No user has more domains than its policy holds, so the loops end within their budget. -/
def allowedInDomains (lists : List Blacklist) (policies : List UserPolicy) (user host : Bytes) : Bool :=
  allowedFrom lists policies user host ((userDomains policies user).length + 1) 0

def isAllowed (lists : List Blacklist) (policies : List UserPolicy) (userName host : Bytes) : Bool :=
  if allowedInDomains lists policies userName host then
    allowedInDomains lists policies globalDomain host
  else false

theorem allowedFrom_iff (lists : List Blacklist) {policies : List UserPolicy} {user : Bytes}
    (host : Bytes) {budget : Nat} :
    ∀ idx, (userDomains policies user).length < idx + budget →
      (allowedFrom lists policies user host budget idx = true ↔
        ∀ domain ∈ (userDomains policies user).drop idx,
          isAllowedInList lists domain host = true) := by
  induction budget with
  | zero =>
    intro idx enough
    have past : (userDomains policies user).drop idx = [] := List.drop_eq_nil_of_le (by omega)
    simp [allowedFrom, past]
  | succ budget inductionHypothesis =>
    intro idx enough
    by_cases inside : idx < (userDomains policies user).length
    · have remaining := inductionHypothesis (idx + 1) (by omega)
      rw [List.drop_eq_getElem_cons inside, List.forall_mem_cons, ← remaining]
      simp only [allowedFrom, getUserDomain_eq, List.getElem?_eq_getElem inside]
      cases isAllowedInList lists (userDomains policies user)[idx] host <;> simp
    · have past : (userDomains policies user).drop idx = [] := List.drop_eq_nil_of_le (by omega)
      have absent : (userDomains policies user)[idx]? = none := List.getElem?_eq_none (by omega)
      simp [allowedFrom, getUserDomain_eq, past, absent]

theorem allowedInDomains_iff {lists : List Blacklist} {policies : List UserPolicy}
    {user host : Bytes} :
    allowedInDomains lists policies user host = true ↔
      ∀ domain ∈ userDomains policies user, isAllowedInList lists domain host = true := by
  have enough : (userDomains policies user).length < 0 + ((userDomains policies user).length + 1) := by
    omega
  simpa [allowedInDomains] using allowedFrom_iff lists host 0 enough

theorem isAllowed_iff {lists : List Blacklist} {policies : List UserPolicy} {userName host : Bytes} :
    isAllowed lists policies userName host = true ↔
      (∀ domain ∈ userDomains policies userName, isAllowedInList lists domain host = true) ∧
      ∀ domain ∈ userDomains policies globalDomain, isAllowedInList lists domain host = true := by
  rw [← allowedInDomains_iff, ← allowedInDomains_iff]
  unfold isAllowed
  cases allowedInDomains lists policies userName host <;> simp

end NermalProxy
