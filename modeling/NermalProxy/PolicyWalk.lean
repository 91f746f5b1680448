import NermalProxy.Policy
import NermalProxy.Session

/-! # The loops of the filter decision

`isAllowed` walks the domains of two users by index, with one output string and one index
for both loops.  Here the loops are as they stand, turn by turn: they end, and what they
return is the decision of `Policy`. -/

namespace NermalProxy

open NermalProxy.CString NermalProxy.KeyedList

namespace UserPolicyList

/-- `GetUserDomain` with its output parameter, which a call that fails leaves as it was. -/
def getUserDomainInto (policies : List UserPolicy) (idx : Nat) (user domain : Bytes) : Bool × Bytes :=
  match getUserDomain policies idx user with
  | some found => (true, found)
  | none => (false, domain)

end UserPolicyList

open BlacklistList UserPolicyList

/-- One of the two loops: `allowed` and `domain` behind it, `none` while it is still running after
this many turns. -/
def walkDomains (lists : List Blacklist) (policies : List UserPolicy) (user host : Bytes) :
    (turns idx : Nat) → (domain : Bytes) → Option (Bool × Bytes)
  | 0, _, _ => none
  | turns + 1, idx, domain =>
    match getUserDomainInto policies idx user domain with
    | (false, domain) => some (true, domain)
    | (true, domain) =>
      if !isAllowedInList lists domain host then some (false, domain)
      else walkDomains lists policies user host turns (idx + 1) domain

/-- `isAllowed`, with this many turns for each loop. -/
def isAllowedWalk (lists : List Blacklist) (policies : List UserPolicy) (session : Session)
    (turns : Nat) : Option Bool :=
  match walkDomains lists policies session.userName session.hostUrl turns 0 [] with
  | none => none
  | some (false, _) => some false
  -- the second loop starts with what the first has left in `domain`
  | some (true, domain) =>
    (walkDomains lists policies globalDomain session.hostUrl turns 0 domain).map Prod.fst

/-- The first list of this name exists and does not hold the host. -/
def Permits (lists : List Blacklist) (host domain : Bytes) : Prop :=
  ∃ list, lookup Blacklist.name domain lists = some list ∧ host ∉ list.blacklist

/-- Every domain of the first policy named after the user permits the host. -/
def PolicyPermits (lists : List Blacklist) (policies : List UserPolicy) (host user : Bytes) : Prop :=
  ∀ policy, lookup UserPolicy.name user policies = some policy →
    ∀ domain ∈ policy.domains, Permits lists host domain

variable {lists : List Blacklist} {policies : List UserPolicy} {user host : Bytes}

/-- A loop with more turns than domains are left ends, with the decision on these domains. -/
theorem walkDomains_ends (lists : List Blacklist) (host : Bytes) {turns : Nat} :
    ∀ {idx} (domain : Bytes), idx ≤ (userDomains policies user).length →
      (userDomains policies user).length < idx + turns →
      ∃ left, walkDomains lists policies user host turns idx domain =
        some (allowedFrom lists policies user host turns idx, left) := by
  induction turns with
  | zero =>
    intro idx domain inside enough
    omega
  | succ turns inductionHypothesis =>
    intro idx domain inside enough
    simp only [walkDomains, allowedFrom, getUserDomainInto, getUserDomain_eq]
    cases found : (userDomains policies user)[idx]? with
    | none => exact ⟨domain, rfl⟩
    | some next =>
      have here : idx < (userDomains policies user).length := (List.getElem?_eq_some_iff.mp found).1
      cases permitted : isAllowedInList lists next host with
      | false => exact ⟨next, by simp [permitted]⟩
      | true =>
        obtain ⟨left, rest⟩ := inductionHypothesis next here (by omega)
        exact ⟨left, by simp [permitted, rest]⟩

theorem walkDomains_all (lists : List Blacklist) (host : Bytes) {turns : Nat} (domain : Bytes)
    (enough : (userDomains policies user).length < turns) :
    ∃ allowed left, walkDomains lists policies user host turns 0 domain = some (allowed, left) ∧
      (allowed = true ↔ ∀ domain ∈ userDomains policies user, isAllowedInList lists domain host = true) := by
  obtain ⟨left, ends⟩ := walkDomains_ends lists host domain (Nat.zero_le _)
    (by omega : (userDomains policies user).length < 0 + turns)
  refine ⟨_, left, ends, ?_⟩
  rw [allowedFrom_iff lists host 0 (by omega), List.drop_zero]

theorem forall_userDomains_iff :
    (∀ domain ∈ userDomains policies user, isAllowedInList lists domain host = true) ↔
      PolicyPermits lists policies host user := by
  unfold userDomains PolicyPermits
  cases lookup UserPolicy.name user policies with
  | none => simp
  | some policy => simp [isAllowedInList_iff, Permits]

/-- The walk ends, and allows exactly what every domain of the user's first policy and of the first
global one permits. -/
theorem policy_walk (lists : List Blacklist) (policies : List UserPolicy) (session : Session) :
    ∃ allowed enough,
      (∀ turns, enough ≤ turns → isAllowedWalk lists policies session turns = some allowed) ∧
      (allowed = true ↔
        PolicyPermits lists policies session.hostUrl session.userName ∧
        PolicyPermits lists policies session.hostUrl globalDomain) := by
  refine ⟨isAllowed lists policies session.userName session.hostUrl,
    (userDomains policies session.userName).length + (userDomains policies globalDomain).length + 1, ?_, ?_⟩
  · intro turns enough
    obtain ⟨allowed, domain, first, firstIff⟩ := walkDomains_all lists session.hostUrl []
      (by omega : (userDomains policies session.userName).length < turns)
    obtain ⟨globally, left, second, secondIff⟩ := walkDomains_all lists session.hostUrl domain
      (by omega : (userDomains policies globalDomain).length < turns)
    have decision : isAllowed lists policies session.userName session.hostUrl = true ↔ _ := isAllowed_iff
    rw [← firstIff, ← secondIff] at decision
    unfold isAllowedWalk
    rw [first]
    cases allowed with
    | false =>
      simp only [Bool.false_eq_true, false_and, iff_false, Bool.not_eq_true] at decision
      exact congrArg some decision.symm
    | true =>
      simp only [true_and, second, Option.map_some] at decision ⊢
      exact congrArg some (Bool.eq_iff_iff.mpr decision).symm
  · rw [isAllowed_iff, forall_userDomains_iff, forall_userDomains_iff]

end NermalProxy
