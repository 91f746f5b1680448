import NermalProxy.HostInfoCache

/-! # What a lookup and a purge leave in the cache

Both loops erase with `erase(it++)` under a header that advances the cursor again, so
the entry behind an erased one is not looked at.  They filter the cache exactly when no
such entry had to go or had to be found. -/

namespace NermalProxy.HostInfoCache

open NermalProxy.CString NermalProxy.EraseLoop

/-- In milliseconds. -/
def age (now : UInt64) (entry : HostInfo) : Nat := now.toNat - entry.timestamp.toNat

/-- What a lookup is for: the young entries of the host, and the young entries of any host left. -/
def youngEntries (now : UInt64) (url : Bytes) (cache : List HostInfo) :
    List HostInfo × List HostInfo :=
  (cache.filter (fun entry => decide (age now entry ≤ 1800000) && entry.url == url),
    cache.filter (fun entry => decide (age now entry ≤ 1800000)))

theorem expired_iff_age {now : UInt64} {entry : HostInfo} (past : entry.timestamp ≤ now) :
    expired now entry = true ↔ 1800000 < age now entry := by
  have limit : maxAge.toNat = 1800000 := by decide
  unfold expired age
  rw [decide_eq_true_iff, gt_iff_lt, UInt64.lt_iff_toNat_lt, age_toNat past, limit]

theorem not_expired_eq {now : UInt64} {entry : HostInfo} (past : entry.timestamp ≤ now) :
    (!expired now entry) = decide (age now entry ≤ 1800000) := by
  have sameAge := expired_iff_age past
  cases old : expired now entry with
  | true =>
    have exceeds := sameAge.mp old
    simp only [Bool.not_true]
    exact (decide_eq_false (by omega)).symm
  | false =>
    have within : ¬ 1800000 < age now entry := fun exceeds => by
      rw [sameAge.mpr exceeds] at old
      cases old
    simp only [Bool.not_false]
    exact (decide_eq_true (by omega)).symm

/-- A lookup answers and prunes exactly when no entry that has to go stands in front of another
one, or in front of an entry that is looked for. -/
theorem lookup_exact_iff {now : UInt64} {cache : List HostInfo}
    (past : ∀ entry ∈ cache, entry.timestamp ≤ now) (url : Bytes) :
    getCachedResults (fun _ => now) url cache = youngEntries now url cache ↔
      cache.IsChain (fun entry next =>
        1800000 < age now entry → age now next ≤ 1800000 ∧ next.url ≠ url) := by
  have exact_ := eraseLoop_exact_iff (expired now) (fun entry => entry.url == url) 0 cache
  have stays : cache.filter (fun entry => !expired now entry) = (youngEntries now url cache).2 :=
    List.filter_congr (fun entry member => not_expired_eq (past entry member))
  have found : cache.filter (fun entry => !expired now entry && entry.url == url) =
      (youngEntries now url cache).1 :=
    List.filter_congr (fun entry member => by rw [not_expired_eq (past entry member)])
  have chains : cache.IsChain (fun entry next =>
      expired now entry = true → expired now next = false ∧ (next.url == url) = false) ↔
      cache.IsChain (fun entry next =>
        1800000 < age now entry → age now next ≤ 1800000 ∧ next.url ≠ url) := by
    apply List.IsChain.iff_of_mem_imp
    intro entry next entryIn nextIn
    have nextYoung := not_expired_eq (past next nextIn)
    rw [expired_iff_age (past entry entryIn), ← Bool.not_eq_true', nextYoung, decide_eq_true_iff,
      beq_eq_false_iff_ne]
  rw [← chains, ← exact_, stays, found]
  simp only [getCachedResults, cachedWalk, Prod.ext_iff]
  exact and_comm

/-- One expired entry between two that are young. -/
theorem lookup_exact_iff_pruned :
    let now : UInt64 := 2000000
    let a : HostInfo := ⟨bytes "a.com", bytes "10.0.0.1", 4, 1000000⟩
    let old : HostInfo := ⟨bytes "a.com", bytes "10.0.0.2", 4, 0⟩
    let b : HostInfo := ⟨bytes "b.com", bytes "10.0.0.3", 4, 1000000⟩
    getCachedResults (fun _ => now) (bytes "a.com") [a, old, b] = ([a], [a, b]) := by
  intro now a old b
  have past : ∀ entry ∈ [a, old, b], entry.timestamp ≤ now := by decide
  rw [(lookup_exact_iff past (bytes "a.com")).mpr (by decide)]
  decide

/-- A young entry behind an expired one is not found. -/
theorem lookup_misses_entry :
    ¬ ∀ (now : UInt64) (cache : List HostInfo), (∀ entry ∈ cache, entry.timestamp ≤ now) →
      ∀ url, getCachedResults (fun _ => now) url cache = youngEntries now url cache := by
  intro claim
  have same := claim 2000000
    [⟨bytes "b.com", bytes "10.0.0.2", 4, 0⟩, ⟨bytes "a.com", bytes "10.0.0.1", 4, 1000000⟩]
    (by decide) (bytes "a.com")
  exact absurd same (by decide)

/-! ## Purging a host -/

/-- The operations that follow a purge, with the clock of each. -/
def afterwards (cache : List HostInfo) (operations : List ((Nat → UInt64) × Operation)) :
    List HostInfo :=
  operations.foldl (fun cache operation => operation.2.apply operation.1 cache) cache

/-- No operation adds an address of the host. -/
def AddsNone (url : Bytes) (operations : List ((Nat → UInt64) × Operation)) : Prop :=
  ∀ operation ∈ operations, ∀ entry, operation.2 = .addResult entry → entry.url ≠ url

theorem afterwards_absent {url : Bytes} {cache : List HostInfo}
    {operations : List ((Nat → UInt64) × Operation)} (absent : ∀ entry ∈ cache, entry.url ≠ url)
    (addsNone : AddsNone url operations) : ∀ entry ∈ afterwards cache operations, entry.url ≠ url := by
  induction operations generalizing cache with
  | nil => exact absent
  | cons operation operations inductionHypothesis =>
    apply inductionHypothesis
    · intro entry member
      rcases mem_apply member with older | added
      · exact absent entry older
      · exact addsNone operation List.mem_cons_self entry added
    · exact fun later member => addsNone later (List.mem_cons_of_mem _ member)

theorem clearCacheForHost_iff (url : Bytes) (cache : List HostInfo) :
    clearCacheForHost url cache = cache.filter (fun entry => entry.url != url) ↔
      cache.IsChain (fun entry next => entry.url = url → next.url ≠ url) := by
  have exact_ := eraseLoop_exact_iff (fun entry : HostInfo => entry.url == url) (fun _ => false) 0 cache
  simp only [List.filter_false, Bool.and_false, and_true, beq_iff_eq, beq_eq_false_iff_ne] at exact_
  exact exact_

/-- A purge purges all of the host, and the host stays unknown until an address of it is added,
exactly when no two of its entries stand next to each other. -/
theorem purge_iff (url : Bytes) (cache : List HostInfo) :
    (clearCacheForHost url cache = cache.filter (fun entry => entry.url != url) ∧
      ∀ operations, AddsNone url operations → ∀ now,
        (getCachedResults now url (afterwards (clearCacheForHost url cache) operations)).1 = []) ↔
      cache.IsChain (fun entry next => entry.url = url → next.url ≠ url) := by
  rw [← clearCacheForHost_iff]
  constructor
  · exact And.left
  · intro purged
    refine ⟨purged, fun operations addsNone now => ?_⟩
    have absent : ∀ entry ∈ clearCacheForHost url cache, entry.url ≠ url := by
      rw [purged]
      intro entry member
      simpa using (List.mem_filter.mp member).2
    rw [List.eq_nil_iff_forall_not_mem]
    intro entry found
    obtain ⟨member, sameHost, -⟩ := getCachedResults_found found
    exact afterwards_absent absent addsNone entry member sameHost

/-- What two workers added that missed at the same time. -/
theorem purge_leaves_duplicate :
    ¬ ∀ (url : Bytes) (cache : List HostInfo),
      clearCacheForHost url cache = cache.filter (fun entry => entry.url != url) ∧
      ∀ operations, AddsNone url operations → ∀ now,
        (getCachedResults now url (afterwards (clearCacheForHost url cache) operations)).1 = [] := by
  intro claim
  have purged := (claim (bytes "a.com")
    [⟨bytes "a.com", bytes "10.0.0.1", 4, 5⟩, ⟨bytes "a.com", bytes "10.0.0.1", 4, 6⟩]).1
  exact absurd purged (by decide)

end NermalProxy.HostInfoCache
