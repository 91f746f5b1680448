import NermalProxy.HostInfoCache
import NermalProxy.Library.EraseCursor

/-! # The iterator of the cache loops

`GetCachedResults` and `ClearCacheForHost` on the nodes of `m_hostInfo`, with every use of `it`.
Where `it` stays in range they are the operations of the cache; it is advanced behind the end where an
erased entry is the last one. -/

namespace NermalProxy.HostInfoCache

open NermalProxy.CString NermalProxy.EraseLoop NermalProxy.LinkedList

/-- `now turn` is what the `turn`-th `Timestamp()` call of this lookup returns. -/
def getCachedResultsScan (now : Nat → UInt64) (cache : LinkedList HostInfo) :
    Option (EraseScan HostInfo) :=
  eraseScanAll (fun turn entry => expired (now turn) entry) cache

/-- The results are the entries of the host that the body has left. -/
def results (url : Bytes) (scan : EraseScan HostInfo) : List HostInfo :=
  (scan.passed.map Prod.snd).filter (fun entry => entry.url == url)

def clearCacheForHostScan (url : Bytes) (cache : LinkedList HostInfo) : Option (EraseScan HostInfo) :=
  eraseScanAll (fun _ entry => entry.url == url) cache

theorem getCachedResultsScan_refines {now : Nat → UInt64} {cache : LinkedList HostInfo}
    (inRange : StaysInRange (getCachedResultsScan now cache)) (url : Bytes) :
    ∃ scan after, getCachedResultsScan now cache = some scan ∧ scan.left = some after ∧
      (results url scan, after.values) = getCachedResults now url cache.values := by
  obtain ⟨scan, after, scanned, left, passed, kept⟩ := inRange.refines
  refine ⟨scan, after, scanned, left, ?_⟩
  rw [results, passed, kept]
  rfl

theorem clearCacheForHostScan_refines {url : Bytes} {cache : LinkedList HostInfo}
    (inRange : StaysInRange (clearCacheForHostScan url cache)) :
    ∃ scan after, clearCacheForHostScan url cache = some scan ∧ scan.left = some after ∧
      after.values = clearCacheForHost url cache.values := by
  obtain ⟨scan, after, scanned, left, -, kept⟩ := inRange.refines
  exact ⟨scan, after, scanned, left, kept⟩

/-- A lookup's iterator stays in range exactly if no entry that is erased is the last one then, which
for one clock value is an even number of expired entries at the end; that of a purge exactly if an
even number of entries of the host ends the cache. -/
theorem iterator_in_range_iff (cache : LinkedList HostInfo) (url : Bytes) :
    (∀ now : Nat → UInt64, StaysInRange (getCachedResultsScan now cache) ↔
      NoneLast (fun turn entry => expired (now turn) entry) 0 cache.values) ∧
    (∀ now : UInt64, StaysInRange (getCachedResultsScan (fun _ => now) cache) ↔
      Even (cache.values.rtakeWhile (fun entry => expired now entry)).length) ∧
    (StaysInRange (clearCacheForHostScan url cache) ↔
      Even (cache.values.rtakeWhile (fun entry => entry.url == url)).length) := by
  have lookups : ∀ now : Nat → UInt64, StaysInRange (getCachedResultsScan now cache) ↔
      NoneLast (fun turn entry => expired (now turn) entry) 0 cache.values := fun now =>
    (staysInRange_iff _ cache).trans (pastEnd_eq_false_iff _ 0 cache.values)
  refine ⟨lookups, fun now => (lookups _).trans
    (noneLast_iff_even (fun entry => expired now entry) 0 cache.values), ?_⟩
  exact (staysInRange_iff _ cache).trans ((pastEnd_eq_false_iff _ 0 cache.values).trans
    (noneLast_iff_even (fun entry : HostInfo => entry.url == url) 0 cache.values))

/-- The only entry is erased: `it++` has moved the iterator to the end, and the header advances it. -/
theorem only_entry_erased :
    ¬ ∀ (cache : LinkedList HostInfo) (url : Bytes) (now : Nat → UInt64),
      StaysInRange (getCachedResultsScan now cache) ∧ StaysInRange (clearCacheForHostScan url cache) := by
  intro claim
  let entry : HostInfo := ⟨bytes "a.com", bytes "10.0.0.1", 4, 5⟩
  let cache : LinkedList HostInfo := ⟨[⟨0, entry⟩], 1, by simp, by simp⟩
  have inRange := (claim cache (bytes "a.com") (fun _ => 5)).2
  have inside := (staysInRange_iff _ cache).mp inRange
  exact absurd inside (by decide)

end NermalProxy.HostInfoCache
