import Mathlib.Data.Nat.Basic
import NermalProxy.Library.CString
import NermalProxy.Library.EraseLoop
import NermalProxy.Library.Transition

/-! # The host-info cache

`HostInfoCache` holds resolved addresses in insertion order.  Its three operations
run under one lock, so a run of the cache is a sequence of whole operations.
A cursor that the header moves past the end is taken as the end of the loop. -/

namespace NermalProxy.HostInfoCache

open NermalProxy.CString NermalProxy.EraseLoop NermalProxy.Transition

structure HostInfo where
  url : Bytes
  address : Bytes
  ipVersion : UInt8
  timestamp : UInt64
  deriving DecidableEq, Repr

def maxCacheSize : Nat := 2048

/-- In milliseconds. -/
def maxAge : UInt64 := 1800 * 1000

/-- The loop body's first branch; `now` is the clock that `Timestamp()` reads in it. -/
def expired (now : UInt64) (entry : HostInfo) : Bool := now - entry.timestamp > maxAge

/-- `now turn` is what the `turn`-th `Timestamp()` call of this lookup returns. -/
def cachedWalk (now : Nat → UInt64) (cache : List HostInfo) : Walk HostInfo :=
  eraseLoop (fun turn entry => expired (now turn) entry) 0 cache

/-- The results, and the cache the lookup leaves behind. -/
def getCachedResults (now : Nat → UInt64) (url : Bytes) (cache : List HostInfo) :
    List HostInfo × List HostInfo :=
  let walk := cachedWalk now cache
  ((walk.passed.map Prod.snd).filter (fun entry => entry.url == url), walk.kept)

def clearWalk (url : Bytes) (cache : List HostInfo) : Walk HostInfo :=
  eraseLoop (fun _ entry => entry.url == url) 0 cache

def clearCacheForHost (url : Bytes) (cache : List HostInfo) : List HostInfo :=
  (clearWalk url cache).kept

def addResult (entry : HostInfo) (cache : List HostInfo) : List HostInfo :=
  let cache := cache ++ [entry]
  -- the oldest entry, whenever it was last looked up
  if cache.length > maxCacheSize then cache.tail else cache

/-! ## One operation -/

theorem expired_eq_false {now : UInt64} {entry : HostInfo} (young : expired now entry = false) :
    now - entry.timestamp ≤ maxAge := by
  simpa [expired] using young

/-- The unsigned subtraction does not wrap for an entry stamped in the past. -/
theorem age_toNat {now : UInt64} {entry : HostInfo} (past : entry.timestamp ≤ now) :
    (now - entry.timestamp).toNat = now.toNat - entry.timestamp.toNat :=
  UInt64.toNat_sub_of_le _ _ past

theorem getCachedResults_onlyDrops (now : Nat → UInt64) (url : Bytes) (cache : List HostInfo) :
    OnlyDrops (fun entry => ∃ turn < cache.length, maxAge < now turn - entry.timestamp) cache
      (getCachedResults now url cache).2 := by
  apply (eraseLoop_onlyDrops _ 0 cache).mono
  rintro entry - ⟨turn, bound, old⟩
  exact ⟨turn, bound, by simpa [expired] using old⟩

theorem getCachedResults_found {now : Nat → UInt64} {url : Bytes} {cache : List HostInfo}
    {entry : HostInfo} (found : entry ∈ (getCachedResults now url cache).1) :
    entry ∈ cache ∧ entry.url = url ∧
      ∃ turn < cache.length, now turn - entry.timestamp ≤ maxAge := by
  simp only [getCachedResults, List.mem_filter, List.mem_map, beq_iff_eq] at found
  obtain ⟨⟨visit, passed, rfl⟩, sameHost⟩ := found
  obtain ⟨inCache, turn, bound, at_, young⟩ := eraseLoop_passed _ 0 cache visit passed
  exact ⟨inCache, sameHost, visit.1, by omega, expired_eq_false young⟩

theorem getCachedResults_length (now : Nat → UInt64) (url : Bytes) (cache : List HostInfo) :
    (getCachedResults now url cache).1.length ≤ cache.length := by
  have passed := length_passed_le (fun turn entry => expired (now turn) entry) 0 cache
  refine (List.length_filter_le _ _).trans ?_
  rw [List.length_map]
  exact passed

theorem clearCacheForHost_onlyDrops (url : Bytes) (cache : List HostInfo) :
    OnlyDrops (fun entry => entry.url = url) cache (clearCacheForHost url cache) := by
  apply (eraseLoop_onlyDrops _ 0 cache).mono
  rintro entry - ⟨_, _, same⟩
  simpa using same

/-- The front entry goes exactly when the size would exceed the limit. -/
theorem addResult_cases (entry : HostInfo) (cache : List HostInfo) :
    (cache.length + 1 ≤ maxCacheSize ∧ addResult entry cache = cache ++ [entry]) ∨
    (maxCacheSize < cache.length + 1 ∧ addResult entry cache = (cache ++ [entry]).tail) := by
  simp only [addResult]
  split
  · rename_i full
    exact .inr ⟨by simpa using full, rfl⟩
  · rename_i room
    exact .inl ⟨by simpa using room, rfl⟩

theorem addResult_length {entry : HostInfo} {cache : List HostInfo}
    (bounded : cache.length ≤ maxCacheSize) : (addResult entry cache).length ≤ maxCacheSize := by
  rcases addResult_cases entry cache with ⟨room, added⟩ | ⟨_, evicted⟩
  · rw [added]
    simpa using room
  · rw [evicted]
    simpa using bounded

theorem mem_addResult {entry member : HostInfo} {cache : List HostInfo}
    (isMember : member ∈ addResult entry cache) : member = entry ∨ member ∈ cache := by
  have inWhole : member ∈ cache ++ [entry] := by
    rcases addResult_cases entry cache with ⟨_, added⟩ | ⟨_, evicted⟩
    · rwa [added] at isMember
    · rw [evicted] at isMember
      exact List.mem_of_mem_tail isMember
  simpa [or_comm] using inWhole

/-! ## Whole runs -/

/-- A clock that never runs backwards: `reading i j` is what the `j`-th `Timestamp()` call
during the `i`-th operation returns. -/
structure Clock where
  reading : Nat → Nat → UInt64
  within : ∀ i j j', j ≤ j' → reading i j ≤ reading i j'
  between : ∀ i j j', reading i j ≤ reading (i + 1) j'

inductive Operation where
  | addResult (entry : HostInfo)
  | getCachedResults (url : Bytes)
  | clearCacheForHost (url : Bytes)

def Operation.apply (now : Nat → UInt64) (cache : List HostInfo) : Operation → List HostInfo
  | .addResult entry => HostInfoCache.addResult entry cache
  | .getCachedResults url => (HostInfoCache.getCachedResults now url cache).2
  | .clearCacheForHost url => HostInfoCache.clearCacheForHost url cache

/-- The number of operations so far, and the cache. -/
structure State where
  turn : Nat
  cache : List HostInfo

def system (clock : Clock) : System State Operation where
  initial state := state = ⟨0, []⟩
  step state operation next :=
    next = ⟨state.turn + 1, operation.apply (clock.reading state.turn) state.cache⟩

/-- An added entry is stamped no later than its insertion. -/
def Stamped (clock : Clock) (state : State) (operation : Operation) : Prop :=
  ∀ entry, operation = .addResult entry → entry.timestamp ≤ clock.reading state.turn 0

abbrev CacheRun (clock : Clock) (history : List (State × Operation)) (state : State) : Prop :=
  Run (system clock) (Stamped clock) history state

def Added (history : List (State × Operation)) (entry : HostInfo) : Prop :=
  ∃ earlier, (earlier, Operation.addResult entry) ∈ history

/-- The size bound, and where the entries come from. -/
structure Invariant (clock : Clock) (history : List (State × Operation)) (state : State) : Prop where
  bounded : state.cache.length ≤ maxCacheSize
  added : ∀ entry ∈ state.cache, Added history entry
  past : ∀ entry ∈ state.cache, entry.timestamp ≤ clock.reading state.turn 0

theorem mem_apply {operation : Operation} {now : Nat → UInt64} {cache : List HostInfo}
    {entry : HostInfo} (member : entry ∈ operation.apply now cache) :
    entry ∈ cache ∨ operation = .addResult entry := by
  cases operation with
  | addResult new =>
    rcases mem_addResult member with rfl | older
    · exact .inr rfl
    · exact .inl older
  | getCachedResults url =>
    exact .inl ((getCachedResults_onlyDrops now url cache).sublist.subset member)
  | clearCacheForHost url =>
    exact .inl ((clearCacheForHost_onlyDrops url cache).sublist.subset member)

theorem apply_length (operation : Operation) (now : Nat → UInt64) {cache : List HostInfo}
    (bounded : cache.length ≤ maxCacheSize) :
    (operation.apply now cache).length ≤ maxCacheSize := by
  cases operation with
  | addResult entry => exact addResult_length bounded
  | getCachedResults url =>
    exact (getCachedResults_onlyDrops now url cache).sublist.length_le.trans bounded
  | clearCacheForHost url =>
    exact (clearCacheForHost_onlyDrops url cache).sublist.length_le.trans bounded

theorem run_invariant {clock : Clock} {history : List (State × Operation)} {state : State}
    (run : CacheRun clock history state) : Invariant clock history state := by
  apply run.historyInvariant (Invariant clock)
  · rintro state rfl
    exact ⟨by simp, by simp, by simp⟩
  · rintro history state operation next - ⟨bounded, added, past⟩ stamped rfl
    refine ⟨apply_length operation _ bounded, ?_, ?_⟩
    · intro entry member
      rcases mem_apply member with older | rfl
      · obtain ⟨earlier, recorded⟩ := added entry older
        exact ⟨earlier, by simp [recorded]⟩
      · exact ⟨state, by simp⟩
    · intro entry member
      rcases mem_apply member with older | rfl
      · exact UInt64.le_trans (past entry older) (clock.between state.turn 0 0)
      · exact UInt64.le_trans (stamped entry rfl) (clock.between state.turn 0 0)

/-- The clock has not passed an entry's stamp since the entry went in. -/
theorem Invariant.past_reading {clock : Clock} {history : List (State × Operation)} {state : State}
    (invariant : Invariant clock history state) {entry : HostInfo} (member : entry ∈ state.cache)
    (turn : Nat) : entry.timestamp ≤ clock.reading state.turn turn :=
  UInt64.le_trans (invariant.past entry member) (clock.within state.turn 0 turn (Nat.zero_le _))

/-- Over every run: the size limit, the provenance and age of what a lookup returns (the age
is taken at a clock reading of that lookup), and what each operation may remove. -/
theorem cache_sound {clock : Clock} {history : List (State × Operation)} {state : State}
    (run : CacheRun clock history state) :
    state.cache.length ≤ 2048 ∧
    (∀ url, (∀ entry ∈ (getCachedResults (clock.reading state.turn) url state.cache).1,
        entry.url = url ∧ Added history entry ∧ ∃ turn < state.cache.length,
          entry.timestamp ≤ clock.reading state.turn turn ∧
          (clock.reading state.turn turn).toNat - entry.timestamp.toNat ≤ 1800000) ∧
      OnlyDrops (fun entry => ∃ turn < state.cache.length,
          1800000 < (clock.reading state.turn turn).toNat - entry.timestamp.toNat) state.cache
        (getCachedResults (clock.reading state.turn) url state.cache).2) ∧
    (∀ url, OnlyDrops (fun entry => entry.url = url) state.cache
      (clearCacheForHost url state.cache)) ∧
    (∀ entry, (state.cache.length + 1 ≤ 2048 ∧
        addResult entry state.cache = state.cache ++ [entry]) ∨
      (2048 < state.cache.length + 1 ∧
        addResult entry state.cache = (state.cache ++ [entry]).tail)) := by
  have invariant := run_invariant run
  refine ⟨invariant.bounded, ?_, ?_, ?_⟩
  · intro url
    constructor
    · intro entry found
      obtain ⟨member, sameHost, turn, bound, young⟩ := getCachedResults_found found
      have past := invariant.past_reading member turn
      refine ⟨sameHost, invariant.added entry member, turn, bound, past, ?_⟩
      rw [← age_toNat past]
      exact UInt64.le_iff_toNat_le.mp young
    · apply (getCachedResults_onlyDrops _ url state.cache).mono
      rintro entry member ⟨turn, bound, old⟩
      refine ⟨turn, bound, ?_⟩
      rw [← age_toNat (invariant.past_reading member turn)]
      exact UInt64.lt_iff_toNat_lt.mp old
  · exact fun url => clearCacheForHost_onlyDrops url state.cache
  · exact fun entry => addResult_cases entry state.cache

/-- After a first address has been added. -/
theorem cache_sound_add : ∃ (now : Nat → UInt64) (cache : List HostInfo), cache.length = 1 ∧
    cache.length ≤ 2048 ∧
    ∀ entry ∈ (getCachedResults now (bytes "example.com") cache).1, entry.url = bytes "example.com" := by
  let clock : Clock := ⟨fun _ _ => 5, fun _ _ _ _ => by decide, fun _ _ _ => by decide⟩
  let entry : HostInfo := ⟨bytes "example.com", bytes "10.0.0.9", 4, 5⟩
  have stamped : Stamped clock ⟨0, []⟩ (.addResult entry) := by
    rintro added ⟨⟩
    decide
  have run : CacheRun clock [(⟨0, []⟩, .addResult entry)] ⟨1, [entry]⟩ :=
    .snoc (.start rfl) stamped rfl
  obtain ⟨bounded, lookups, -, -⟩ := cache_sound run
  exact ⟨clock.reading 1, [entry], rfl, bounded, fun found member =>
    ((lookups (bytes "example.com")).1 found member).1⟩

end NermalProxy.HostInfoCache
