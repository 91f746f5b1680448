import NermalProxy.HostInfoCache
import NermalProxy.Session

/-! # The clock

`Timestamp` is to return milliseconds, and all its users take it for that.  It divides the
nanoseconds of a reading by ten million: the part below a second is counted in units of ten
milliseconds, as if they were milliseconds. -/

namespace NermalProxy

/-- What `clock_gettime` stores for `CLOCK_MONOTONIC`. -/
structure Timespec where
  sec : Nat
  nsec : Nat
  nsec_lt : nsec < 1000000000
  /-- The seconds in milliseconds are a `long`. -/
  fits : 1000 * sec < 9223372036854775808

/-- `Timestamp`. -/
def timestamp (ts : Timespec) : UInt64 := UInt64.ofNat (ts.sec * 1000 + ts.nsec / 10000000)

namespace Timespec

variable {first second : Timespec}

def nanoseconds (ts : Timespec) : Nat := 1000000000 * ts.sec + ts.nsec

/-- In nanoseconds. -/
def elapsed (first second : Timespec) : Nat := second.nanoseconds - first.nanoseconds

/-- A number of milliseconds is within one of a time in nanoseconds. -/
def Near (milliseconds nanoseconds : Nat) : Prop :=
  1000000 * milliseconds ≤ nanoseconds + 1000000 ∧ nanoseconds ≤ 1000000 * (milliseconds + 1)

/-- Comparing a count with a limit compares the time, up to a millisecond. -/
structure Keeps (exceeds : Bool) (limit nanoseconds : Nat) : Prop where
  late : exceeds = true → 1000000 * limit ≤ nanoseconds
  early : exceeds = false → nanoseconds ≤ 1000000 * (limit + 1)

/-- Two calls of `Timestamp` tell the time between them, and so do their users: the cache the age of
an entry, the statistics the duration of a session, the audit log the time since it was written. -/
structure MeasuresMilliseconds (first second : Timespec) : Prop where
  notSmaller : timestamp first ≤ timestamp second
  difference : Near (timestamp second - timestamp first).toNat (elapsed first second)
  age : ∀ entry : HostInfoCache.HostInfo, entry.timestamp = timestamp first →
    Keeps (HostInfoCache.expired (timestamp second) entry) 1800000 (elapsed first second)
  connectionTime : ∀ (session : Session) (site : SiteStats), session.timestamp = timestamp first →
    ∃ added, Near added (elapsed first second) ∧
      (site.record (timestamp second - session.timestamp) session.clientRxBytes
        session.clientTxBytes).totalTime = site.totalTime + UInt64.ofNat added
  interval : ∀ stats : GlobalStats, stats.lastLogTime = timestamp first →
    Keeps (stats.readyToLog (timestamp second)) 86400000 (elapsed first second)

/-- The distance of the parts below a second. -/
def apart (first second : Timespec) : Nat := (second.nsec - first.nsec) + (first.nsec - second.nsec)

/-! ## Two readings -/

/-- What the division leaves out. -/
theorem nsec_split (ts : Timespec) :
    10000000 * (ts.nsec / 10000000) ≤ ts.nsec ∧ ts.nsec < 10000000 * (ts.nsec / 10000000 + 1) :=
  ⟨Nat.mul_div_le _ _, Nat.lt_mul_div_succ _ (by decide)⟩

theorem timestamp_toNat (ts : Timespec) : (timestamp ts).toNat = 1000 * ts.sec + ts.nsec / 10000000 := by
  have small : ts.nsec / 10000000 < 100 := Nat.div_lt_of_lt_mul ts.nsec_lt
  have fits := ts.fits
  have noWrap : 1000 * ts.sec + ts.nsec / 10000000 < 2 ^ 64 := by
    generalize ts.nsec / 10000000 = count at small
    omega
  rw [timestamp, Nat.mul_comm]
  exact UInt64.toNat_ofNat_of_lt noWrap

/-- A carry into the seconds is worth more than the whole part below a second. -/
theorem timestamp_mono (before : first.nanoseconds ≤ second.nanoseconds) :
    timestamp first ≤ timestamp second := by
  have firstSub := first.nsec_lt
  have secondSub := second.nsec_lt
  have firstSplit := nsec_split first
  have secondSplit := nsec_split second
  unfold nanoseconds at before
  rw [UInt64.le_iff_toNat_le, timestamp_toNat, timestamp_toNat]
  generalize first.nsec / 10000000 = firstCount at firstSplit
  generalize second.nsec / 10000000 = secondCount at secondSplit
  omega

theorem difference_toNat (before : first.nanoseconds ≤ second.nanoseconds) :
    (timestamp second - timestamp first).toNat =
      1000 * second.sec + second.nsec / 10000000 - (1000 * first.sec + first.nsec / 10000000) := by
  rw [UInt64.toNat_sub_of_le _ _ (timestamp_mono before), timestamp_toNat, timestamp_toNat]

theorem near_difference_iff (before : first.nanoseconds ≤ second.nanoseconds) :
    Near (timestamp second - timestamp first).toNat (elapsed first second) ↔
      apart first second ≤ 1000000 ∨
        (apart first second ≤ 2000000 ∧ first.nsec / 10000000 ≠ second.nsec / 10000000) := by
  have firstSub := first.nsec_lt
  have secondSub := second.nsec_lt
  have firstSplit := nsec_split first
  have secondSplit := nsec_split second
  rw [difference_toNat before]
  unfold Near elapsed apart
  unfold nanoseconds at before ⊢
  generalize first.nsec / 10000000 = firstCount at firstSplit
  generalize second.nsec / 10000000 = secondCount at secondSplit
  omega

/-! ## Its users -/

theorem Near.keeps {count limit time : Nat} {exceeds : Bool} (near : Near count time)
    (compares : exceeds = true ↔ limit < count) : Keeps exceeds limit time := by
  obtain ⟨notMore, notLess⟩ := near
  constructor
  · intro late
    have := compares.mp late
    omega
  · intro early
    have : ¬ limit < count := fun late => by
      rw [compares.mpr late] at early
      cases early
    omega

theorem measures_of_near (before : first.nanoseconds ≤ second.nanoseconds)
    (near : Near (timestamp second - timestamp first).toNat (elapsed first second)) :
    MeasuresMilliseconds first second := by
  refine ⟨timestamp_mono before, near, ?_, ?_, ?_⟩
  · intro entry stamped
    have limit : HostInfoCache.maxAge.toNat = 1800000 := by decide
    apply near.keeps
    simp only [HostInfoCache.expired, stamped, decide_eq_true_iff, gt_iff_lt, UInt64.lt_iff_toNat_lt, limit]
  · intro session site started
    refine ⟨(timestamp second - timestamp first).toNat, near, ?_⟩
    rw [started, SiteStats.record, UInt64.ofNat_toNat]
  · intro stats logged
    have limit : (1000 * GlobalStats.logFrequency).toNat = 86400000 := by decide
    apply near.keeps
    simp only [GlobalStats.readyToLog, logged, decide_eq_true_iff, gt_iff_lt, UInt64.lt_iff_toNat_lt, limit]

/-- Two readings are told apart in milliseconds exactly if their parts below a second are at most one
millisecond apart, or at most two with a multiple of ten milliseconds between them. -/
theorem measuresMilliseconds_iff (before : first.nanoseconds ≤ second.nanoseconds) :
    MeasuresMilliseconds first second ↔
      apart first second ≤ 1000000 ∨
        (apart first second ≤ 2000000 ∧ first.nsec / 10000000 ≠ second.nsec / 10000000) := by
  rw [← near_difference_iff before]
  exact ⟨MeasuresMilliseconds.difference, measures_of_near before⟩

/-- Five seconds. -/
theorem measuresMilliseconds_iff_seconds :
    MeasuresMilliseconds ⟨1, 0, by decide, by decide⟩ ⟨6, 0, by decide, by decide⟩ :=
  (measuresMilliseconds_iff (by decide)).mpr (.inl (by decide))

/-- Half a second is counted as 50 milliseconds. -/
theorem half_second_lost :
    ¬ ∀ first second : Timespec, first.nanoseconds ≤ second.nanoseconds →
      MeasuresMilliseconds first second := by
  intro claim
  have measures := claim ⟨1, 0, by decide, by decide⟩ ⟨1, 500000000, by decide, by decide⟩ (by decide)
  have notLess : 500000000 ≤ 1000000 * (50 + 1) := measures.difference.2
  omega

end Timespec

end NermalProxy
