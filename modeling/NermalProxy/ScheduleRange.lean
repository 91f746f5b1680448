import NermalProxy.TimeMap

/-! # The indexes of the schedule tables

The week's table has seven days and a day's table 48 half hours.  The guard against days lets the
eighth pass, and no guard is there for what is negative; a call is refused, or stays inside the
tables, in all other cases. -/

namespace NermalProxy

open NermalProxy.CString

def InDay (hour minute : Int) : Prop :=
  0 ≤ minutesToIntervals hour minute ∧ minutesToIntervals hour minute < intervals

def InWeek (day : Int) : Prop := 0 ≤ day ∧ day < days

namespace WeeklyAccess

/-- The question stays inside the tables, and the answer to one about another day or another time is
`false`. -/
structure ConfinesTime (access : WeeklyAccess) (day hour minute : Int) : Prop where
  inside : (access.permittedAtTime day hour minute).isSome = true
  otherDay : ¬ InWeek day → access.permittedAtTime day hour minute = some false
  otherTime : ¬ InDay hour minute → access.permittedAtTime day hour minute = some false

/-- The change stays inside the table, and that of another day is refused. -/
structure ConfinesDay (access : WeeklyAccess) (day : Int) (initString : Bytes) : Prop where
  inside : (access.initDayFromString day initString).isSome = true
  otherDay : ¬ InWeek day → access.initDayFromString day initString = some (access, false)

end WeeklyAccess

/-! ## A day's table -/

/-- The division truncates, so the half hour before midnight counts as the first one behind it. -/
theorem minutesToIntervals_nonneg_iff (hour minute : Int) :
    0 ≤ minutesToIntervals hour minute ↔ -30 < hour * 60 + minute := by
  unfold minutesToIntervals intervalTime
  by_cases negative : hour * 60 + minute < 0
  · have mirrored : (hour * 60 + minute).tdiv 30 = -(-(hour * 60 + minute) / 30) := by
      rw [← Int.tdiv_eq_ediv_of_nonneg (by omega), Int.neg_tdiv, Int.neg_neg]
    rw [mirrored]
    omega
  · rw [Int.tdiv_eq_ediv_of_nonneg (by omega)]
    omega

namespace TimeMap

variable (map : TimeMap) {hour minute : Int}

theorem permittedAtTime_late (late : intervals ≤ minutesToIntervals hour minute) :
    map.permittedAtTime hour minute = some false := if_pos late

theorem permittedAtTime_inside (inDay : InDay hour minute) :
    (map.permittedAtTime hour minute).isSome = true := by
  obtain ⟨notNegative, notLate⟩ := inDay
  have size := map.size
  have inside : (minutesToIntervals hour minute).toNat < map.accessIntervals.length := by omega
  simp only [permittedAtTime, ge_iff_le, if_neg (Int.not_le.mpr notLate), if_neg (Int.not_lt.mpr notNegative),
    List.getElem?_eq_getElem inside]
  rfl

theorem permittedAtTime_negative (negative : minutesToIntervals hour minute < 0) :
    map.permittedAtTime hour minute = none := by
  have notLate : ¬ (intervals : Int) ≤ minutesToIntervals hour minute := by omega
  simp only [permittedAtTime, ge_iff_le, if_neg notLate, if_pos negative]

end TimeMap

/-! ## The week's table -/

namespace WeeklyAccess

variable (access : WeeklyAccess)

/-- What a day refers to: nothing behind the eighth, nothing of the table outside of the week, and a
day's table in it. -/
inductive Refers (access : WeeklyAccess) (day : Int) : Prop where
  | refused (far : 7 < day)
      (asked : ∀ hour minute, access.permittedAtTime day hour minute = some false)
      (changed : ∀ initString, access.initDayFromString day initString = some (access, false))
  | outside (other : day = 7 ∨ day < 0)
      (asked : ∀ hour minute, access.permittedAtTime day hour minute = none)
      (changed : ∀ initString, access.initDayFromString day initString = none)
  | table {map : TimeMap} (inWeek : InWeek day)
      (asked : ∀ hour minute, access.permittedAtTime day hour minute = map.permittedAtTime hour minute)
      (changed : ∀ initString, (access.initDayFromString day initString).isSome = true)

theorem refers (day : Int) : access.Refers day := by
  have size := access.size
  unfold days at size
  have seven : (days : Int) = 7 := rfl
  by_cases far : 7 < day
  · refine .refused far (fun hour minute => ?_) (fun initString => ?_)
    · simp only [permittedAtTime, seven, gt_iff_lt, if_pos far]
    · simp only [initDayFromString, seven, gt_iff_lt, if_pos far]
  · by_cases negative : day < 0
    · refine .outside (.inr negative) (fun hour minute => ?_) (fun initString => ?_)
      · simp only [permittedAtTime, seven, gt_iff_lt, if_neg far, if_pos negative]
      · simp only [initDayFromString, seven, gt_iff_lt, if_neg far, if_pos negative]
    · by_cases eighth : day = 7
      · have behind : access.accessMap[day.toNat]? = none := List.getElem?_eq_none (by omega)
        refine .outside (.inl eighth) (fun hour minute => ?_) (fun initString => ?_)
        · simp only [permittedAtTime, seven, gt_iff_lt, if_neg far, if_neg negative, behind]
        · simp only [initDayFromString, seven, gt_iff_lt, if_neg far, if_neg negative, behind]
      · have inside : day.toNat < access.accessMap.length := by omega
        have found := List.getElem?_eq_getElem inside
        refine @Refers.table access day access.accessMap[day.toNat] ⟨by omega, by omega⟩ (fun hour minute => ?_)
          (fun initString => ?_)
        · simp only [permittedAtTime, seven, gt_iff_lt, if_neg far, if_neg negative, found]
        · simp only [initDayFromString, seven, gt_iff_lt, if_neg far, if_neg negative, found]
          rfl

theorem confinesTime_iff (day hour minute : Int) :
    access.ConfinesTime day hour minute ↔
      7 < day ∨ (0 ≤ day ∧ day < 7 ∧ -30 < hour * 60 + minute) := by
  rw [← minutesToIntervals_nonneg_iff]
  cases access.refers day with
  | refused far asked changed =>
    refine iff_of_true ⟨?_, fun _ => asked hour minute, fun _ => asked hour minute⟩ (.inl far)
    rw [asked]
    rfl
  | outside other asked changed =>
    refine iff_of_false (fun confines => ?_) (by omega)
    have inside := confines.inside
    rw [asked] at inside
    cases inside
  | @table map inWeek asked changed =>
    obtain ⟨notNegative, small⟩ := inWeek
    have inTable : 0 ≤ day ∧ day < 7 := ⟨notNegative, small⟩
    constructor
    · intro confines
      refine .inr ⟨inTable.1, inTable.2, ?_⟩
      by_contra early
      have inside := confines.inside
      rw [asked, map.permittedAtTime_negative (Int.not_le.mp early)] at inside
      cases inside
    · intro condition
      have notEarly : 0 ≤ minutesToIntervals hour minute := by omega
      by_cases late : (intervals : Int) ≤ minutesToIntervals hour minute
      · have refused := (asked hour minute).trans (map.permittedAtTime_late late)
        refine ⟨?_, fun _ => refused, fun _ => refused⟩
        rw [refused]
        rfl
      · have inDay : InDay hour minute := ⟨notEarly, Int.not_le.mp late⟩
        refine ⟨?_, fun other => absurd ⟨notNegative, small⟩ other, fun other => absurd inDay other⟩
        rw [asked]
        exact map.permittedAtTime_inside inDay

/-- At a local time the schedule is only read inside its tables. -/
theorem permittedAtTime_isSome (time : LocalTime) :
    (access.permittedAtTime time.wday time.hour time.minute).isSome = true := by
  have inWeek : 0 ≤ (time.wday : Int) ∧ (time.wday : Int) < 7 := by omega
  have later : -30 < (time.hour : Int) * 60 + time.minute := by omega
  exact ((access.confinesTime_iff _ _ _).mpr (.inr ⟨inWeek.1, inWeek.2, later⟩)).inside

theorem confinesDay_iff (day : Int) (initString : Bytes) :
    access.ConfinesDay day initString ↔ 7 < day ∨ (0 ≤ day ∧ day < 7) := by
  cases access.refers day with
  | refused far asked changed =>
    refine iff_of_true ⟨?_, fun _ => changed initString⟩ (.inl far)
    rw [changed]
    rfl
  | outside other asked changed =>
    refine iff_of_false (fun confines => ?_) (by omega)
    have inside := confines.inside
    rw [changed] at inside
    cases inside
  | table inWeek asked changed =>
    refine iff_of_true ⟨changed initString, fun other => absurd inWeek other⟩ (.inr ?_)
    exact inWeek

/-- A question is confined exactly if its day is far behind the week, or in the week and the time later
than half an hour before midnight; a change exactly if its day is. -/
theorem confined_iff (access : WeeklyAccess) (day hour minute : Int) (initString : Bytes) :
    (access.ConfinesTime day hour minute ↔
      7 < day ∨ (0 ≤ day ∧ day < 7 ∧ -30 < hour * 60 + minute)) ∧
    (access.ConfinesDay day initString ↔ 7 < day ∨ (0 ≤ day ∧ day < 7)) :=
  ⟨access.confinesTime_iff day hour minute, access.confinesDay_iff day initString⟩

/-- The day behind the last one is looked up in the table. -/
theorem eighth_day_indexed :
    ¬ ∀ (access : WeeklyAccess) (day hour minute : Int) (initString : Bytes),
      access.ConfinesTime day hour minute ∧ access.ConfinesDay day initString := by
  intro claim
  have confined := (claim make 7 0 0 []).1.inside
  cases confined

end WeeklyAccess

end NermalProxy
