import NermalProxy.UserAuth

/-! # User schedules

What `AccessAllowedAtTime` answers after any sequence of `SetWeeklyAccess` calls.  A
user's week is seen through `daySchedule`, the flags of one of its days: an accepted call
replaces the flags of one day of one user, and any other call replaces nothing. -/

namespace NermalProxy

open NermalProxy.CString NermalProxy.KeyedList

/-! ## One day of a week -/

theorem minutesToIntervals_nat (hour minute : Nat) :
    minutesToIntervals hour minute = ((2 * hour + minute / 30 : Nat) : Int) := by
  have whole : ((hour : Int) * 60 + minute).tdiv 30 = ((hour : Int) * 60 + minute) / 30 :=
    Int.tdiv_eq_ediv_of_nonneg (by omega)
  unfold minutesToIntervals intervalTime
  omega

theorem TimeMap.permittedAtTime_localTime (map : TimeMap) (time : LocalTime) :
    map.permittedAtTime time.hour time.minute =
      map.accessIntervals[2 * time.hour.val + time.minute.val / 30]? := by
  have hourBound := time.hour.isLt
  have minuteBound := time.minute.isLt
  have index : minutesToIntervals (time.hour.val : Int) (time.minute.val : Int) =
      ((2 * time.hour.val + time.minute.val / 30 : Nat) : Int) := minutesToIntervals_nat _ _
  have inside : ¬ ((2 * time.hour.val + time.minute.val / 30 : Nat) : Int) ≥ (intervals : Int) := by
    unfold intervals
    omega
  have natural : ¬ ((2 * time.hour.val + time.minute.val / 30 : Nat) : Int) < 0 := by omega
  simp only [TimeMap.permittedAtTime, index, if_neg inside, if_neg natural, Int.toNat_natCast]

theorem WeeklyAccess.permittedAtTime_localTime (access : WeeklyAccess) (time : LocalTime) :
    access.permittedAtTime time.wday time.hour time.minute =
      (access.accessMap[time.wday.val]?).bind
        (fun map => map.accessIntervals[2 * time.hour.val + time.minute.val / 30]?) := by
  have wdayBound := time.wday.isLt
  have inside : ¬ ((time.wday.val : Nat) : Int) > (days : Int) := by
    unfold days
    omega
  have natural : ¬ ((time.wday.val : Nat) : Int) < 0 := by omega
  simp only [WeeklyAccess.permittedAtTime, if_neg inside, if_neg natural, Int.toNat_natCast]
  cases access.accessMap[time.wday.val]? with
  | none => rfl
  | some map => exact map.permittedAtTime_localTime time

/-- The flags of one day. -/
def WeeklyAccess.dayFlags (access : WeeklyAccess) (wday : Nat) : Option (List Bool) :=
  (access.accessMap[wday]?).map TimeMap.accessIntervals

theorem WeeklyAccess.dayFlags_make {wday : Nat} (inWeek : wday < days) :
    WeeklyAccess.make.dayFlags wday = some (List.replicate intervals true) := by
  simp [dayFlags, make, TimeMap.make, inWeek]

/-- On a day of the week only the length of the string decides. -/
theorem WeeklyAccess.initDayFromString_day (access : WeeklyAccess) {day : Nat} (inWeek : day < days)
    (initString : Bytes) :
    ∃ map ∈ access.accessMap[day]?, access.initDayFromString day initString =
      some (⟨access.accessMap.set day (map.initFromString initString).1, by simpa using access.size⟩,
        (map.initFromString initString).2) := by
  have size := access.size
  have bound : day < access.accessMap.length := by omega
  have inside : ¬ (day : Int) > (days : Int) := by omega
  have natural : ¬ (day : Int) < 0 := by omega
  refine ⟨_, List.getElem?_eq_getElem bound, ?_⟩
  simp only [initDayFromString, if_neg inside, if_neg natural, Int.toNat_natCast,
    List.getElem?_eq_getElem bound]

theorem WeeklyAccess.initDayFromString_rejects (access : WeeklyAccess) {day : Nat}
    (inWeek : day < days) {initString : Bytes} (cut : initString.length ≠ intervals) :
    access.initDayFromString day initString = some (access, false) := by
  obtain ⟨map, isMap, called⟩ := access.initDayFromString_day inWeek initString
  obtain ⟨bound, rfl⟩ := List.getElem?_eq_some_iff.mp isMap
  simp [called, TimeMap.initFromString, cut]

theorem WeeklyAccess.initDayFromString_accepts (access : WeeklyAccess) {day : Nat}
    (inWeek : day < days) {initString : Bytes} (whole : initString.length = intervals) :
    ∃ next, access.initDayFromString day initString = some (next, true) ∧
      ∀ wday, next.dayFlags wday =
        if wday = day then some (initString.map TimeMap.permits) else access.dayFlags wday := by
  obtain ⟨map, isMap, called⟩ := access.initDayFromString_day inWeek initString
  obtain ⟨bound, -⟩ := List.getElem?_eq_some_iff.mp isMap
  refine ⟨_, by rw [called, TimeMap.initFromString, dif_pos whole], fun wday => ?_⟩
  by_cases same : wday = day
  · subst same
    simp [dayFlags, bound]
  · have other : ¬ day = wday := fun equal => same equal.symm
    simp [dayFlags, same, other]

namespace AuthManager

/-! ## One call -/

/-- The arguments of a call of `SetWeeklyAccess`. -/
structure SetWeeklyAccess where
  userName : Bytes
  day : Bytes
  initString : Bytes
  deriving DecidableEq, Repr

def IsRegistered (users : List User) (userName : Bytes) : Prop := ∃ user ∈ users, user.name = userName

namespace SetWeeklyAccess

def run (users : List User) (call : SetWeeklyAccess) : List User × Bool :=
  setWeeklyAccess users call.userName call.day call.initString

/-- The call has a string of the right length for this day of this user. -/
def Sets (userName : Bytes) (wday : Nat) (call : SetWeeklyAccess) : Prop :=
  call.userName = userName ∧ dayIndex call.day = some wday ∧ call.initString.length = intervals

instance (userName : Bytes) (wday : Nat) (call : SetWeeklyAccess) : Decidable (call.Sets userName wday) :=
  inferInstanceAs (Decidable (_ ∧ _ ∧ _))

/-- The user and the day are known and the string has the right length. -/
def Valid (users : List User) (call : SetWeeklyAccess) : Prop :=
  IsRegistered users call.userName ∧ (∃ wday, dayIndex call.day = some wday) ∧
    call.initString.length = intervals

end SetWeeklyAccess

theorem isRegistered_iff {users : List User} {userName : Bytes} :
    IsRegistered users userName ↔ ∃ user, lookup User.name userName users = some user := by
  constructor
  · rintro ⟨user, member, rfl⟩
    exact exists_lookup member
  · rintro ⟨user, found⟩
    exact ⟨user, mem_of_lookup found, key_of_lookup found⟩

theorem dayIndex_lt {day : Bytes} {wday : Nat} (named : dayIndex day = some wday) : wday < days := by
  unfold dayIndex at named
  unfold days
  grind

/-- The flags of one day of a user. -/
def daySchedule (users : List User) (userName : Bytes) (wday : Nat) : Option (List Bool) :=
  (lookup User.name userName users).bind (fun user => user.weeklyAccess.dayFlags wday)

theorem accessAllowedAtTime_iff {users : List User} {time : LocalTime} {userName : Bytes} :
    accessAllowedAtTime users (some time) userName = true ↔
      ∃ flags, daySchedule users userName time.wday = some flags ∧
        flags[2 * time.hour.val + time.minute.val / 30]? = some true := by
  unfold accessAllowedAtTime daySchedule
  cases lookup User.name userName users with
  | none => simp
  | some user =>
    simp only [WeeklyAccess.permittedAtTime_localTime, Option.bind_some, WeeklyAccess.dayFlags]
    cases user.weeklyAccess.accessMap[time.wday.val]? with
    | none => simp
    | some map =>
      simp only [Option.bind_some, Option.map_some, Option.some.injEq, exists_eq_left']
      cases map.accessIntervals[2 * time.hour.val + time.minute.val / 30]? <;> simp

/-- The answers depend on the day's flags alone. -/
theorem accessAllowedAtTime_congr {users others : List User} {userName : Bytes}
    {localTime : Option LocalTime} (same : ∀ time, localTime = some time →
      daySchedule users userName time.wday = daySchedule others userName time.wday) :
    accessAllowedAtTime users localTime userName = accessAllowedAtTime others localTime userName := by
  cases localTime with
  | none =>
    unfold accessAllowedAtTime
    cases lookup User.name userName users <;> cases lookup User.name userName others <;> rfl
  | some time =>
    have flags := same time rfl
    rw [Bool.eq_iff_iff, accessAllowedAtTime_iff, accessAllowedAtTime_iff, flags]

theorem run_names (users : List User) (call : SetWeeklyAccess) :
    (call.run users).1.map User.name = users.map User.name := by
  unfold SetWeeklyAccess.run setWeeklyAccess
  split
  · rfl
  · split
    · rfl
    · split
      · rfl
      · exact map_adjust (fun _ => rfl)

theorem isRegistered_run {users : List User} {call : SetWeeklyAccess} {userName : Bytes} :
    IsRegistered (call.run users).1 userName ↔ IsRegistered users userName := by
  have names := run_names users call
  simp only [IsRegistered, ← List.mem_map, names]

/-- A call that is not valid changes nothing. -/
theorem run_invalid {users : List User} {call : SetWeeklyAccess} (invalid : ¬ call.Valid users) :
    call.run users = (users, false) := by
  unfold SetWeeklyAccess.run setWeeklyAccess
  cases found : lookup User.name call.userName users with
  | none => rfl
  | some user =>
    cases named : dayIndex call.day with
    | none => rfl
    | some wday =>
      have cut : call.initString.length ≠ intervals := fun whole =>
        invalid ⟨isRegistered_iff.mpr ⟨user, found⟩, ⟨wday, named⟩, whole⟩
      simp only [user.weeklyAccess.initDayFromString_rejects (dayIndex_lt named) cut]
      rw [adjust_of_fixed found rfl]

/-- A valid call replaces the flags of one day of one user. -/
theorem run_valid {users : List User} {call : SetWeeklyAccess} (valid : call.Valid users) :
    (call.run users).2 = true ∧
      ∀ userName wday, daySchedule (call.run users).1 userName wday =
        if call.Sets userName wday then some (call.initString.map TimeMap.permits)
        else daySchedule users userName wday := by
  obtain ⟨registered, ⟨day, named⟩, whole⟩ := valid
  obtain ⟨user, found⟩ := isRegistered_iff.mp registered
  obtain ⟨next, accepted, flags⟩ :=
    user.weeklyAccess.initDayFromString_accepts (dayIndex_lt named) whole
  have ran : call.run users =
      (adjust User.name call.userName (fun user => { user with weeklyAccess := next }) users, true) := by
    simp only [SetWeeklyAccess.run, setWeeklyAccess, found, named, accepted]
  rw [ran]
  refine ⟨rfl, fun userName wday => ?_⟩
  have keeps : ∀ user : User, ({ user with weeklyAccess := next } : User).name = user.name :=
    fun _ => rfl
  unfold daySchedule
  by_cases own : userName = call.userName
  · subst own
    simp only [lookup_adjust_same keeps, found]
    simp only [Option.map_some, Option.bind_some, flags, SetWeeklyAccess.Sets, named, whole, true_and,
      and_true, Option.some.injEq, eq_comm]
  · have other : ¬ call.userName = userName := fun same => own same.symm
    simp only [lookup_adjust_other keeps own, if_neg (fun sets : call.Sets userName wday => other sets.1)]

/-! ## Any sequence of calls -/

/-- The table after the calls. -/
def runAll (users : List User) (calls : List SetWeeklyAccess) : List User :=
  calls.foldl (fun users call => (call.run users).1) users

/-- The last string of the right length that was set for this day of this user. -/
def lastSet (calls : List SetWeeklyAccess) (userName : Bytes) (wday : Nat) : Option Bytes :=
  (calls.filter (fun call => call.Sets userName wday)).getLast?.map SetWeeklyAccess.initString

theorem lastSet_snoc (calls : List SetWeeklyAccess) (call : SetWeeklyAccess) (userName : Bytes)
    (wday : Nat) : lastSet (calls ++ [call]) userName wday =
      if call.Sets userName wday then some call.initString else lastSet calls userName wday := by
  unfold lastSet
  rw [List.filter_append]
  split
  · rename_i sets
    simp [sets]
  · rename_i silent
    simp [silent]

variable {users : List User} {calls : List SetWeeklyAccess} {call : SetWeeklyAccess} {userName : Bytes}

theorem runAll_snoc : runAll users (calls ++ [call]) = (call.run (runAll users calls)).1 := by
  simp only [runAll, List.foldl_append, List.foldl_cons, List.foldl_nil]

theorem isRegistered_runAll : IsRegistered (runAll users calls) userName ↔ IsRegistered users userName := by
  induction calls using List.reverseRecOn with
  | nil => rfl
  | append_singleton calls call inductionHypothesis =>
    rw [runAll_snoc, isRegistered_run, inductionHypothesis]

/-- The flags that a string sets, or those of a new user. -/
def flagsOf : Option Bytes → List Bool
  | some initString => initString.map TimeMap.permits
  | none => List.replicate intervals true

theorem daySchedule_runAll (calls : List SetWeeklyAccess)
    (fresh : ∀ user ∈ users, user.weeklyAccess = .make) {wday : Nat}
    (inWeek : wday < days) (registered : IsRegistered users userName) :
    daySchedule (runAll users calls) userName wday = some (flagsOf (lastSet calls userName wday)) := by
  induction calls using List.reverseRecOn with
  | nil =>
    obtain ⟨user, found⟩ := isRegistered_iff.mp registered
    simp only [runAll, List.foldl_nil, daySchedule, found, Option.bind_some,
      fresh user (mem_of_lookup found), WeeklyAccess.dayFlags_make inWeek]
    rfl
  | append_singleton calls call inductionHypothesis =>
    rw [runAll_snoc, lastSet_snoc]
    by_cases valid : call.Valid (runAll users calls)
    · rw [(run_valid valid).2 userName wday, inductionHypothesis]
      split <;> rfl
    · have silent : ¬ call.Sets userName wday := by
        rintro ⟨rfl, named, whole⟩
        exact valid ⟨isRegistered_runAll.mpr registered, ⟨wday, named⟩, whole⟩
      rw [run_invalid valid, if_neg silent]
      exact inductionHypothesis

/-- The character of the half hour is neither `'x'` nor `'X'`. -/
def OpenAt (time : LocalTime) (initString : Bytes) : Prop :=
  ∃ c, initString[2 * time.hour.val + time.minute.val / 30]? = some c ∧ c ≠ 120 ∧ c ≠ 88

theorem flagsOf_iff (time : LocalTime) (set : Option Bytes) :
    (flagsOf set)[2 * time.hour.val + time.minute.val / 30]? = some true ↔
      ∀ initString, set = some initString → OpenAt time initString := by
  cases set with
  | none =>
    have hourBound := time.hour.isLt
    have minuteBound := time.minute.isLt
    have inside : 2 * time.hour.val + time.minute.val / 30 < intervals := by
      unfold intervals
      omega
    simp [flagsOf, inside]
  | some initString => simp [flagsOf, OpenAt, TimeMap.permits]

theorem accessAllowedAtTime_runAll (fresh : ∀ user ∈ users, user.weeklyAccess = .make)
    (time : LocalTime) :
    accessAllowedAtTime (runAll users calls) (some time) userName = true ↔
      IsRegistered users userName ∧
        ∀ initString, lastSet calls userName time.wday = some initString → OpenAt time initString := by
  by_cases registered : IsRegistered users userName
  · have flags := daySchedule_runAll calls fresh time.wday.isLt registered
    simp only [accessAllowedAtTime_iff, flags, Option.some.injEq, exists_eq_left', flagsOf_iff, registered,
      true_and]
  · have unknown : ¬ IsRegistered (runAll users calls) userName := fun known =>
      registered (isRegistered_runAll.mp known)
    simp only [registered, false_and, iff_false]
    exact fun allowed => unknown (accessAllowedAtTime_registered allowed)

theorem valid_runAll : call.Valid (runAll users calls) ↔ call.Valid users := by
  unfold SetWeeklyAccess.Valid
  rw [isRegistered_runAll]

theorem run_refused : (call.run users).2 = false ↔ ¬ call.Valid users := by
  constructor
  · intro refused valid
    rw [(run_valid valid).1] at refused
    cases refused
  · intro invalid
    rw [run_invalid invalid]

/-- Only the answers for the user and the weekday of a call can change. -/
theorem run_other {localTime : Option LocalTime}
    (other : ∀ time, localTime = some time → ¬ call.Sets userName time.wday) :
    accessAllowedAtTime (call.run users).1 localTime userName =
      accessAllowedAtTime users localTime userName := by
  by_cases valid : call.Valid users
  · apply accessAllowedAtTime_congr
    intro time now
    rw [(run_valid valid).2, if_neg (other time now)]
  · rw [run_invalid valid]

/-- After any calls on a table of users without a schedule, the last string set for a user and
weekday decides.  A call that is not valid is refused and changes no answer; one that is accepted
only changes answers for its own user and weekday. -/
theorem user_schedules (users : List User) (fresh : ∀ user ∈ users, user.weeklyAccess = .make)
    (calls : List SetWeeklyAccess) :
    (∀ time userName, accessAllowedAtTime (runAll users calls) (some time) userName = true ↔
      IsRegistered users userName ∧
        ∀ initString, lastSet calls userName time.wday = some initString → OpenAt time initString) ∧
    ∀ call : SetWeeklyAccess,
      ((call.run (runAll users calls)).2 = false ↔ ¬ call.Valid users) ∧
      ((call.run (runAll users calls)).2 = false → ∀ localTime userName,
        accessAllowedAtTime (call.run (runAll users calls)).1 localTime userName =
          accessAllowedAtTime (runAll users calls) localTime userName) ∧
      ∀ localTime userName, (∀ time, localTime = some time → ¬ call.Sets userName time.wday) →
        accessAllowedAtTime (call.run (runAll users calls)).1 localTime userName =
          accessAllowedAtTime (runAll users calls) localTime userName := by
  refine ⟨fun time userName => accessAllowedAtTime_runAll fresh time, fun call => ⟨?_, ?_, ?_⟩⟩
  · rw [run_refused, valid_runAll]
  · intro refused localTime userName
    rw [run_invalid (run_refused.mp refused)]
  · exact fun localTime userName other => run_other other

/-- Two strings are set for bob's Mondays, and one that is too short. -/
theorem user_schedules_monday :
    let bob := bytes "bob"
    let calls : List SetWeeklyAccess :=
      [⟨bob, bytes "mon", List.replicate 48 88⟩,
        ⟨bob, bytes "mon", List.replicate 17 45 ++ [120] ++ List.replicate 30 45⟩,
        ⟨bob, bytes "mon", [88]⟩]
    accessAllowedAtTime (runAll [User.make bob []] calls) (some ⟨1, 8, 29⟩) bob = true ∧
      ¬ accessAllowedAtTime (runAll [User.make bob []] calls) (some ⟨1, 8, 30⟩) bob = true := by
  intro bob calls
  have set : lastSet calls bob 1 = some (List.replicate 17 45 ++ [120] ++ List.replicate 30 45) := by decide
  have fresh : ∀ user ∈ [User.make bob []], user.weeklyAccess = .make := by simp [User.make]
  have answers := (user_schedules [User.make bob []] fresh calls).1
  constructor
  · rw [answers]
    refine ⟨⟨_, List.mem_singleton_self _, rfl⟩, fun initString isSet => ?_⟩
    cases set.symm.trans isSet
    exact ⟨45, rfl, by decide, by decide⟩
  · rw [answers]
    rintro ⟨-, opens⟩
    obtain ⟨c, isX, notX, -⟩ := opens _ set
    cases isX
    exact notX rfl

end AuthManager

end NermalProxy
