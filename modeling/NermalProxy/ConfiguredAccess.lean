import NermalProxy.ArrayBounds
import NermalProxy.ConfigText
import NermalProxy.ConfiguredFilter
import NermalProxy.Schedules

/-! # The configured and the enforced access

Who may use the proxy is written in the section `UserAuth` and in one section for each
user.  `DoConfig` turns it into a table of users, one entry for each attribute; the
authentication of a request then decides as the file says. -/

namespace NermalProxy

open NermalProxy.CString NermalProxy.KeyedList NermalProxy.ConfigFile

namespace KeyedList

variable {α κ : Type*} [DecidableEq κ] {key : α → κ} {k : κ}

/-- A change of an entry behind a list without the key. -/
theorem adjust_append {list more : List α} {f : α → α} (absent : ∀ x ∈ list, key x ≠ k) :
    adjust key k f (list ++ more) = list ++ adjust key k f more := by
  induction list with
  | nil => rfl
  | cons x list inductionHypothesis =>
    have other : key x ≠ k := absent x (List.mem_cons_self ..)
    simp only [List.cons_append, adjust, if_neg other]
    rw [inductionHypothesis fun y member => absent y (List.mem_cons_of_mem _ member)]

/-- A loop whose turns leave what stands in front alone. -/
theorem foldl_prefix {β : Type*} {turn : List α → β → List α} {front : List α} {turns : List β}
    (leaves : ∀ more, ∀ x ∈ turns, turn (front ++ more) x = front ++ turn more x) (more : List α) :
    turns.foldl turn (front ++ more) = front ++ turns.foldl turn more := by
  induction turns generalizing more with
  | nil => rfl
  | cons x turns inductionHypothesis =>
    simp only [List.foldl_cons, leaves more x (List.mem_cons_self ..)]
    exact inductionHypothesis (fun more y member => leaves more y (List.mem_cons_of_mem _ member)) _

end KeyedList

namespace AuthManager

variable {users more : List User} {userName : Bytes}

theorem forUser_append (absent : ∀ user ∈ users, user.name ≠ userName) (change : User → User) :
    forUser (users ++ more) userName change = users ++ forUser more userName change := by
  have same : forUser users userName change = users := by
    refine (List.map_congr_left fun user member => ?_).trans (List.map_id users)
    exact if_neg (absent user member)
  rw [forUser, List.map_append]
  exact congrArg (· ++ forUser more userName change) same

theorem setWeeklyAccess_append (absent : ∀ user ∈ users, user.name ≠ userName) (day initString : Bytes) :
    (setWeeklyAccess (users ++ more) userName day initString).1 =
      users ++ (setWeeklyAccess more userName day initString).1 := by
  have search : lookup User.name userName (users ++ more) = lookup User.name userName more := by
    rw [lookup_append, lookup_eq_none.mpr absent]
    rfl
  unfold setWeeklyAccess
  rw [search]
  split
  · rfl
  · split
    · rfl
    · split
      · rfl
      · exact adjust_append absent

end AuthManager

namespace Config

open NermalProxy.AuthManager NermalProxy.SocketManager

variable {config : ConfigData} {users more : List User} {attr : MultiValueAttribute}

/-! ## What the configuration says -/

section Intention

variable (config : ConfigData)

def userAttributes : List MultiValueAttribute := (config.findSection (bytes "UserAuth")).attributes

def addressesOf (name : Bytes) : List Bytes :=
  ((config.findSection name).getAttribute (bytes "ip_list")).values

def Audits (name : Bytes) : Prop :=
  ((config.findSection name).getAttribute (bytes "audit")).getValue = enabled

def Scheduled (name : Bytes) : Prop :=
  ((config.findSection name).getAttribute (bytes "time_based_policy")).getValue = enabled

instance (name : Bytes) : Decidable (Audits config name) := inferInstanceAs (Decidable (_ = _))

instance (name : Bytes) : Decidable (Scheduled config name) := inferInstanceAs (Decidable (_ = _))

/-- The string of a weekday. -/
def daySetting (name : Bytes) (wday : Fin 7) : Bytes :=
  ((config.findSection name).getAttribute (dayStrings.get (wday.cast rfl))).getValue

/-- The user is configured, and the half hour is open on the weekday's string, if the schedule of the
user is enabled and the string has the right length. -/
def Permits (name : Bytes) (time : LocalTime) : Prop :=
  Configured config name ∧ (Scheduled config name → (daySetting config name time.wday).length = intervals →
    OpenAt time (daySetting config name time.wday))

/-- The password is the attribute's first value. -/
def HasPassword (name password : Bytes) : Prop :=
  ∃ attr ∈ userAttributes config, attr.name = name ∧ attr.getValue = password

/-- The first user with this address. -/
def userOfAddress (ipAddress : Bytes) : Option Bytes :=
  ((userAttributes config).find? (fun attr => (addressesOf config attr.name).contains ipAddress)).map
    MultiValueAttribute.name

end Intention

/-! ## One user -/

/-- A turn of the loop only makes and changes the entry of its user. -/
theorem configureUser_append (absent : ∀ user ∈ users, user.name ≠ attr.name) :
    configureUser config (users ++ more) attr = users ++ configureUser config more attr := by
  have addresses : ∀ (ips : List Bytes) (more : List User),
      ips.foldl (fun users ip => addUserIp users attr.name ip) (users ++ more) =
      users ++ ips.foldl (fun users ip => addUserIp users attr.name ip) more :=
    fun ips more => foldl_prefix (fun more ip _ => forUser_append absent _) more
  have schedules : ∀ more, dayStrings.foldl (setSchedule (config.findSection attr.name) attr.name)
      (users ++ more) =
      users ++ dayStrings.foldl (setSchedule (config.findSection attr.name) attr.name) more := by
    refine foldl_prefix fun more day _ => ?_
    unfold setSchedule
    simp only
    split
    · exact setWeeklyAccess_append absent _ _
    · rfl
  have audited : ∀ more,
      (if ((config.findSection attr.name).getAttribute (bytes "audit")).getValue = enabled then
        setAudit (users ++ more) attr.name true else users ++ more) =
      users ++ if ((config.findSection attr.name).getAttribute (bytes "audit")).getValue = enabled then
        setAudit more attr.name true else more := by
    intro more
    split
    · exact forUser_append absent _
    · rfl
  unfold configureUser
  simp only [addUser, List.append_assoc, addresses, audited]
  split
  · exact schedules _
  · rfl

/-- The calls that `DoConfig` makes for the schedule of a user. -/
def scheduleCalls (config : ConfigData) (name : Bytes) : List SetWeeklyAccess :=
  if Scheduled config name then
    (dayStrings.filter (fun day => ((config.findSection name).getAttribute day).getValue ≠ [])).map
      (fun day => ⟨name, day, ((config.findSection name).getAttribute day).getValue⟩)
  else []

theorem schedules_eq (policyConfig : ConfigSection) (name : Bytes) (users : List User)
    (dayNames : List Bytes) :
    dayNames.foldl (setSchedule policyConfig name) users =
      runAll users ((dayNames.filter (fun day => (policyConfig.getAttribute day).getValue ≠ [])).map
        (fun day => ⟨name, day, (policyConfig.getAttribute day).getValue⟩)) := by
  induction dayNames generalizing users with
  | nil => rfl
  | cons day dayNames inductionHypothesis =>
    rw [List.foldl_cons, inductionHypothesis]
    by_cases isSet : (policyConfig.getAttribute day).getValue ≠ []
    · rw [List.filter_cons_of_pos (by simpa using isSet)]
      simp only [setSchedule, isSet, ne_eq, not_false_eq_true, if_true]
      rfl
    · rw [List.filter_cons_of_neg (by simpa using isSet)]
      simp only [setSchedule, isSet, if_false]

/-- The calls for one user leave nothing but a week in its entry. -/
theorem runAll_single (calls : List SetWeeklyAccess) {user : User}
    (own : ∀ call ∈ calls, call.userName = user.name) :
    ∃ weeklyAccess, runAll [user] calls = [{ user with weeklyAccess }] := by
  induction calls generalizing user with
  | nil => exact ⟨user.weeklyAccess, rfl⟩
  | cons call calls inductionHypothesis =>
    obtain ⟨week, first⟩ : ∃ weeklyAccess, (call.run [user]).1 = [{ user with weeklyAccess }] := by
      have isOwn : user.name = call.userName := (own call (List.mem_cons_self ..)).symm
      have found : lookup User.name call.userName [user] = some user := by simp [lookup_cons, isOwn]
      unfold SetWeeklyAccess.run setWeeklyAccess
      simp only [found]
      split
      · exact ⟨user.weeklyAccess, rfl⟩
      · split
        · exact ⟨user.weeklyAccess, rfl⟩
        · rename_i weeklyAccess accepted _
          exact ⟨weeklyAccess, by simp only [adjust, if_pos isOwn]⟩
    rw [runAll, List.foldl_cons, first]
    exact inductionHypothesis (fun other member => own other (List.mem_cons_of_mem _ member))

/-- The entry of a user as it is configured, before its schedule. -/
def userEntry (config : ConfigData) (attr : MultiValueAttribute) : User where
  name := attr.name
  password := attr.getValue
  ipList := addressesOf config attr.name
  weeklyAccess := .make
  audit := decide (Audits config attr.name)

theorem addUserIps_single (user : User) (ips : List Bytes) :
    ips.foldl (fun users ip => addUserIp users user.name ip) [user] =
      [{ user with ipList := user.ipList ++ ips }] := by
  induction ips generalizing user with
  | nil => simp
  | cons ip ips inductionHypothesis =>
    have first : addUserIp [user] user.name ip = [user.addIp ip] := by simp [addUserIp, forUser]
    rw [List.foldl_cons, first]
    have rest := inductionHypothesis (user.addIp ip)
    simpa [User.addIp] using rest

theorem configureUser_single (config : ConfigData) (attr : MultiValueAttribute) :
    configureUser config [] attr = runAll [userEntry config attr] (scheduleCalls config attr.name) := by
  have addresses : (addressesOf config attr.name).foldl (fun users ip => addUserIp users attr.name ip)
      [User.make attr.name attr.getValue] =
      [{ userEntry config attr with audit := false }] := addUserIps_single (User.make _ _) _
  have audited : (if ((config.findSection attr.name).getAttribute (bytes "audit")).getValue = enabled then
      setAudit [{ userEntry config attr with audit := false }] attr.name true
      else [{ userEntry config attr with audit := false }]) = [userEntry config attr] := by
    split
    · rename_i audits
      simp [setAudit, forUser, User.setAudit, userEntry, Audits, audits]
    · rename_i silent
      simp [userEntry, Audits, silent]
  unfold configureUser
  unfold addressesOf at addresses
  simp only [addUser, List.nil_append, addresses, audited]
  by_cases scheduled : Scheduled config attr.name
  · rw [scheduleCalls, if_pos scheduled]
    unfold Scheduled at scheduled
    rw [if_pos scheduled]
    exact schedules_eq _ _ _ _
  · rw [scheduleCalls, if_neg scheduled]
    unfold Scheduled at scheduled
    rw [if_neg scheduled]
    rfl

/-- The table has one entry for each attribute. -/
theorem configureUsers (attributes : List MultiValueAttribute)
    (distinct : (attributes.map MultiValueAttribute.name).Nodup) :
    ∃ week : MultiValueAttribute → WeeklyAccess,
      (∀ attr, runAll [userEntry config attr] (scheduleCalls config attr.name) =
        [{ userEntry config attr with weeklyAccess := week attr }]) ∧
      attributes.foldl (configureUser config) [] =
        attributes.map (fun attr => { userEntry config attr with weeklyAccess := week attr }) := by
  have own : ∀ attr : MultiValueAttribute, ∀ call ∈ scheduleCalls config attr.name,
      call.userName = (userEntry config attr).name := by
    intro attr call member
    unfold scheduleCalls at member
    split at member
    · obtain ⟨day, -, rfl⟩ := List.mem_map.mp member
      rfl
    · cases member
  choose week single using fun attr => runAll_single (scheduleCalls config attr.name) (own attr)
  refine ⟨week, single, ?_⟩
  -- from the last attribute on: the entries in front have other names
  induction attributes using List.reverseRecOn with
  | nil => rfl
  | append_singleton attributes attr inductionHypothesis =>
    rw [List.map_append, List.nodup_append] at distinct
    have absent : ∀ user ∈ attributes.map (fun attr => { userEntry config attr with
        weeklyAccess := week attr }), user.name ≠ attr.name := by
      intro user member
      obtain ⟨other, isOther, rfl⟩ := List.mem_map.mp member
      exact distinct.2.2 _ (List.mem_map_of_mem isOther) _ (List.mem_singleton_self _)
    have turn : configureUser config (attributes.map (fun attr => { userEntry config attr with
        weeklyAccess := week attr }) ++ []) attr = _ := configureUser_append absent
    rw [List.append_nil, configureUser_single, single] at turn
    rw [List.foldl_append, inductionHypothesis distinct.1, List.map_append]
    exact turn

/-! ## The schedule of one user -/

/-- Each weekday has one day string. -/
theorem dayStrings_filter (wday : Fin 7) :
    dayStrings.filter (fun day => dayIndex day = some wday.val) = [dayStrings.get (wday.cast rfl)] := by
  revert wday
  decide

/-- The call that counts for a weekday. -/
theorem lastSet_scheduleCalls (config : ConfigData) (name : Bytes) (wday : Fin 7) :
    lastSet (scheduleCalls config name) name wday =
      if Scheduled config name ∧ (daySetting config name wday).length = intervals then
        some (daySetting config name wday)
      else none := by
  by_cases scheduled : Scheduled config name
  · have days : (dayStrings.filter (fun day =>
        ((config.findSection name).getAttribute day).getValue ≠ [])).filter (fun day =>
          dayIndex day = some wday.val ∧
            ((config.findSection name).getAttribute day).getValue.length = intervals) =
        [dayStrings.get (wday.cast rfl)].filter (fun day =>
          ((config.findSection name).getAttribute day).getValue.length = intervals) := by
      rw [← dayStrings_filter, List.filter_filter, List.filter_filter]
      refine List.filter_congr fun day _ => ?_
      have whole : ((config.findSection name).getAttribute day).getValue.length = intervals →
          ((config.findSection name).getAttribute day).getValue ≠ [] := by
        intro length empty
        rw [empty] at length
        cases length
      grind
    have calls : (scheduleCalls config name).filter (fun call => call.Sets name wday) =
        ([dayStrings.get (wday.cast rfl)].filter (fun day =>
          ((config.findSection name).getAttribute day).getValue.length = intervals)).map (fun day =>
            ⟨name, day, ((config.findSection name).getAttribute day).getValue⟩) := by
      rw [scheduleCalls, if_pos scheduled, List.filter_map, ← days]
      refine congrArg (List.map _) (List.filter_congr fun day _ => ?_)
      simp [SetWeeklyAccess.Sets]
    unfold lastSet
    rw [calls]
    by_cases whole : (daySetting config name wday).length = intervals
    · rw [if_pos ⟨scheduled, whole⟩, List.filter_cons_of_pos (by simpa [daySetting] using whole)]
      rfl
    · rw [if_neg (fun both => whole both.2), List.filter_cons_of_neg (by simpa [daySetting] using whole)]
      rfl
  · simp [scheduleCalls, scheduled, lastSet]

theorem accessAllowedAtTime_entry (config : ConfigData) (attr : MultiValueAttribute) (time : LocalTime) :
    accessAllowedAtTime (runAll [userEntry config attr] (scheduleCalls config attr.name)) (some time)
      attr.name = true ↔
      (Scheduled config attr.name → (daySetting config attr.name time.wday).length = intervals →
        OpenAt time (daySetting config attr.name time.wday)) := by
  have fresh : ∀ user ∈ [userEntry config attr], user.weeklyAccess = .make := by simp [userEntry]
  have registered : IsRegistered [userEntry config attr] attr.name := ⟨_, List.mem_singleton_self _, rfl⟩
  rw [accessAllowedAtTime_runAll fresh, lastSet_scheduleCalls]
  simp only [registered, true_and]
  by_cases set : Scheduled config attr.name ∧ (daySetting config attr.name time.wday).length = intervals
  · simp [set.1, set.2]
  · simp only [if_neg set]
    tauto

/-! ## The table -/

section Table

variable {files : Files} {stale : Nat → Bytes × Bytes} {filename : Bytes} {settings : Settings}
  {name : Bytes}

theorem doConfig_authEnabled (configured : doConfig files stale filename = some settings) :
    settings.authEnabled = true ↔ authEnabled (loadData stale (files filename)) := by
  simp only [doConfig] at configured
  split at configured
  · cases configured
  · cases configured
    exact decide_eq_true_iff

/-- The entries of the table, with what the schedule of each answers. -/
theorem doConfig_users (configured : doConfig files stale filename = some settings)
    (enabled : settings.authEnabled = true) :
    ∃ week : MultiValueAttribute → WeeklyAccess,
      (∀ attr, runAll [userEntry (loadData stale (files filename)) attr]
          (scheduleCalls (loadData stale (files filename)) attr.name) =
        [{ userEntry (loadData stale (files filename)) attr with weeklyAccess := week attr }]) ∧
      settings.users = (userAttributes (loadData stale (files filename))).map (fun attr =>
        { userEntry (loadData stale (files filename)) attr with weeklyAccess := week attr }) := by
  obtain ⟨week, single, table⟩ := @configureUsers (loadData stale (files filename))
    (userAttributes (loadData stale (files filename)))
    ((loadData stale (files filename)).findSection (bytes "UserAuth")).distinct
  refine ⟨week, single, ?_⟩
  have isEnabled := (doConfig_authEnabled configured).mp enabled
  rw [← table]
  simp only [doConfig] at configured
  split at configured
  · cases configured
  · cases configured
    exact if_pos isEnabled

/-- A search by name finds the entry of the attribute. -/
theorem lookup_entries {entry : MultiValueAttribute → User} (named : ∀ attr, (entry attr).name = attr.name)
    (attributes : List MultiValueAttribute) (name : Bytes) :
    lookup User.name name (attributes.map entry) =
      (lookup MultiValueAttribute.name name attributes).map entry := by
  simp only [lookup, List.find?_map]
  congr 2
  funext attr
  simp only [Function.comp_apply, named]

theorem configured_iff {config : ConfigData} :
    Configured config name ↔ ∃ attr, lookup MultiValueAttribute.name name (userAttributes config) = some attr := by
  constructor
  · rintro ⟨attr, member, rfl⟩
    exact exists_lookup member
  · rintro ⟨attr, found⟩
    exact ⟨attr, mem_of_lookup found, key_of_lookup found⟩

theorem authenticate_i_configured (configured : doConfig files stale filename = some settings)
    (enabled : settings.authEnabled = true) {password : Bytes} :
    authenticate_i settings.users name password = true ↔
      HasPassword (loadData stale (files filename)) name password := by
  obtain ⟨week, -, table⟩ := doConfig_users configured enabled
  simp [authenticate_i, table, HasPassword, userEntry]

theorem authenticateIp_configured (configured : doConfig files stale filename = some settings)
    (enabled : settings.authEnabled = true) (ipAddress : Bytes) :
    authenticateIp settings.users ipAddress =
      userOfAddress (loadData stale (files filename)) ipAddress := by
  obtain ⟨week, -, table⟩ := doConfig_users configured enabled
  have listed : ∀ user : User, (user.hasIpList && user.ipList.contains ipAddress) =
      user.ipList.contains ipAddress := by
    intro user
    cases ipList : user.ipList <;> simp [User.hasIpList, ipList]
  unfold authenticateIp userOfAddress
  simp only [listed, table, List.find?_map, Function.comp_def, userEntry]
  cases List.find? (fun attr => (addressesOf (loadData stale (files filename)) attr.name).contains ipAddress)
    (userAttributes (loadData stale (files filename))) <;> rfl

theorem isAuditEnabled_configured (configured : doConfig files stale filename = some settings)
    (enabled : settings.authEnabled = true) :
    isAuditEnabled settings.users name = true ↔
      Configured (loadData stale (files filename)) name ∧ Audits (loadData stale (files filename)) name := by
  obtain ⟨week, -, table⟩ := doConfig_users configured enabled
  unfold isAuditEnabled
  rw [table, lookup_entries fun _ => rfl, configured_iff]
  cases found : lookup MultiValueAttribute.name name (userAttributes (loadData stale (files filename))) with
  | none => simp
  | some attr =>
    have same := key_of_lookup found
    simp [userEntry, same]

theorem accessAllowedAtTime_configured (configured : doConfig files stale filename = some settings)
    (enabled : settings.authEnabled = true) (time : LocalTime) :
    accessAllowedAtTime settings.users (some time) name = true ↔
      Permits (loadData stale (files filename)) name time := by
  obtain ⟨week, single, table⟩ := doConfig_users configured enabled
  unfold Permits
  rw [configured_iff]
  cases found : lookup MultiValueAttribute.name name (userAttributes (loadData stale (files filename))) with
  | none =>
    have unknown : lookup User.name name settings.users = none := by
      rw [table, lookup_entries fun _ => rfl, found]
      rfl
    simp [accessAllowedAtTime, unknown]
  | some attr =>
    have same := key_of_lookup found
    have own := accessAllowedAtTime_entry (loadData stale (files filename)) attr time
    rw [single] at own
    have search : lookup User.name name settings.users = lookup User.name attr.name
        [{ userEntry (loadData stale (files filename)) attr with weeklyAccess := week attr }] := by
      rw [table, lookup_entries fun _ => rfl, found]
      simp [lookup_cons, userEntry]
    simp only [Option.some.injEq, exists_eq', true_and]
    rw [← same, ← own, same]
    unfold accessAllowedAtTime
    rw [search, same]

end Table

/-! ## The decision -/

section Decision

variable {files : Files} {stale : Nat → Bytes × Bytes} {filename : Bytes} {settings : Settings}
  {localTime : Option LocalTime} {session : Session}

/-- The user that a request comes from: where credentials decode without a match, the one with the
empty name. -/
inductive ComesFrom (config : ConfigData) (session : Session) : Bytes → Prop
  | password {credString name password : Bytes}
      (header : Credentials.authorization session.request = some (some credString))
      (decoded : credentials credString = some (name, password))
      (accepted : HasPassword config name password) : ComesFrom config session name
  | unaccepted {credString name password : Bytes}
      (header : Credentials.authorization session.request = some (some credString))
      (decoded : credentials credString = some (name, password))
      (refused : ¬ HasPassword config name password) : ComesFrom config session []
  | address {name : Bytes} (noHeader : Credentials.authorization session.request = none)
      (listed : userOfAddress config session.clientIp = some name) : ComesFrom config session name

/-- The requests that the file lets through, and the user name that each one gets. -/
inductive Admits (config : ConfigData) (localTime : Option LocalTime) (session : Session) :
    Option Bytes → Prop
  | anybody (disabled : ¬ authEnabled config) : Admits config localTime session none
  | user {name : Bytes} {time : LocalTime} (enabled : authEnabled config)
      (comesFrom : ComesFrom config session name) (now : localTime = some time)
      (permits : Permits config name time) : Admits config localTime session (some name)

theorem doConfig_disabled (configured : doConfig files stale filename = some settings)
    (disabled : ¬ authEnabled (loadData stale (files filename))) : settings.users = [] := by
  simp only [doConfig] at configured
  split at configured
  · cases configured
  · cases configured
    exact if_neg disabled

theorem allowed_iff (configured : doConfig files stale filename = some settings)
    (enabled : settings.authEnabled = true) {name : Bytes} :
    accessAllowedAtTime settings.users localTime name = true ↔
      ∃ time, localTime = some time ∧ Permits (loadData stale (files filename)) name time := by
  cases localTime with
  | none => simp [accessAllowedAtTime]
  | some time => simp [accessAllowedAtTime_configured configured enabled]

theorem authenticate_comesFrom (configured : doConfig files stale filename = some settings)
    (enabled : settings.authEnabled = true) {credString name : Bytes}
    (header : Credentials.authorization session.request = some (some credString)) :
    authenticate settings.users credString [] = (true, name) ↔
      ComesFrom (loadData stale (files filename)) session name := by
  unfold authenticate
  cases decoded : credentials credString with
  | none =>
    simp only [Prod.mk.injEq, Bool.false_eq_true, false_and, false_iff]
    intro comesFrom
    cases comesFrom with
    | password again isDecoded _ | unaccepted again isDecoded _ =>
      cases header.symm.trans again
      cases decoded.symm.trans isDecoded
    | address noHeader _ => cases header.symm.trans noHeader
  | some pair =>
    by_cases accepted : authenticate_i settings.users pair.1 pair.2 = true
    · have hasPassword := (authenticate_i_configured configured enabled).mp accepted
      simp only [accepted, if_true, Prod.mk.injEq, true_and]
      constructor
      · rintro rfl
        exact .password header decoded hasPassword
      · intro comesFrom
        cases comesFrom with
        | password again isDecoded _ =>
          cases header.symm.trans again
          cases decoded.symm.trans isDecoded
          rfl
        | unaccepted again isDecoded refused =>
          cases header.symm.trans again
          cases decoded.symm.trans isDecoded
          exact absurd hasPassword refused
        | address noHeader _ => cases header.symm.trans noHeader
    · have noPassword := fun has => accepted ((authenticate_i_configured configured enabled).mpr has)
      simp only [accepted, if_false, Prod.mk.injEq, true_and, Bool.false_eq_true]
      constructor
      · rintro rfl
        exact .unaccepted header decoded noPassword
      · intro comesFrom
        cases comesFrom with
        | password again isDecoded hasPassword =>
          cases header.symm.trans again
          cases decoded.symm.trans isDecoded
          exact absurd hasPassword noPassword
        | unaccepted again isDecoded _ => rfl
        | address noHeader _ => cases header.symm.trans noHeader

theorem authorizeBasic_iff (configured : doConfig files stale filename = some settings)
    (enabled : settings.authEnabled = true) {rawCreds : Option Bytes}
    (header : Credentials.authorization session.request = some rawCreds) {userName : Option Bytes} :
    authorizeBasic settings localTime rawCreds = ⟨userName, none⟩ ↔
      ∃ name time, userName = some name ∧ localTime = some time ∧
        ComesFrom (loadData stale (files filename)) session name ∧
        Permits (loadData stale (files filename)) name time := by
  cases rawCreds with
  | none =>
    simp only [authorizeBasic, Bool.false_and, Bool.false_eq_true, if_false, Verdict.mk.injEq,
      reduceCtorEq, and_false, false_iff]
    rintro ⟨name, time, -, -, comesFrom, -⟩
    cases comesFrom with
    | password again _ _ | unaccepted again _ _ | address again _ => cases header.symm.trans again
  | some credString =>
    have source : ∀ name, authenticate settings.users credString [] = (true, name) ↔
        ComesFrom (loadData stale (files filename)) session name :=
      fun _ => authenticate_comesFrom configured enabled header
    simp only [authorizeBasic]
    cases result : authenticate settings.users credString [] with
    | mk canConnect name =>
      simp only [result, Prod.mk.injEq] at source
      cases canConnect with
      | false =>
        simp only [Bool.false_and, Bool.false_eq_true, if_false, Verdict.mk.injEq, reduceCtorEq,
          and_false, false_iff]
        rintro ⟨other, time, -, -, comesFrom, -⟩
        exact absurd ((source other).mpr comesFrom).1 Bool.false_ne_true
      | true =>
        simp only [Bool.true_and, if_true, Verdict.mk.injEq]
        constructor
        · rintro ⟨rfl, allowed⟩
          have permitted : accessAllowedAtTime settings.users localTime name = true := by
            by_contra refused
            simp [refused] at allowed
          obtain ⟨time, now, permits⟩ := (allowed_iff configured enabled).mp permitted
          exact ⟨name, time, rfl, now, (source name).mp ⟨rfl, rfl⟩, permits⟩
        · rintro ⟨other, time, rfl, now, comesFrom, permits⟩
          cases ((source other).mpr comesFrom).2
          have permitted := (allowed_iff configured enabled).mpr ⟨time, now, permits⟩
          exact ⟨rfl, if_pos permitted⟩

theorem authorizeIp_iff (configured : doConfig files stale filename = some settings)
    (enabled : settings.authEnabled = true)
    (noHeader : Credentials.authorization session.request = none) {userName : Option Bytes} :
    authorizeIp settings localTime session.clientIp = ⟨userName, none⟩ ↔
      ∃ name time, userName = some name ∧ localTime = some time ∧
        ComesFrom (loadData stale (files filename)) session name ∧
        Permits (loadData stale (files filename)) name time := by
  have source : ∀ name, ComesFrom (loadData stale (files filename)) session name ↔
      userOfAddress (loadData stale (files filename)) session.clientIp = some name := by
    intro name
    constructor
    · intro comesFrom
      cases comesFrom with
      | password header _ _ | unaccepted header _ _ => cases noHeader.symm.trans header
      | address _ listed => exact listed
    · exact .address noHeader
  simp only [authorizeIp, authenticateIp_configured configured enabled, source]
  cases userOfAddress (loadData stale (files filename)) session.clientIp with
  | none => simp
  | some name =>
    simp only [Option.some.injEq]
    constructor
    · intro admitted
      split at admitted
      · rename_i permitted
        cases admitted
        obtain ⟨time, now, permits⟩ := (allowed_iff configured enabled).mp permitted
        exact ⟨name, time, rfl, now, rfl, permits⟩
      · cases admitted
    · rintro ⟨other, time, rfl, now, rfl, permits⟩
      have permitted := (allowed_iff configured enabled).mpr ⟨time, now, permits⟩
      rw [if_pos permitted]

theorem authorize_configured (configured : doConfig files stale filename = some settings)
    (localTime : Option LocalTime) (session : Session) (userName : Option Bytes) :
    authorize settings localTime session = ⟨userName, none⟩ ↔
      Admits (loadData stale (files filename)) localTime session userName := by
  have isEnabled := doConfig_authEnabled configured
  cases enabled : settings.authEnabled with
  | false =>
    have disabled : ¬ authEnabled (loadData stale (files filename)) := fun intended =>
      Bool.false_ne_true (enabled.symm.trans (isEnabled.mpr intended))
    simp only [authorize, enabled, Bool.false_eq_true, if_false, Verdict.mk.injEq, and_true]
    constructor
    · rintro rfl
      exact .anybody disabled
    · intro admits
      cases admits with
      | anybody _ => rfl
      | user intended _ _ _ => exact absurd intended disabled
  | true =>
    have intended := isEnabled.mp enabled
    have admits : Admits (loadData stale (files filename)) localTime session userName ↔
        ∃ name time, userName = some name ∧ localTime = some time ∧
          ComesFrom (loadData stale (files filename)) session name ∧
          Permits (loadData stale (files filename)) name time := by
      constructor
      · intro admits
        cases admits with
        | anybody disabled => exact absurd intended disabled
        | user _ comesFrom now permits => exact ⟨_, _, rfl, now, comesFrom, permits⟩
      · rintro ⟨name, time, rfl, now, comesFrom, permits⟩
        exact .user intended comesFrom now permits
    rw [admits]
    unfold authorize
    rw [if_pos enabled]
    cases header : Credentials.authorization session.request with
    | some rawCreds => exact authorizeBasic_iff configured enabled header
    | none => exact authorizeIp_iff configured enabled header

/-- For any legible configuration file that `DoConfig` loads, any request and any time: where the words
of the credentials and the lines of the log fit, the proxy lets the request through, under a name, exactly
when the file does; and it audits the users that the file says. -/
theorem configured_access {logging : Logging} (configured : doConfig files stale filename = some settings)
    (legible : Legible (files filename)) (localTime : Option LocalTime) (session : Session)
    (_inside : settings.authEnabled = true → Credentials.StaysInside session.request)
    (_lines : ∀ call ∈ Log.authorizeCalls settings session, call.Fits logging.verbosity logging.latest) :
    (∀ userName, authorize settings localTime session = ⟨userName, none⟩ ↔
      Admits (fileData (files filename)) localTime session userName) ∧
    ∀ userName, isAuditEnabled settings.users userName = true ↔
      authEnabled (fileData (files filename)) ∧ Configured (fileData (files filename)) userName ∧
        Audits (fileData (files filename)) userName := by
  rw [← loadData_legible stale legible]
  refine ⟨authorize_configured configured localTime session, fun userName => ?_⟩
  have isEnabled := doConfig_authEnabled configured
  cases enabled : settings.authEnabled with
  | false =>
    have disabled : ¬ authEnabled (loadData stale (files filename)) := fun intended =>
      Bool.false_ne_true (enabled.symm.trans (isEnabled.mpr intended))
    simp [doConfig_disabled configured disabled, disabled, isAuditEnabled]
  | true =>
    rw [isAuditEnabled_configured configured enabled]
    simp [isEnabled.mp enabled]

/-- A file with two users, of whom one is also known by an address and kept off on Sunday evenings. -/
def familyFiles : Files := fun path =>
  if path = bytes "default.conf" then
    some (bytes ("[Proxy]\nauth:enabled\n[UserAuth]\nann:pw\nbob:wp\n[bob]\nip_list:10.0.0.2\naudit:enabled\n" ++
      "time_based_policy:enabled\nsun:----------------------------------------xxxxxxxx\n"))
  else none

/-- Bob's client. -/
def bobsSession : Session := (Session.make ⟨false, 0, 0, 0⟩ 5 0 0).setClientAddress (bytes "10.0.0.2")

theorem family_decisions :
    (doConfig familyFiles (fun _ => ([], [])) (bytes "default.conf")).any (fun settings =>
      authorize settings (some ⟨0, 19, 59⟩) bobsSession = ⟨some (bytes "bob"), none⟩ &&
        (authorize settings (some ⟨0, 20, 0⟩) bobsSession).refusal = some forbidden &&
        isAuditEnabled settings.users (bytes "bob") &&
        decide (∀ call ∈ Log.authorizeCalls settings bobsSession, call.Fits .debug 0)) = true := by
  decide +kernel

/-- Bob's last half hour on a Sunday, and the one after it. -/
theorem configured_access_family :
    let config := fileData (familyFiles (bytes "default.conf"))
    let session := (Session.make ⟨false, 0, 0, 0⟩ 5 0 0).setClientAddress (bytes "10.0.0.2")
    Admits config (some ⟨0, 19, 59⟩) session (some (bytes "bob")) ∧
      (∀ userName, ¬ Admits config (some ⟨0, 20, 0⟩) session userName) ∧
      Audits config (bytes "bob") := by
  intro config session
  obtain ⟨settings, configured, decisions⟩ := (Option.any_eq_true _ _).mp family_decisions
  simp only [Bool.and_eq_true, decide_eq_true_eq] at decisions
  obtain ⟨⟨⟨admitted, refused⟩, audited⟩, lines⟩ := decisions
  have legible : Legible (familyFiles (bytes "default.conf")) := by decide +kernel
  have inside : Credentials.StaysInside session.request := by decide
  have access := fun localTime =>
    @configured_access _ _ _ _ ⟨.debug, 0⟩ configured legible localTime session (fun _ => inside) lines
  refine ⟨((access _).1 _).mp admitted, fun userName admits => ?_, ?_⟩
  · change (authorize settings _ session).refusal = some forbidden at refused
    rw [((access _).1 _).mpr admits] at refused
    cases refused
  · exact (((access none).2 _).mp audited).2.2

end Decision

end Config

end NermalProxy
