import Mathlib.Algebra.BigOperators.Group.Multiset.Basic
import Mathlib.Data.List.DropRight
import Mathlib.Data.Multiset.Filter
import NermalProxy.SessionCalls

/-! # The audit table

A session that ends while it is audited is a `Usage`.  The table of a log period is the
report on the usages of the period: a function of the multiset of them, so their order
does not matter. -/

namespace NermalProxy

open NermalProxy.CString NermalProxy.KeyedList NermalProxy.Config NermalProxy.Transition

/-! ## What the table is for -/

/-- What is known of an audited session when it ends. -/
structure Usage where
  sessionId : Nat
  userName : Bytes
  host : Bytes
  duration : UInt64
  rxBytes : UInt64
  txBytes : UInt64
  deriving DecidableEq, Repr

namespace Usage

/-- Modulo 2^64. -/
def total (counter : Usage → UInt64) (usages : Multiset Usage) : UInt64 :=
  UInt64.ofNat (usages.map (fun usage => (counter usage).toNat)).sum

def IsOf (userName host : Bytes) (usage : Usage) : Prop :=
  usage.userName = userName ∧ usage.host = host

instance (userName host : Bytes) : DecidablePred (IsOf userName host) :=
  fun usage => inferInstanceAs (Decidable (usage.userName = userName ∧ usage.host = host))

/-- The row of a user and a host, where there is one. -/
def report (usages : Multiset Usage) (userName host : Bytes) : Option SiteStats :=
  let own := usages.filter (IsOf userName host)
  if own = 0 then none
  else some
    { hostName := host
      rxBytes := total rxBytes own
      txBytes := total txBytes own
      totalTime := total duration own
      connections := own.card }

/-- What `EndSession` does to the row of the usage. -/
def book (usage : Usage) (site : SiteStats) : SiteStats :=
  site.record usage.duration usage.rxBytes usage.txBytes

@[simp] theorem total_zero (counter : Usage → UInt64) : total counter 0 = 0 := rfl

theorem total_cons (counter : Usage → UInt64) (usage : Usage) (usages : Multiset Usage) :
    total counter (usage ::ₘ usages) = total counter usages + counter usage := by
  simp [total, UInt64.add_comm]

theorem report_cons_same (usage : Usage) (usages : Multiset Usage) :
    report (usage ::ₘ usages) usage.userName usage.host =
      some (usage.book ((report usages usage.userName usage.host).getD (.make usage.host))) := by
  have isOwn : IsOf usage.userName usage.host usage := ⟨rfl, rfl⟩
  simp only [report, Multiset.filter_cons_of_pos _ isOwn, Multiset.cons_ne_zero, if_false, total_cons,
    Multiset.card_cons]
  by_cases first : usages.filter (IsOf usage.userName usage.host) = 0
  · simp [first, book, SiteStats.record, SiteStats.make]
  · simp [first, book, SiteStats.record]

theorem report_cons_other {userName host : Bytes} (usage : Usage) (usages : Multiset Usage)
    (different : ¬ usage.IsOf userName host) :
    report (usage ::ₘ usages) userName host = report usages userName host := by
  simp only [report, Multiset.filter_cons_of_neg _ different]

end Usage

namespace GlobalStats

/-- The row that `GetStats(userName).GetStats(host)` would find. -/
def siteStats (stats : GlobalStats) (userName host : Bytes) : Option SiteStats :=
  (lookup UserStats.userName userName stats.userStats).bind
    (fun user => lookup SiteStats.hostName host user.stats)

/-- At most one entry for each user, and in it at most one for each host. -/
structure Distinct (stats : GlobalStats) : Prop where
  users : (stats.userStats.map UserStats.userName).Nodup
  hosts : ∀ user ∈ stats.userStats, (user.stats.map SiteStats.hostName).Nodup

variable {stats : GlobalStats} {userName host : Bytes} {change : SiteStats → SiteStats}

/-- What `GetStats(host)` and a change of its row make of a user's entry. -/
def recorded (host : Bytes) (change : SiteStats → SiteStats) (user : UserStats) : UserStats :=
  { user with stats := upsert SiteStats.hostName host (.make host) change user.stats }

theorem lookup_record_same :
    lookup UserStats.userName userName (stats.record userName host change).userStats =
      some (recorded host change
        ((lookup UserStats.userName userName stats.userStats).getD ⟨userName, []⟩)) :=
  lookup_upsert_same (fun _ => rfl) rfl

theorem lookup_record_other {otherName : Bytes} (different : otherName ≠ userName) :
    lookup UserStats.userName otherName (stats.record userName host change).userStats =
      lookup UserStats.userName otherName stats.userStats :=
  lookup_upsert_other (fun _ => rfl) rfl different

theorem siteStats_record_same (keeps : ∀ site, (change site).hostName = site.hostName) :
    (stats.record userName host change).siteStats userName host =
      some (change ((stats.siteStats userName host).getD (.make host))) := by
  have row : ∀ user : UserStats, lookup SiteStats.hostName host (recorded host change user).stats =
      some (change ((lookup SiteStats.hostName host user.stats).getD (.make host))) :=
    fun _ => lookup_upsert_same keeps rfl
  simp only [siteStats, lookup_record_same, Option.bind_some, row]
  cases lookup UserStats.userName userName stats.userStats with
  | none => rfl
  | some user => rfl

theorem siteStats_record_other {otherName otherHost : Bytes}
    (keeps : ∀ site, (change site).hostName = site.hostName)
    (different : ¬ (userName = otherName ∧ host = otherHost)) :
    (stats.record userName host change).siteStats otherName otherHost =
      stats.siteStats otherName otherHost := by
  unfold siteStats
  by_cases sameUser : otherName = userName
  · subst sameUser
    have otherSite : otherHost ≠ host := fun same => different ⟨rfl, same.symm⟩
    have row : ∀ user : UserStats,
        lookup SiteStats.hostName otherHost (recorded host change user).stats =
          lookup SiteStats.hostName otherHost user.stats :=
      fun _ => lookup_upsert_other keeps rfl otherSite
    rw [lookup_record_same, Option.bind_some, row]
    cases lookup UserStats.userName otherName stats.userStats with
    | none => rfl
    | some user => rfl
  · rw [lookup_record_other sameUser]

theorem Distinct.record (distinct : stats.Distinct)
    (keeps : ∀ site, (change site).hostName = site.hostName) :
    (stats.record userName host change).Distinct := by
  refine ⟨nodup_upsert (fun _ => rfl) rfl distinct.users, ?_⟩
  intro user member
  rcases mem_upsert member with older | same
  · exact distinct.hosts user older
  · have hosts : (((lookup UserStats.userName userName stats.userStats).getD ⟨userName, []⟩).stats.map
        SiteStats.hostName).Nodup := by
      cases search : lookup UserStats.userName userName stats.userStats with
      | none => exact List.nodup_nil
      | some found => exact distinct.hosts found (mem_of_lookup search)
    rw [same]
    exact nodup_upsert keeps rfl hosts

end GlobalStats

/-! ## Calls in any order -/

/-- The calls on sessions and statistics, and those that set the flags they depend on. -/
inductive AuditAction where
  | call (call : SessionCall)
  | setEnabled (enable : Bool)
  | setAudit (username : Bytes) (audit : Bool)

namespace AuditState

def step (state : AuditState) : AuditAction → AuditState
  | .call call => state.call call
  | .setEnabled enable => { state with settings := { state.settings with authEnabled := enable } }
  | .setAudit username audit =>
    { state with
      settings := { state.settings with users := AuthManager.setAudit state.settings.users username audit } }

def Initial (state : AuditState) : Prop :=
  state.sessions = ⟨0, []⟩ ∧ state.stats.userStats = []

/-- The usage that a call ends: of a session with a host, while authentication and the auditing of
its user are enabled. -/
def usage (state : AuditState) : AuditAction → Option Usage
  | .call (.endSession sessionId now) =>
    match state.sessions.getSession sessionId with
    | none => none
    | some session =>
      if session.hostUrl ≠ [] ∧ state.settings.authEnabled = true ∧
          AuthManager.isAuditEnabled state.settings.users session.userName = true then
        some
          { sessionId := session.sessionId
            userName := session.userName
            host := session.hostUrl
            duration := now - session.timestamp
            rxBytes := session.clientRxBytes
            txBytes := session.clientTxBytes }
      else none
  | _ => none

end AuditState

abbrev AuditHistory := List (AuditState × AuditAction)

def auditSystem : System AuditState AuditAction :=
  System.ofFunction AuditState.Initial (fun state action => some (state.step action))

namespace AuditHistory

def isReset (entry : AuditState × AuditAction) : Bool :=
  match entry.2 with
  | .call (.logAndReset _) => true
  | _ => false

def usages (history : AuditHistory) : List Usage :=
  history.filterMap (fun entry => entry.1.usage entry.2)

/-- The part of the history since the last `LogAndReset`. -/
def sinceReset (history : AuditHistory) : AuditHistory :=
  history.rtakeWhile (fun entry => !isReset entry)

theorem usages_snoc (history : AuditHistory) (state : AuditState) (action : AuditAction) :
    usages (history ++ [(state, action)]) = usages history ++ (state.usage action).toList :=
  filterMap_snoc _ history (state, action)

theorem sinceReset_snoc (history : AuditHistory) (state : AuditState) (action : AuditAction) :
    sinceReset (history ++ [(state, action)]) =
      if isReset (state, action) then [] else sinceReset history ++ [(state, action)] := by
  rw [sinceReset, List.rtakeWhile_concat]
  cases isReset (state, action) <;> simp [sinceReset]

end AuditHistory

namespace AuditState

open AuditHistory

variable {state : AuditState} {history : AuditHistory}

/-! ## One call -/

theorem ids_update (manager : SessionManager) (sessionId : Nat) (setter : Setter) :
    (manager.update sessionId (fun session => setter.apply session)).ids = manager.ids :=
  map_adjust (fun _ => by cases setter <;> rfl)

theorem ids_endSession (settings : Settings) (now : UInt64) (sessionId : Nat) (manager : SessionManager)
    (stats : GlobalStats) :
    (SessionManager.endSession settings now sessionId manager stats).1.ids =
      manager.ids.erase sessionId := by
  rw [SessionManager.endSession_list]
  exact map_remove _

/-- A usage is that of a live session, which the call ends. -/
theorem usage_live {action : AuditAction} {usage : Usage} (used : state.usage action = some usage) :
    usage.sessionId ∈ state.sessions.ids ∧
      (state.step action).sessions.ids = state.sessions.ids.erase usage.sessionId ∧
      (state.step action).stats = state.stats.record usage.userName usage.host usage.book := by
  unfold AuditState.usage at used
  split at used
  · rename_i sessionId now
    cases found : state.sessions.getSession sessionId with
    | none => simp [found] at used
    | some session =>
      have named := SessionManager.getSession_sessionId found
      simp only [found] at used
      split at used
      · rename_i audited
        cases used
        refine ⟨List.mem_map_of_mem (SessionManager.mem_of_getSession found), ?_, ?_⟩
        · rw [named]
          exact ids_endSession _ _ _ _ _
        · simp only [step, call, SessionManager.endSession, found, SessionManager.audit, if_pos audited]
          rfl
      · cases used
  · cases used

/-- A call that is neither the end of an audited session nor a reset leaves the table alone. -/
theorem stats_of_unused {action : AuditAction} (unused : state.usage action = none)
    (keeps : isReset (state, action) = false) : (state.step action).stats = state.stats := by
  cases action with
  | setEnabled enable => rfl
  | setAudit username audit => rfl
  | call call =>
    cases call with
    | createSession storage clientFd now => rfl
    | update sessionId setter => rfl
    | logAndReset now => cases keeps
    | endSession sessionId now =>
      simp only [step, AuditState.call, SessionManager.endSession]
      cases found : state.sessions.getSession sessionId with
      | none => rfl
      | some session =>
        simp only [AuditState.usage, found] at unused
        simp only [SessionManager.audit]
        split at unused
        · cases unused
        · rename_i notAudited
          rw [if_neg notAudited]

theorem reset_usage {action : AuditAction} (reset : isReset (state, action) = true) :
    state.usage action = none ∧ (state.step action).stats.userStats = [] := by
  cases action with
  | call call =>
    cases call with
    | logAndReset now => exact ⟨rfl, rfl⟩
    | _ => cases reset
  | _ => cases reset

/-- Ids are given out in order. -/
theorem ids_step (state : AuditState) (action : AuditAction) :
    ((state.step action).sessions.ids.Sublist state.sessions.ids ∧
      (state.step action).sessions.sessionId = state.sessions.sessionId) ∨
    ((state.step action).sessions.ids = state.sessions.ids ++ [state.sessions.sessionId] ∧
      (state.step action).sessions.sessionId = state.sessions.sessionId + 1) := by
  cases action with
  | setEnabled enable => exact .inl ⟨List.Sublist.refl _, rfl⟩
  | setAudit username audit => exact .inl ⟨List.Sublist.refl _, rfl⟩
  | call call =>
    cases call with
    | createSession storage clientFd now =>
      exact .inr ⟨by simp [step, AuditState.call, SessionManager.createSession, SessionManager.ids,
        Session.make], rfl⟩
    | update sessionId setter =>
      refine .inl ⟨?_, rfl⟩
      simp only [step, AuditState.call, ids_update, List.Sublist.refl]
    | endSession sessionId now =>
      refine .inl ⟨?_, ?_⟩
      · simp only [step, AuditState.call, ids_endSession]
        exact List.erase_sublist
      · simp only [step, AuditState.call, SessionManager.endSession_list]
    | logAndReset now => exact .inl ⟨List.Sublist.refl _, rfl⟩

/-! ## Whole runs -/

/-- The invariant of a run of calls. -/
structure Booked (history : AuditHistory) (state : AuditState) : Prop where
  table : ∀ userName host, state.stats.siteStats userName host =
    Usage.report (usages (sinceReset history)) userName host
  distinct : state.stats.Distinct
  ids_nodup : state.sessions.ids.Nodup
  ids_lt : ∀ id ∈ state.sessions.ids, id < state.sessions.sessionId
  past : ∀ usage ∈ usages history,
    usage.sessionId < state.sessions.sessionId ∧ usage.sessionId ∉ state.sessions.ids
  once : ((usages history).map Usage.sessionId).Nodup

theorem booked_initial (initial : Initial state) : Booked [] state := by
  obtain ⟨sessions, stats⟩ := initial
  have noUser : ∀ user, user ∉ state.stats.userStats := by simp [stats]
  refine ⟨?_, ⟨by simp [stats], fun user member => absurd member (noUser user)⟩, ?_, ?_, ?_, ?_⟩
  · intro userName host
    simp [GlobalStats.siteStats, stats, usages, sinceReset, Usage.report]
  · simp [sessions, SessionManager.ids]
  · simp [sessions, SessionManager.ids]
  · intro usage member
    cases member
  · exact List.nodup_nil

/-- What a call does to one row: only the row of the session it ends changes. -/
theorem siteStats_step {action : AuditAction} (keeps : isReset (state, action) = false)
    (userName host : Bytes) :
    (state.step action).stats.siteStats userName host =
      match state.usage action with
      | some usage =>
        if usage.IsOf userName host then
          some (usage.book ((state.stats.siteStats userName host).getD (.make host)))
        else state.stats.siteStats userName host
      | none => state.stats.siteStats userName host := by
  cases used : state.usage action with
  | none => rw [stats_of_unused used keeps]
  | some usage =>
    have recorded := (usage_live used).2.2
    have named : ∀ site, (usage.book site).hostName = site.hostName := fun _ => rfl
    rw [recorded]
    by_cases own : usage.IsOf userName host
    · obtain ⟨rfl, rfl⟩ := own
      exact (GlobalStats.siteStats_record_same named).trans (if_pos ⟨rfl, rfl⟩).symm
    · exact (GlobalStats.siteStats_record_other named own).trans (if_neg own).symm

theorem table_step {action : AuditAction}
    (table : ∀ userName host, state.stats.siteStats userName host =
      Usage.report (usages (sinceReset history)) userName host) (userName host : Bytes) :
    (state.step action).stats.siteStats userName host =
      Usage.report (usages (sinceReset (history ++ [(state, action)]))) userName host := by
  cases reset : isReset (state, action) with
  | true =>
    rw [sinceReset_snoc, reset, if_pos rfl]
    simp [GlobalStats.siteStats, (reset_usage reset).2, usages, Usage.report]
  | false =>
    rw [sinceReset_snoc, reset, if_neg (by simp), usages_snoc, siteStats_step reset, table]
    cases used : state.usage action with
    | none => simp
    | some usage =>
      have grown : ((usages (sinceReset history) ++ [usage] : List Usage) : Multiset Usage) =
          usage ::ₘ (usages (sinceReset history) : Multiset Usage) := State.coe_snoc _ _
      simp only [Option.toList_some, grown]
      by_cases own : usage.IsOf userName host
      · obtain ⟨rfl, rfl⟩ := own
        exact (if_pos ⟨rfl, rfl⟩).trans (Usage.report_cons_same usage _).symm
      · exact (if_neg own).trans (Usage.report_cons_other usage _ own).symm

theorem distinct_step {action : AuditAction} (distinct : state.stats.Distinct) :
    (state.step action).stats.Distinct := by
  cases reset : isReset (state, action) with
  | true =>
    have empty := (reset_usage reset).2
    have noUser : ∀ user, user ∉ (state.step action).stats.userStats := by simp [empty]
    exact ⟨by simp [empty], fun user member => absurd member (noUser user)⟩
  | false =>
    cases used : state.usage action with
    | none =>
      rw [stats_of_unused used reset]
      exact distinct
    | some usage =>
      rw [(usage_live used).2.2]
      exact distinct.record (fun _ => rfl)

/-- A new session has an id that no live session has. -/
theorem Booked.ids_step (booked : Booked history state) (action : AuditAction) :
    (state.step action).sessions.ids.Nodup ∧
      ∀ id ∈ (state.step action).sessions.ids, id < (state.step action).sessions.sessionId := by
  rcases AuditState.ids_step state action with ⟨fewer, nextId⟩ | ⟨appended, nextId⟩
  · rw [nextId]
    exact ⟨fewer.nodup booked.ids_nodup, fun id member => booked.ids_lt id (fewer.subset member)⟩
  · have fresh : state.sessions.sessionId ∉ state.sessions.ids :=
      fun member => Nat.lt_irrefl _ (booked.ids_lt _ member)
    rw [appended, nextId]
    refine ⟨List.Nodup.append booked.ids_nodup (List.nodup_singleton _) (by simpa using fresh), ?_⟩
    intro id member
    rcases List.mem_append.mp member with older | last
    · exact Nat.lt_succ_of_lt (booked.ids_lt id older)
    · rw [List.mem_singleton.mp last]
      exact Nat.lt_succ_self _

/-- A session that has been booked is gone, and its id is not given out again. -/
theorem Booked.past_step (booked : Booked history state) {action : AuditAction} {usage : Usage}
    (member : usage ∈ usages (history ++ [(state, action)])) :
    usage.sessionId < (state.step action).sessions.sessionId ∧
      usage.sessionId ∉ (state.step action).sessions.ids := by
  rw [usages_snoc, List.mem_append, Option.mem_toList] at member
  have wasBelow : usage.sessionId < state.sessions.sessionId := by
    rcases member with older | used
    · exact (booked.past usage older).1
    · exact booked.ids_lt _ (usage_live used).1
  have gone : usage.sessionId ∈ state.sessions.ids →
      usage.sessionId ∉ (state.step action).sessions.ids := by
    intro live
    rcases member with older | used
    · exact absurd live (booked.past usage older).2
    · rw [(usage_live used).2.1]
      exact booked.ids_nodup.not_mem_erase
  rcases AuditState.ids_step state action with ⟨fewer, nextId⟩ | ⟨appended, nextId⟩
  · rw [nextId]
    exact ⟨wasBelow, fun live => gone (fewer.subset live) live⟩
  · rw [nextId]
    refine ⟨Nat.lt_succ_of_lt wasBelow, fun live => ?_⟩
    have still := live
    rw [appended, List.mem_append, List.mem_singleton] at live
    rcases live with older | same
    · exact gone older still
    · exact Nat.lt_irrefl _ (same ▸ wasBelow)

theorem Booked.once_step (booked : Booked history state) (action : AuditAction) :
    ((usages (history ++ [(state, action)])).map Usage.sessionId).Nodup := by
  rw [usages_snoc, List.map_append]
  cases used : state.usage action with
  | none => simpa using booked.once
  | some usage =>
    refine List.Nodup.append booked.once (List.nodup_singleton _) ?_
    simp only [Option.toList_some, List.map_cons, List.map_nil, List.disjoint_singleton]
    intro member
    obtain ⟨older, isUsage, same⟩ := List.mem_map.mp member
    exact (booked.past older isUsage).2 (same ▸ (usage_live used).1)

theorem booked_step {action : AuditAction} (booked : Booked history state) :
    Booked (history ++ [(state, action)]) (state.step action) where
  table := table_step booked.table
  distinct := distinct_step booked.distinct
  ids_nodup := (booked.ids_step action).1
  ids_lt := (booked.ids_step action).2
  past _ member := booked.past_step member
  once := booked.once_step action

theorem run_booked (run : Run auditSystem (fun _ _ => True) history state) : Booked history state := by
  apply run.historyInvariant Booked
  · exact fun state initial => booked_initial initial
  · rintro history state action next - booked - stepped
    cases stepped
    exact booked_step booked

/-- After any calls there is at most one entry for each user and host; each row is the report on the
audited sessions of its user and host that ended since the last reset, whatever their order; no
session is in it twice; and no call changes a row but that of the session it ends. -/
theorem audit_table (run : Run auditSystem (fun _ _ => True) history state) :
    (state.stats.userStats.map UserStats.userName).Nodup ∧
    (∀ user ∈ state.stats.userStats, (user.stats.map SiteStats.hostName).Nodup) ∧
    (∀ userName host, state.stats.siteStats userName host =
      Usage.report (usages (sinceReset history)) userName host) ∧
    ((usages history).map Usage.sessionId).Nodup ∧
    (∀ action userName host, isReset (state, action) = false →
      (∀ usage, state.usage action = some usage → ¬ usage.IsOf userName host) →
      (state.step action).stats.siteStats userName host = state.stats.siteStats userName host) ∧
    (∀ otherHistory other, Run auditSystem (fun _ _ => True) otherHistory other →
      (usages (sinceReset otherHistory)).Perm (usages (sinceReset history)) →
      ∀ userName host, other.stats.siteStats userName host = state.stats.siteStats userName host) := by
  have booked := run_booked run
  refine ⟨booked.distinct.users, booked.distinct.hosts, booked.table, booked.once, ?_, ?_⟩
  · intro action userName host keeps others
    rw [siteStats_step keeps]
    cases used : state.usage action with
    | none => rfl
    | some usage => exact if_neg (others usage used)
  · intro otherHistory other otherRun perm userName host
    rw [(run_booked otherRun).table, booked.table, Multiset.coe_eq_coe.mpr perm]

/-- Two sessions of one user to one host, one of them ended twice. -/
theorem audit_table_twice : ∃ (history : AuditHistory) (state : AuditState),
    state.stats.siteStats (bytes "bob") (bytes "example.com") =
      some ⟨bytes "example.com", 5, 0, 9, 2⟩ ∧
    state.stats.siteStats (bytes "bob") (bytes "example.com") =
      Usage.report (usages (sinceReset history)) (bytes "bob") (bytes "example.com") := by
  let storage : SessionStorage := ⟨false, 0, 0, 0⟩
  let settings : Settings := ⟨10080, true, [], [(User.make (bytes "bob") []).setAudit true], []⟩
  let actions : List AuditAction :=
    [.call (.createSession storage 5 1), .call (.update 0 (.setHost (bytes "example.com"))),
      .call (.update 0 (.setUserName (bytes "bob"))), .call (.createSession storage 6 2),
      .call (.update 1 (.setHost (bytes "example.com"))),
      .call (.update 1 (.setUserName (bytes "bob"))), .call (.update 1 (.addRxBytes 5)),
      .call (.endSession 1 7), .call (.endSession 1 8), .call (.endSession 0 5)]
  let start : AuditState := ⟨settings, ⟨0, []⟩, ⟨[], 0⟩⟩
  have executed : ∃ history state,
      runActions (fun state action => some (AuditState.step state action)) [] start actions =
        some (history, state) ∧
      state.stats.siteStats (bytes "bob") (bytes "example.com") =
        some ⟨bytes "example.com", 5, 0, 9, 2⟩ := ⟨_, _, rfl, by decide⟩
  obtain ⟨history, state, executed, row⟩ := executed
  have started : Run auditSystem (fun _ _ => True) [] start := .start ⟨rfl, rfl⟩
  have run := run_of_runActions started (fun _ _ _ => trivial) executed
  exact ⟨history, state, row, (audit_table run).2.2.1 _ _⟩

end AuditState

/-! ## The proxy -/

namespace State

variable {state next : State} {settings : Settings}

theorem step_performs {action : Action} (stepped : state.step settings action = some next) :
    AuditState.Performs (fun _ => True) (state.audit settings) (next.audit settings) := by
  have weaker : Quietly settings state next →
      AuditState.Performs (fun _ => True) (state.audit settings) (next.audit settings) := by
    apply Relation.ReflTransGen.mono
    rintro before after ⟨call, -, same⟩
    exact ⟨call, trivial, same⟩
  cases step_calls stepped with
  | command quietly | timeout quietly | take quietly | work quietly => exact weaker quietly
  | accepted calls =>
    rw [calls]
    exact (AuditState.Performs.call trivial).trans (AuditState.Performs.call trivial)
  | teardown _ _ quietly => exact weaker quietly
  | relayed _ _ _ calls =>
    rw [calls]
    exact AuditState.Performs.call trivial

/-- A run of the proxy is a run of calls, so what holds of the table there holds here. -/
theorem audit_run {allowed : State → Action → Prop} {history : History}
    (run : Run (proxySystem settings) allowed history state) :
    ∃ calls, Run auditSystem (fun _ _ => True) calls (state.audit settings) := by
  apply run.invariant
    (fun state => ∃ calls, Run auditSystem (fun _ _ => True) calls (state.audit settings))
  · rintro state ⟨serverFd, commandFd, openFds, now, -, -, -, rfl⟩
    exact ⟨[], .start ⟨rfl, rfl⟩⟩
  · rintro state action next ⟨calls, earlier⟩ - stepped
    have performs := step_performs stepped
    generalize next.audit settings = after at performs
    induction performs with
    | refl => exact ⟨calls, earlier⟩
    | @tail middle _ _ last inductionHypothesis =>
      obtain ⟨call, -, rfl⟩ := last
      obtain ⟨calls, earlier⟩ := inductionHypothesis
      have called : auditSystem.step middle (.call call) (middle.call call) := rfl
      exact ⟨_, earlier.snoc trivial called⟩

end State

end NermalProxy
