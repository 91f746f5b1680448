import NermalProxy.Answers

/-! # Who is charged for what

A row of the audit table names a user and a host.  In every run each row goes back to a
session whose client had identified itself as that user and had asked for that host. -/

namespace NermalProxy

open NermalProxy.CString NermalProxy.KeyedList NermalProxy.Config NermalProxy.Credentials
  NermalProxy.SocketManager NermalProxy.Transition

/-- The request has the credentials of a user of this name, or it has none and comes from one of the
user's addresses. -/
def Identified (users : List User) (session : Session) (userName : Bytes) : Prop :=
  ∃ user ∈ users, user.name = userName ∧
    ((∃ credString, authorization session.request = some (some credString) ∧
        AuthManager.credentials credString = some (user.name, user.password)) ∨
      (authorization session.request = none ∧ session.clientIp ∈ user.ipList))

/-- In the run the successful detection of a session was handled that asked for this host in its only
read, and that had identified itself as this user. -/
def Attributed (settings : Settings) (history : History) (userName host : Bytes) : Prop :=
  ∃ before earlier localTime now registered after rest session,
    history = before ++ (earlier, Action.command localTime now registered) :: after ∧
    earlier.pipe = .hostDetectResult session.sessionId true :: rest ∧
    earlier.getSession session.sessionId = some session ∧
    Detected before session ∧ session.hostUrl = host ∧ Identified settings.users session userName

def GlobalStats.HasRow (stats : GlobalStats) (userName host : Bytes) : Prop :=
  ∃ entry ∈ stats.userStats, entry.userName = userName ∧ ∃ site ∈ entry.stats, site.hostName = host

theorem GlobalStats.hasRow_record {stats : GlobalStats} {userName host otherName otherHost : Bytes}
    {change : SiteStats → SiteStats} (keeps : ∀ site, (change site).hostName = site.hostName)
    (row : (stats.record userName host change).HasRow otherName otherHost) :
    stats.HasRow otherName otherHost ∨ (userName = otherName ∧ host = otherHost) := by
  obtain ⟨entry, member, rfl, site, isSite, rfl⟩ := row
  rcases mem_upsert member with older | isChanged
  · exact .inl ⟨entry, older, rfl, site, isSite, rfl⟩
  · have sameName : ((lookup UserStats.userName userName stats.userStats).getD ⟨userName, []⟩).userName =
        userName := key_getD rfl
    have named : entry.userName = userName := isChanged ▸ sameName
    rw [isChanged] at isSite
    rcases mem_upsert isSite with older | isRow
    · cases search : lookup UserStats.userName userName stats.userStats with
      | none => simp [search] at older
      | some found =>
        rw [search] at older
        exact .inl ⟨found, mem_of_lookup search, (key_of_lookup search).trans named.symm, site, older, rfl⟩
    · refine .inr ⟨named.symm, ?_⟩
      rw [isRow, keeps]
      have sameHost : ∀ sites, ((lookup SiteStats.hostName host sites).getD (.make host)).hostName = host :=
        fun _ => key_getD rfl
      exact (sameHost _).symm

theorem Attributed.snoc {settings : Settings} {history : History} {userName host : Bytes}
    (attributed : Attributed settings history userName host) (last : State × Action) :
    Attributed settings (history ++ [last]) userName host := by
  obtain ⟨before, earlier, localTime, now, registered, after, rest, session, rfl, evidence⟩ := attributed
  exact ⟨before, earlier, localTime, now, registered, after ++ [last], rest, session, by simp, evidence⟩

theorem authenticate_identified {users : List User} {credString userName : Bytes}
    (result : (AuthManager.authenticate users credString []).2 = userName) (notEmpty : userName ≠ []) :
    ∃ user ∈ users, user.name = userName ∧
      AuthManager.credentials credString = some (user.name, user.password) := by
  unfold AuthManager.authenticate at result
  cases decoded : AuthManager.credentials credString with
  | none =>
    rw [decoded] at result
    exact absurd result.symm notEmpty
  | some pair =>
    rw [decoded] at result
    by_cases accepted : AuthManager.authenticate_i users pair.1 pair.2 = true
    · obtain ⟨user, member, name, password⟩ := AuthManager.authenticate_i_sound accepted
      simp only [accepted, if_true] at result
      exact ⟨user, member, name.trans result, by rw [name, password]⟩
    · simp only [accepted, Bool.false_eq_true, if_false] at result
      exact absurd result.symm notEmpty

/-- A name that a verdict gives to a session is one that the session has identified itself with. -/
theorem authorize_identified {settings : Settings} {localTime : Option LocalTime} {session : Session}
    {userName : Bytes} (isNamed : (authorize settings localTime session).userName = some userName)
    (notEmpty : userName ≠ []) : Identified settings.users session userName := by
  cases enabled : settings.authEnabled with
  | false => simp [authorize, enabled] at isNamed
  | true =>
    cases header : authorization session.request with
    | some rawCreds =>
      simp only [authorize, enabled, if_true, header] at isNamed
      cases rawCreds with
      | none => simp [authorizeBasic] at isNamed
      | some credString =>
        simp only [authorizeBasic] at isNamed
        split at isNamed
        · obtain ⟨user, member, name, decoded⟩ :=
            authenticate_identified (Option.some.inj isNamed) notEmpty
          exact ⟨user, member, name, .inl ⟨credString, header, decoded⟩⟩
        · cases isNamed
    | none =>
      simp only [authorize, enabled, if_true, header, authorizeIp] at isNamed
      split at isNamed
      · rename_i username matched
        obtain ⟨user, member, rfl, listed⟩ := AuthManager.authenticateIp_sound matched
        split at isNamed
        · cases isNamed
          exact ⟨user, member, rfl, .inr ⟨header, listed⟩⟩
        · cases isNamed
      · cases isNamed

/-- The rows of the table are those of audited users, and each goes back to a request of the user's. -/
def RowAttributed (settings : Settings) (history : History) (userName host : Bytes) : Prop :=
  settings.authEnabled = true ∧ AuthManager.isAuditEnabled settings.users userName = true ∧ host ≠ [] ∧
    Attributed settings history userName host

/-- A live session that has a user name goes back to such a request, and so does each row. -/
structure Accounts (settings : Settings) (history : History) (sessions : SessionManager)
    (stats : GlobalStats) : Prop where
  named : ∀ session ∈ sessions.sessionList,
    session.userName = [] ∨ Attributed settings history session.userName session.hostUrl
  rows : ∀ userName host, stats.HasRow userName host → RowAttributed settings history userName host

/-- The detector's part of a session's life. -/
def Holder.Detecting : Holder → Prop
  | .task (.asyncDetector _) => True
  | .worker ⟨_, .detectorEnter⟩ | .worker ⟨_, .read _⟩ | .worker ⟨_, .setHost _⟩ => True
  | .worker ⟨_, .setPort _⟩ | .worker ⟨_, .setRequest _⟩ | .worker ⟨_, .setTransparent _⟩ => True
  | .worker ⟨_, .detectReply _⟩ => True
  | .message (.hostDetectResult _ _) => True
  | _ => False

section Accounts

variable {settings : Settings} {history : History} {sessions : SessionManager} {stats : GlobalStats}

theorem Accounts.snoc (accounts : Accounts settings history sessions stats) (last : State × Action) :
    Accounts settings (history ++ [last]) sessions stats where
  named session member := (accounts.named session member).imp_right (·.snoc last)
  rows userName host row := by
    obtain ⟨enabled, audited, isHost, attributed⟩ := accounts.rows userName host row
    exact ⟨enabled, audited, isHost, attributed.snoc last⟩

/-- An ended session is booked under its name and its host. -/
theorem Accounts.endSession (accounts : Accounts settings history sessions stats)
    (usersNamed : ∀ user ∈ settings.users, user.name ≠ []) (now : UInt64) (sessionId : Nat) :
    Accounts settings history (sessions.endSession settings now sessionId stats).1
      (sessions.endSession settings now sessionId stats).2 := by
  unfold SessionManager.endSession
  split
  · exact accounts
  · rename_i session found
    refine ⟨fun other member => accounts.named other (mem_of_mem_remove member), ?_⟩
    intro userName host row
    simp only [SessionManager.audit] at row
    split at row
    · rename_i audited
      rcases GlobalStats.hasRow_record (by exact fun _ => rfl) row with older | ⟨rfl, rfl⟩
      · exact accounts.rows userName host older
      · rcases accounts.named session (SessionManager.mem_of_getSession found) with nameless | attributed
        · have enabled := audited.2.2
          rw [nameless, AuthManager.isAuditEnabled] at enabled
          split at enabled
          · rename_i user search
            exact absurd (key_of_lookup search) (usersNamed user (mem_of_lookup search))
          · cases enabled
        · exact ⟨audited.2.1, audited.2.2, audited.1, attributed⟩
    · exact accounts.rows userName host row

theorem Accounts.createSession (accounts : Accounts settings history sessions stats)
    (storage : SessionStorage) (clientFd : Fd) (now : UInt64) :
    Accounts settings history (sessions.createSession storage clientFd now).1 stats where
  named session member := by
    rcases List.mem_append.mp member with older | last
    · exact accounts.named session older
    · rw [List.mem_singleton.mp last]
      exact .inl rfl
  rows := accounts.rows

theorem Accounts.update (accounts : Accounts settings history sessions stats) {sessionId : Nat}
    {change : Session → Session}
    (named : ∀ session, sessions.getSession sessionId = some session →
      (change session).userName = [] ∨
        Attributed settings history (change session).userName (change session).hostUrl) :
    Accounts settings history (sessions.update sessionId change) stats where
  named session member := by
    rcases mem_adjust member with older | ⟨found, search, rfl⟩
    · exact accounts.named session older
    · exact named found search
  rows := accounts.rows

/-- A change that touches neither the name nor the host. -/
theorem Accounts.update_other (accounts : Accounts settings history sessions stats) {sessionId : Nat}
    {change : Session → Session} (userName : ∀ session, (change session).userName = session.userName)
    (hostUrl : ∀ session, (change session).hostUrl = session.hostUrl) :
    Accounts settings history (sessions.update sessionId change) stats := by
  apply accounts.update
  intro session found
  rw [userName, hostUrl]
  exact accounts.named session (SessionManager.mem_of_getSession found)

end Accounts

namespace State

variable {state next : State} {settings : Settings} {history : History} {action : Action} {holder : Holder}

structure Charged (settings : Settings) (history : History) (state : State) : Prop where
  accounts : Accounts settings history state.sessions state.stats
  nameless : ∀ holder ∈ state.holders, holder.Detecting → ∀ session,
    state.getSession holder.sessionId = some session → session.userName = []

/-! ## One step -/

theorem accounts_reject (usersNamed : ∀ user ∈ settings.users, user.name ≠ [])
    (accounts : Accounts settings history state.sessions state.stats) (session : Session) (now : UInt64)
    (response : Bytes) :
    Accounts settings history (reject settings now session response state).sessions
      (reject settings now session response state).stats :=
  accounts.endSession usersNamed now session.sessionId

/-- The end of a session whose sockets have been removed. -/
theorem accounts_unlink (usersNamed : ∀ user ∈ settings.users, user.name ≠ [])
    (accounts : Accounts settings history state.sessions state.stats) (fd : Fd) (now : UInt64)
    (sessionId : Nat) :
    Accounts settings history ((removeSocket fd state).endSession settings now sessionId).sessions
      ((removeSocket fd state).endSession settings now sessionId).stats := by
  obtain ⟨_, _, _, removed⟩ := removeSocket_frame fd state
  rw [removed]
  exact accounts.endSession usersNamed now sessionId

theorem accounts_teardown (usersNamed : ∀ user ∈ settings.users, user.name ≠ [])
    (accounts : Accounts settings history state.sessions state.stats) (socket : ClientSocket)
    (now : UInt64) :
    Accounts settings history (teardown settings now socket state).sessions
      (teardown settings now socket state).stats := by
  apply accounts_unlink usersNamed
  obtain ⟨_, _, _, removed⟩ := removeSocket_frame socket.socketFd state
  rw [removed]
  exact accounts

theorem accounts_evictions (usersNamed : ∀ user ∈ settings.users, user.name ≠ [])
    (accounts : Accounts settings history state.sessions state.stats)
    (evictions : Relation.ReflTransGen (Evicts settings) state next) :
    Accounts settings history next.sessions next.stats := by
  induction evictions with
  | refl => exact accounts
  | tail _ eviction inductionHypothesis =>
    obtain ⟨socket, now, -, rfl⟩ := evicts_unlink eviction
    apply accounts_unlink usersNamed
    exact inductionHypothesis

/-- The name that a verdict gives is that of the request which is handled. -/
theorem accounts_named (provenance : Provenance settings history state) {sessionId : Nat}
    {localTime : Option LocalTime} {now : UInt64} {registered : Bool × Bool} {rest : List Message}
    {session : Session} (pipe : state.pipe = .hostDetectResult sessionId true :: rest)
    (found : state.getSession sessionId = some session) (charged : Charged settings history state) :
    Accounts settings (history ++ [(state, .command localTime now registered)])
      (state.sessions.update sessionId (setVerdictName (authorize settings localTime session)))
      state.stats := by
  have isHolder : .message (.hostDetectResult sessionId true) ∈ state.holders :=
    mem_holders.mpr (pipe ▸ List.mem_cons_self ..)
  have detected : Detected history session := provenance.holds _ isHolder session found
  have nameless := charged.nameless _ isHolder trivial session found
  apply (charged.accounts.snoc _).update
  intro again isSame
  cases found.symm.trans isSame
  rw [setVerdictName_hostUrl]
  by_cases empty : (setVerdictName (authorize settings localTime session) session).userName = []
  · exact .inl empty
  · right
    have same := SessionManager.getSession_sessionId found
    refine ⟨history, state, localTime, now, registered, [], rest, session, rfl, same ▸ pipe, same ▸ found,
      detected, rfl, ?_⟩
    unfold setVerdictName at empty ⊢
    split
    · rename_i userName isNamed
      rw [isNamed] at empty
      exact authorize_identified isNamed empty
    · rename_i isNamed
      rw [isNamed] at empty
      exact absurd nameless empty

/-- The detector stores into a session that has no name yet. -/
theorem accounts_worker (charged : Charged settings history state) {index : Nat} {worker : Worker}
    {input : Input} {shared : State} {after : Option Pc} (at_ : state.workers[index]? = some worker)
    (stepped : worker.step input state = some (shared, after)) :
    Accounts settings (history ++ [(state, .work index input)]) shared.sessions shared.stats := by
  have accounts := charged.accounts.snoc (state, .work index input)
  have steps := Worker.steps_of_step stepped
  obtain ⟨sessionId, pc⟩ := worker
  cases steps with
  | setHost | setPort | setRequest | setTransparent =>
    have nameless := charged.nameless _ (worker_holds at_ rfl) trivial
    exact accounts.update fun session found => .inl (nameless session found)
  | _ => exact accounts

theorem step_accounts (usersNamed : ∀ user ∈ settings.users, user.name ≠ [])
    (provenance : Provenance settings history state) (stepped : state.step settings action = some next)
    (charged : Charged settings history state) :
    Accounts settings (history ++ [(state, action)]) next.sessions next.stats := by
  have accounts := charged.accounts.snoc (state, action)
  cases steps_of_step stepped with
  | @accept storage now clientFd _ _ _ unused created =>
    obtain ⟨rfl, -⟩ := Prod.mk.inj created
    have appended := accounts.createSession storage clientFd now
    exact appended.update_other (fun _ => rfl) (fun _ => rfl)
  | undetected pipe found | unconnected pipe found =>
    apply accounts_reject usersNamed
    exact accounts
  | refused pipe found =>
    apply accounts_reject usersNamed
    exact accounts_named provenance pipe found charged
  | blocked pipe found | admitted pipe found => exact accounts_named provenance pipe found charged
  | connected pipe found =>
    obtain ⟨_, _, _, same⟩ := addSockets_frame _ _ _ _ _
    rw [same]
    exact accounts
  | teardown search => exact accounts_teardown usersNamed accounts _ _
  | timeout evictions => exact accounts_evictions usersNamed accounts evictions
  | logged evictions =>
    refine ⟨(accounts_evictions usersNamed accounts evictions).named, ?_⟩
    rintro userName host ⟨_, ⟨⟩, _⟩
  | relayed search same found =>
    refine accounts.update_other (fun session => ?_) (fun session => ?_)
    · unfold countBytes
      split <;> rfl
    · unfold countBytes
      split <;> rfl
  | take first => exact accounts
  | moved at_ worked | done at_ worked =>
    have stays := accounts_worker charged at_ worked
    exact stays

/-- A new session has no name. -/
theorem created_nameless (sound : state.ledger.Sound) (nextSound : next.ledger.Sound)
    (stepped : state.step settings action = some next) {session : Session}
    (found : next.getSession state.sessions.sessionId = some session) : session.userName = [] := by
  have older : next.sessions.sessionId = state.sessions.sessionId → session.userName = [] := by
    intro same
    have bound := lt_of_getSession nextSound found
    rw [same] at bound
    exact absurd bound (Nat.lt_irrefl _)
  cases step_calls stepped with
  | command quietly | timeout quietly | take quietly | work quietly | teardown _ _ quietly =>
    exact older (performs_nextId quietly)
  | relayed _ _ _ calls => exact older (congrArg (fun audit => audit.sessions.sessionId) calls)
  | @accepted storage now clientFd clientIp named calls =>
    have sessions : next.sessions = SessionManager.update
        (state.sessions.createSession storage clientFd now).1 named
          (fun session => session.setClientAddress clientIp) := congrArg AuditState.sessions calls
    have isNew : ∀ other ∈ state.sessions.sessionList ++
        [Session.make storage clientFd state.sessions.sessionId now],
        other.sessionId = state.sessions.sessionId → other.userName = [] := by
      intro other member same
      rcases List.mem_append.mp member with live | last
      · obtain ⟨again, isLive⟩ := SessionManager.mem_ids_iff.mp (List.mem_map_of_mem live)
        exact absurd (lt_of_getSession sound isLive) (Nat.not_lt.mpr same.ge)
      · rw [List.mem_singleton.mp last]
        rfl
    have member := SessionManager.mem_of_getSession found
    have same := SessionManager.getSession_sessionId found
    rw [sessions] at member
    rcases mem_adjust member with live | ⟨before, search, rfl⟩
    · exact isNew session live same
    · exact isNew before (mem_of_lookup search) same

/-- Until its detection is handled a session has no name. -/
theorem step_nameless (sound : state.ledger.Sound) (registers : Registers state action)
    (stepped : state.step settings action = some next) (charged : Charged settings history state)
    (member : holder ∈ next.holders) (detecting : holder.Detecting) {session : Session}
    (found : next.getSession holder.sessionId = some session) : session.userName = [] := by
  have nextSound := Ledger.steps_sound (step_ledger sound registers stepped) sound
  cases step_arrives sound registers stepped member with
  | kept older same => exact charged.nameless holder older detecting session (same ▸ found)
  | socket | admitted | blocked => exact detecting.elim
  | accepted => exact created_nameless sound nextSound stepped found
  | @taken task rest queue same =>
    have isTask : .task task ∈ state.holders := mem_holders.mpr (queue ▸ List.mem_cons_self ..)
    cases task with
    | asyncDetector sessionId => exact charged.nameless _ isTask trivial session (same ▸ found)
    | asyncConnector sessionId => exact detecting.elim
  | @worked index input worker shared pc isWork at_ owing worked sessions =>
    have isHolder := worker_holds at_ owing
    obtain ⟨before, foundBefore⟩ := exists_session sound isHolder
    rw [getSession, sessions] at found
    have steps := Worker.steps_of_step worked
    obtain ⟨sessionId, was⟩ := worker
    cases steps with
    | setHost | setPort | setRequest | setTransparent =>
      rw [stored foundBefore found (fun _ => rfl)]
      exact charged.nameless _ isHolder trivial before foundBefore
    | detectorEnter | detected | undetected =>
      exact charged.nameless _ isHolder trivial session found
    | _ => exact detecting.elim
  | @replied index input worker shared after message isWork at_ owing worked addressed pipe same =>
    have isHolder := worker_holds at_ owing
    change next.getSession message.sessionId = some session at found
    rw [same, addressed] at found
    have steps := Worker.steps_of_step worked
    obtain ⟨sessionId, was⟩ := worker
    cases steps with
    | detectReply => exact charged.nameless _ isHolder trivial session found
    | abort | giveUp | connectReply =>
      cases List.append_cancel_left pipe
      exact detecting.elim
    | _ => exact absurd pipe (by simp [updateSession])

/-! ## Every run -/

theorem run_charged (usersNamed : ∀ user ∈ settings.users, user.name ≠ [])
    (run : Run (proxySystem settings) Registers history state) : Charged settings history state := by
  apply run.historyInvariant (Charged settings)
  · rintro state ⟨serverFd, commandFd, openFds, now, -, -, -, rfl⟩
    refine ⟨⟨by rintro session ⟨⟩, by rintro userName host ⟨_, ⟨⟩, _⟩⟩, ?_⟩
    intro holder member
    rw [initial_holders] at member
    cases member
  · intro history state action next earlier charged registers stepped
    have provenance := run_provenance earlier
    exact ⟨step_accounts usersNamed provenance stepped charged, fun holder member detecting session found =>
      step_nameless (run_sound earlier) registers stepped charged member detecting found⟩

/-- In every faultless run each row of the audit table is that of an audited user, and goes back to a session
that asked for exactly this host in its only read and had identified itself as exactly this user,
by credentials or by its address; and so does each live session with a user name. -/
theorem audit_attribution {logging : Logging} (usersNamed : ∀ user ∈ settings.users, user.name ≠ [])
    (run : Run (proxySystem settings) (Faultless settings logging) history state) :
    (∀ userName host, state.stats.HasRow userName host → settings.authEnabled = true ∧
      AuthManager.isAuditEnabled settings.users userName = true ∧ host ≠ [] ∧
      Attributed settings history userName host) ∧
    ∀ session ∈ state.sessions.sessionList, session.userName ≠ [] →
      Attributed settings history session.userName session.hostUrl := by
  have charged := run_charged usersNamed (registers_of_faultless run)
  exact ⟨charged.accounts.rows, fun session live isNamed =>
    (charged.accounts.named session live).resolve_left isNamed⟩

/-- A user whose origin refuses the connection. -/
theorem audit_attribution_refused : ∃ (settings : Settings) (history : History) (state : State),
    state.stats.HasRow (bytes "bob") (bytes "example.com") ∧
    Attributed settings history (bytes "bob") (bytes "example.com") := by
  let settings : Settings :=
    ⟨10080, true, [], [(User.make (bytes "bob") (bytes "pw")).setAudit true], []⟩
  let actions := serve 5 6 (bytes "10.0.0.2")
    (bytes "GET http://example.com/ HTTP/1.0\r\nProxy-Authorization: Basic Ym9iOnB3\r\n\r\n")
    (some ⟨0, 12, 0⟩) .refused ++ [.work 0 .none, .work 0 .none, .command none 10 (true, true)]
  have executed : ∃ history state,
      runActions (State.step settings) [] (initial 3 4 [3, 4] 0) actions = some (history, state) ∧
      state.stats.userStats = [⟨bytes "bob", [⟨bytes "example.com", 0, 0, 3, 1⟩]⟩] ∧
      ∀ entry ∈ history, InBounds settings ⟨.debug, 10⟩ entry.1 entry.2 :=
    ⟨_, _, rfl, by decide, by decide⟩
  obtain ⟨history, state, executed, table, inBounds⟩ := executed
  have registers : ∀ action ∈ actions, ∀ state, Registers state action :=
    List.forall_mem_append.mpr ⟨registers_serve, by simp [Registers]⟩
  have row : state.stats.HasRow (bytes "bob") (bytes "example.com") :=
    ⟨_, table ▸ List.mem_cons_self .., rfl, _, List.mem_cons_self .., rfl⟩
  have run := run_faultless (run_of_executed registers executed) inBounds
  have rows := (audit_attribution (by decide) run).1
  exact ⟨settings, history, state, row, (rows _ _ row).2.2.2⟩

end State

end NermalProxy
