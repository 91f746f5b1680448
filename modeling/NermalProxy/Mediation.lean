import NermalProxy.HandBack
import NermalProxy.Provenance

/-! # Complete mediation

With authentication enabled a connector only ever works for a registered user, who has
authenticated, was within the schedule, and may visit the host. -/

namespace NermalProxy

open NermalProxy.CString NermalProxy.Config NermalProxy.Credentials NermalProxy.SocketManager
  NermalProxy.Transition

/-- The steps of `asyncConnector` up to its reply. -/
def Pc.connects : Pc → Bool
  | .connectorEnter | .lookupHost _ _ | .resolve _ _ | .store _ | .socket _ | .connect _ _ => true
  | .abort | .giveUp | .resend _ | .setOptions _ | .connectReply _ => true
  | _ => false

/-- What was checked when the detection of the session was handled: the credentials in its request
are the user's, or it has none and its client has one of the user's addresses; and the user's
schedule permits the time. -/
structure Authenticated (users : List User) (localTime : Option LocalTime) (session : Session)
    (user : User) : Prop where
  identity :
    (∃ credString, authorization session.request = some (some credString) ∧
      AuthManager.credentials credString = some (user.name, user.password) ∧
      AuthManager.authenticate_i users user.name user.password = true) ∨
    (authorization session.request = none ∧ session.clientIp ∈ user.ipList)
  schedule : AuthManager.accessAllowedAtTime users localTime user.name = true

section Authorization

variable {settings : Settings} {localTime : Option LocalTime} {session : Session}

theorem authorizeBasic_admits (named : ∀ user ∈ settings.users, user.name ≠ []) {rawCreds : Option Bytes}
    (noRefusal : (authorizeBasic settings localTime rawCreds).refusal = none) :
    ∃ credString, rawCreds = some credString ∧ ∃ user ∈ settings.users,
      (authorizeBasic settings localTime rawCreds).userName = some user.name ∧
      AuthManager.credentials credString = some (user.name, user.password) ∧
      AuthManager.authenticate_i settings.users user.name user.password = true ∧
      AuthManager.accessAllowedAtTime settings.users localTime user.name = true := by
  cases rawCreds with
  | none => simp [authorizeBasic] at noRefusal
  | some credString =>
    cases result : AuthManager.authenticate settings.users credString [] with
    | mk canConnect userName =>
      cases canConnect with
      | false => simp [authorizeBasic, result] at noRefusal
      | true =>
        have allowed : AuthManager.accessAllowedAtTime settings.users localTime userName = true := by
          simpa [authorizeBasic, result] using noRefusal
        obtain ⟨password, decoded, accepted⟩ :=
          AuthManager.authenticate_then_allowed named result allowed
        obtain ⟨user, member, rfl, rfl⟩ := AuthManager.authenticate_i_sound accepted
        refine ⟨credString, rfl, user, member, ?_, decoded, accepted, allowed⟩
        simp [authorizeBasic, result]

theorem authorizeIp_admits {clientIp : Bytes}
    (noRefusal : (authorizeIp settings localTime clientIp).refusal = none) :
    ∃ user ∈ settings.users, (authorizeIp settings localTime clientIp).userName = some user.name ∧
      clientIp ∈ user.ipList ∧
      AuthManager.accessAllowedAtTime settings.users localTime user.name = true := by
  cases matched : AuthManager.authenticateIp settings.users clientIp with
  | none => simp [authorizeIp, matched] at noRefusal
  | some username =>
    obtain ⟨user, member, rfl, listed⟩ := AuthManager.authenticateIp_sound matched
    by_cases allowed : AuthManager.accessAllowedAtTime settings.users localTime user.name = true
    · exact ⟨user, member, by simp [authorizeIp, matched, allowed], listed, allowed⟩
    · simp [authorizeIp, matched, allowed] at noRefusal

/-- A session that is not refused is given the name of a user who has authenticated. -/
theorem authorize_admits (named : ∀ user ∈ settings.users, user.name ≠ [])
    (enabled : settings.authEnabled = true)
    (noRefusal : (authorize settings localTime session).refusal = none) :
    ∃ user ∈ settings.users, (authorize settings localTime session).userName = some user.name ∧
      Authenticated settings.users localTime session user := by
  cases header : authorization session.request with
  | some rawCreds =>
    have verdict : authorize settings localTime session =
        authorizeBasic settings localTime rawCreds := by
      simp [authorize, enabled, header]
    rw [verdict] at noRefusal ⊢
    obtain ⟨credString, rfl, user, member, isNamed, decoded, accepted, allowed⟩ :=
      authorizeBasic_admits named noRefusal
    exact ⟨user, member, isNamed, .inl ⟨credString, header, decoded, accepted⟩, allowed⟩
  | none =>
    have verdict : authorize settings localTime session =
        authorizeIp settings localTime session.clientIp := by
      simp [authorize, enabled, header]
    rw [verdict] at noRefusal ⊢
    obtain ⟨user, member, isNamed, listed, allowed⟩ := authorizeIp_admits noRefusal
    exact ⟨user, member, isNamed, .inr ⟨header, listed⟩, allowed⟩

end Authorization

namespace State

variable {state : State} {settings : Settings} {history : History}

theorem connects_holds {pc : Pc} {session : Session} (connects : pc.connects = true)
    (holds : pc.Holds settings history session) : Connects settings history session pc := by
  cases pc with
  | detectorEnter | read _ | setHost _ | setPort _ | setRequest _ | setTransparent _ | clearCache =>
    cases connects
  | detectReply success => cases connects
  | _ => exact holds

/-- Whenever a connector works for a session, a registered user has authenticated for exactly this
session and may visit exactly the host that the connector resolves. -/
theorem complete_mediation (named : ∀ user ∈ settings.users, user.name ≠ [])
    (enabled : settings.authEnabled = true)
    (run : Run (proxySystem settings) Registers history state) :
    ∀ worker ∈ state.workers, worker.pc.connects = true →
      ∃ session, state.getSession worker.sessionId = some session ∧
        (∀ host ∈ worker.pc.hosts, host = session.hostUrl) ∧
        ∃ user ∈ settings.users, session.userName = user.name ∧
          isAllowed settings.blacklists settings.policies session.userName session.hostUrl = true ∧
          ∃ earlier localTime now registered rest,
            (earlier, Action.command localTime now registered) ∈ history ∧
            earlier.pipe = .hostDetectResult worker.sessionId true :: rest ∧
            Authenticated settings.users localTime session user := by
  intro worker member connects
  have owing : worker.replied = false := by
    cases pc : worker.pc with
    | clearCache => simp [pc, Pc.connects] at connects
    | _ => simp [Worker.replied, pc]
  have isHolder : .worker worker ∈ state.holders := mem_holders.mpr ⟨member, owing⟩
  obtain ⟨session, found⟩ := exists_session (run_sound run) isHolder
  obtain ⟨-, admitted, sameHost⟩ :=
    connects_holds connects ((run_provenance run).holds _ isHolder session found)
  obtain ⟨earlier, localTime, now, registered, rest, before, inHistory, pipe, -, noRefusal, verdict,
    allowed⟩ := admitted
  obtain ⟨user, isUser, isNamed, authenticated⟩ := authorize_admits named enabled noRefusal
  have fields : session = before.setUserName user.name := by
    rw [verdict]
    simp [setVerdictName, isNamed]
  have sameId : session.sessionId = worker.sessionId := SessionManager.getSession_sessionId found
  refine ⟨session, found, sameHost, user, isUser, ?_, allowed, earlier, localTime, now, registered,
    rest, inHistory, sameId ▸ pipe, ?_, authenticated.schedule⟩
  · rw [fields]
    rfl
  · rw [fields]
    exact authenticated.identity

/-- A proxy with one user, who has a password. -/
def forBob : Settings := ⟨10080, true, [], [User.make (bytes "bob") (bytes "pw")], []⟩

/-- The events of a request of the user's, up to the connection attempt. -/
def serveBob (localTime : Option LocalTime) : List Action :=
  (serve 5 6 (bytes "10.0.0.2")
    (bytes "GET http://example.com/ HTTP/1.0\r\nProxy-Authorization: Basic Ym9iOnB3\r\n\r\n")
    localTime .connected).dropLast

/-- A user with a password, up to the connection attempt. -/
theorem complete_mediation_basic :
    ∃ (settings : Settings) (history : History) (state : State), ∃ worker ∈ state.workers,
      worker.pc.hosts = [bytes "example.com"] ∧
      ∃ user ∈ settings.users, ∃ earlier localTime now registered rest,
        (earlier, Action.command localTime now registered) ∈ history ∧
        earlier.pipe = .hostDetectResult worker.sessionId true :: rest ∧
        AuthManager.accessAllowedAtTime settings.users localTime user.name = true := by
  have executed : ∃ history state,
      runActions (State.step forBob) [] (initial 3 4 [3, 4] 0) (serveBob (some ⟨0, 12, 0⟩)) =
        some (history, state) ∧
      state.workers = [⟨0, .connect 6 [⟨bytes "example.com", bytes "10.0.0.9", 4, 9⟩]⟩] :=
    ⟨_, _, rfl, by decide⟩
  obtain ⟨history, state, executed, workers⟩ := executed
  have registers : ∀ action ∈ serveBob (some ⟨0, 12, 0⟩), ∀ state, Registers state action :=
    fun action member => registers_serve action (List.dropLast_subset _ member)
  have run := run_of_executed registers executed
  have member : ⟨0, .connect 6 [⟨bytes "example.com", bytes "10.0.0.9", 4, 9⟩]⟩ ∈ state.workers := by
    simp [workers]
  have named : ∀ user ∈ forBob.users, user.name ≠ [] := by decide
  obtain ⟨session, found, sameHost, user, isUser, userName, allowed, earlier, localTime, now, registered,
    rest, inHistory, pipe, authenticated⟩ := complete_mediation named rfl run _ member rfl
  exact ⟨forBob, history, state, _, member, rfl, user, isUser, earlier, localTime, now, registered,
    rest, inHistory, pipe, authenticated.schedule⟩

end State

end NermalProxy
