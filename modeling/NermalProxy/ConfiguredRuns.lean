import NermalProxy.ConfiguredAccess
import NermalProxy.Verdicts

/-! # From the configuration file to the wire

What the tables decide for one request, the proxy decides for every request of a run.  So the
answers and the relay sockets of a run are those that the configuration file describes, at
the time at which each detection was handled. -/

namespace NermalProxy

open NermalProxy.CString NermalProxy.ConfigFile NermalProxy.Config NermalProxy.SocketManager
  NermalProxy.BlacklistList NermalProxy.UserPolicyList NermalProxy.Transition

/-! ## What the file says of a session -/

namespace Config

variable {files : Files} {stale : Nat → Bytes × Bytes} {filename : Bytes} {settings : Settings}

/-- The name of the global policy is no user's. -/
def Ordinary (config : ConfigData) : Prop := ¬ (authEnabled config ∧ Configured config globalDomain)

/-- The host is not blocked for the user, and all lists that are for everybody were loaded. -/
def Passes (files : Files) (config : ConfigData) (user host : Bytes) : Prop :=
  Intended files config user host ∧ ∀ name ∈ globalDomains config, ∃ lines, Loaded files config name lines

theorem isAllowed_configured (configured : doConfig files stale filename = some settings)
    (ordinary : Ordinary (loadData stale (files filename))) (user host : Bytes) :
    isAllowed settings.blacklists settings.policies user host = true ↔
      Passes files (loadData stale (files filename)) user host := by
  simp only [isAllowed_iff, userDomains_allow configured, Passes, Intended]
  generalize loadData stale (files filename) = config at ordinary
  have noGlobalUser : ¬ (authEnabled config ∧ Configured config globalDomain) := ordinary
  simp only [if_neg noGlobalUser]
  by_cases isConfigured : authEnabled config ∧ Configured config user
  · rw [if_pos isConfigured]
    simp only [isConfigured.1, isConfigured.2, true_and]
    tauto
  · rw [if_neg isConfigured]
    tauto

/-- In the run the detection of this session was handled at a time at which the file lets its request
through, and this left the session as it is now. -/
def LetThrough (config : ConfigData) (history : History) (session : Session) : Prop :=
  ∃ earlier localTime now registered rest before userName,
    (earlier, Action.command localTime now registered) ∈ history ∧
    earlier.pipe = .hostDetectResult session.sessionId true :: rest ∧
    earlier.getSession session.sessionId = some before ∧ Admits config localTime before userName ∧
    session = setVerdictName ⟨userName, none⟩ before

/-- In the run the detection of this session was handled at a time at which the file does not let its
request through. -/
def TurnedAway (config : ConfigData) (history : History) (session : Session) : Prop :=
  ∃ earlier localTime now registered rest,
    (earlier, Action.command localTime now registered) ∈ history ∧
    earlier.pipe = .hostDetectResult session.sessionId true :: rest ∧
    earlier.getSession session.sessionId = some session ∧
    ∀ userName, ¬ Admits config localTime session userName

section Session

variable {history : History} {session : Session} {response : Bytes}

/-- A detection that is not refused when it is handled. -/
theorem letThrough_of_noRefusal (configured : doConfig files stale filename = some settings)
    {earlier : State} {localTime : Option LocalTime} {now : UInt64} {registered : Bool × Bool}
    {rest : List Message} {before : Session}
    (member : (earlier, Action.command localTime now registered) ∈ history)
    (pipe : earlier.pipe = .hostDetectResult session.sessionId true :: rest)
    (found : earlier.getSession session.sessionId = some before)
    (noRefusal : (authorize settings localTime before).refusal = none)
    (named : session = setVerdictName (authorize settings localTime before) before) :
    LetThrough (loadData stale (files filename)) history session := by
  have verdict : authorize settings localTime before =
      ⟨(authorize settings localTime before).userName, none⟩ := by rw [← noRefusal]
  have admits := (authorize_configured configured localTime before _).mp verdict
  exact ⟨earlier, localTime, now, registered, rest, before, _, member, pipe, found, admits, verdict ▸ named⟩

theorem admitted_configured (configured : doConfig files stale filename = some settings)
    (ordinary : Ordinary (loadData stale (files filename))) (admitted : Admitted settings history session) :
    LetThrough (loadData stale (files filename)) history session ∧
      Passes files (loadData stale (files filename)) session.userName session.hostUrl := by
  obtain ⟨earlier, localTime, now, registered, rest, before, member, pipe, found, noRefusal, named,
    allowed⟩ := admitted
  exact ⟨letThrough_of_noRefusal configured member pipe found noRefusal named,
    (isAllowed_configured configured ordinary _ _).mp allowed⟩

theorem blocked_configured (configured : doConfig files stale filename = some settings)
    (ordinary : Ordinary (loadData stale (files filename))) (blocked : Blocked settings history session) :
    LetThrough (loadData stale (files filename)) history session ∧
      ¬ Passes files (loadData stale (files filename)) session.userName session.hostUrl := by
  obtain ⟨earlier, localTime, now, registered, rest, before, member, pipe, found, noRefusal, named,
    blocked⟩ := blocked
  refine ⟨letThrough_of_noRefusal configured member pipe found noRefusal named, fun passes => ?_⟩
  rw [(isAllowed_configured configured ordinary _ _).mpr passes] at blocked
  cases blocked

theorem refused_configured (configured : doConfig files stale filename = some settings)
    (refused : Refused settings history session response) :
    TurnedAway (loadData stale (files filename)) history session := by
  obtain ⟨earlier, localTime, now, registered, rest, member, pipe, found, refusal, -, -⟩ := refused
  refine ⟨earlier, localTime, now, registered, rest, member, pipe, found, fun userName admits => ?_⟩
  rw [(authorize_configured configured localTime session userName).mpr admits] at refusal
  cases refusal

end Session

theorem legible_ads : Legible (adsFiles true (bytes "default.conf")) := by decide

theorem ordinary_ads : Ordinary (fileData (adsFiles true (bytes "default.conf"))) := by
  have noAuth : ¬ authEnabled (fileData (adsFiles true (bytes "default.conf"))) := by decide
  exact fun shadowed => noAuth shadowed.1

theorem passes_ads {user host : Bytes}
    (passes : Passes (adsFiles true) (fileData (adsFiles true (bytes "default.conf"))) user host) :
    ¬ Blocks (adsFiles true) (fileData (adsFiles true (bytes "default.conf"))) [bytes "ads"] host := by
  have names : globalDomains (fileData (adsFiles true (bytes "default.conf"))) = [bytes "ads"] := by decide
  intro blocked
  refine passes.1 (.inl ?_)
  rw [names]
  exact blocked

end Config

/-! ## Every run -/

namespace State

variable {files : Files} {stale : Nat → Bytes × Bytes} {filename : Bytes} {settings : Settings}
  {history : History} {state : State}

/-- In every faultless run under a legible configuration file, whatever the interleaving: a relay socket,
a 200 and a request that is passed on belong to a session that the file lets through, at the time its
detection was handled and under the name that the file gives it, to a host that passes the lists; a 403 or
a 407 is for one that the file does not let through at that time; and a 404 for one that it does let
through, and whose host does not pass or could not be reached. -/
theorem configured_runs {logging : Logging} (configured : doConfig files stale filename = some settings)
    (legible : Legible (files filename)) (ordinary : Ordinary (fileData (files filename)))
    (run : Run (proxySystem settings) (Faultless settings logging) history state) :
    (∀ socket, .client socket ∈ state.sockets → ∃ session admitted,
      state.getSession socket.sessionId = some session ∧ admitted.uncounted = session.uncounted ∧
      LetThrough (fileData (files filename)) history admitted ∧
      Passes files (fileData (files filename)) admitted.userName admitted.hostUrl) ∧
    ∀ sessionId answer, (sessionId, answer) ∈ answers settings history →
      (¬ answer.Refuses → ∃ session, session.sessionId = sessionId ∧
        LetThrough (fileData (files filename)) history session ∧
        Passes files (fileData (files filename)) session.userName session.hostUrl) ∧
      ∀ clientFd response, answer = .toClient clientFd response →
        ∃ session, session.sessionId = sessionId ∧ session.clientFd = clientFd ∧
          (response = forbidden ∨ response = authenticationRequired →
            TurnedAway (fileData (files filename)) history session) ∧
          (response = notFound → LetThrough (fileData (files filename)) history session ∧
            (Passes files (fileData (files filename)) session.userName session.hostUrl →
              Unreached history session)) := by
  have registered := registers_of_faultless run
  rw [← loadData_legible stale legible] at ordinary ⊢
  constructor
  · intro socket member
    obtain ⟨session, admitted, found, same, linked⟩ := exists_linked registered member
    exact ⟨session, admitted, found, same, admitted_configured configured ordinary linked.admitted⟩
  · intro sessionId answer member
    obtain ⟨session, same, deserves⟩ := run_deserved registered _ member
    refine ⟨fun accepts => ⟨session, same, ?_⟩, ?_⟩
    · have linked : ∃ sockFd, Linked settings history session sockFd := by
        cases answer with
        | toClient clientFd response =>
          exact ((deserves_toClient deserves).2.2.2.2 (not_not.mp accepts)).2
        | toOrigin sockFd request => exact ⟨sockFd, (deserves_toOrigin deserves).2.1⟩
      obtain ⟨sockFd, linked⟩ := linked
      exact admitted_configured configured ordinary linked.admitted
    · rintro clientFd response rfl
      obtain ⟨sameFd, -, refused, unconnected, -⟩ := deserves_toClient deserves
      refine ⟨session, same, sameFd, fun is => refused_configured configured (refused is).2, fun is => ?_⟩
      cases unconnected is with
      | blocked detected blocked =>
        obtain ⟨through, notPasses⟩ := blocked_configured configured ordinary blocked
        exact ⟨through, fun passes => absurd passes notPasses⟩
      | unreached detected admitted unreached =>
        exact ⟨(admitted_configured configured ordinary admitted).1, fun _ => unreached⟩

/-- The pair of a client, where one list is blocked for everybody. -/
theorem configured_runs_ads : ∃ (state : State) (session admitted : Session),
    .client (.make 6 5 0 false) ∈ state.sockets ∧ state.getSession 0 = some session ∧
    admitted.uncounted = session.uncounted ∧
    ¬ Blocks (adsFiles true) (fileData (adsFiles true (bytes "default.conf"))) [bytes "ads"]
      admitted.hostUrl := by
  have configured : doConfig (adsFiles true) (fun _ => ([], [])) (bytes "default.conf") =
      some (adsSettings true) := by rfl
  have executed : ∃ history state,
      runActions (State.step (adsSettings true)) [] (initial 3 4 [3, 4] 0) relayFirst =
        some (history, state) ∧ .client (.make 6 5 0 false) ∈ state.sockets ∧
      ∀ entry ∈ history, InBounds (adsSettings true) ⟨.debug, 10⟩ entry.1 entry.2 :=
    ⟨_, _, rfl, by decide, by decide⟩
  obtain ⟨history, state, executed, member, inBounds⟩ := executed
  have run := run_faultless (run_of_runActions (.start initially) registers_relayFirst executed) inBounds
  obtain ⟨session, admitted, found, same, -, passes⟩ :=
    (configured_runs configured legible_ads ordinary_ads run).1 _ member
  exact ⟨state, session, admitted, member, found, same, passes_ads passes⟩

end State

end NermalProxy
