import NermalProxy.Endpoints
import NermalProxy.Mediation

/-! # Why a request gets the answer it gets

Every answer of a run has its cause in that run.  A refusal follows a read that could not be
parsed, a check that failed, or a connection that could not be made: nothing was resolved, no
socket was created, or all of the addresses were tried.  Any other answer follows a detection,
an admission and a connection. -/

namespace NermalProxy

open NermalProxy.CString NermalProxy.Config NermalProxy.Credentials NermalProxy.Detector
  NermalProxy.HostInfoCache NermalProxy.SocketManager NermalProxy.Transition

/-! ## The causes -/

/-- A user whom a session names: by name and password, or as the first who lists its address. -/
def Identifies (users : List User) (session : Session) (user : User) : Prop :=
  (∃ credString, authorization session.request = some (some credString) ∧
    AuthManager.credentials credString = some (user.name, user.password)) ∨
  (authorization session.request = none ∧
    AuthManager.authenticateIp users session.clientIp = some user.name)

/-- Why a detected session may not go on. -/
inductive Refusal (settings : Settings) (localTime : Option LocalTime) (session : Session) : Bytes → Prop
  | unidentified (noHeader : authorization session.request = none)
      (unlisted : ∀ user ∈ settings.users, session.clientIp ∉ user.ipList) :
      Refusal settings localTime session authenticationRequired
  | unaccepted {rawCreds : Option Bytes} (header : authorization session.request = some rawCreds)
      (wrong : ∀ credString ∈ rawCreds, ∀ user ∈ settings.users,
        AuthManager.credentials credString ≠ some (user.name, user.password)) :
      Refusal settings localTime session forbidden
  | closed {user : User} (member : user ∈ settings.users) (identified : Identifies settings.users session user)
      (closed : AuthManager.accessAllowedAtTime settings.users localTime user.name = false) :
      Refusal settings localTime session forbidden

/-- In the run a detector could not parse what it read for this session. -/
def Unparsed (history : History) (sessionId : Nat) : Prop :=
  ∃ earlier index clientFd result beyond,
    (earlier, Action.work index (.read result beyond)) ∈ history ∧
    earlier.workers[index]? = some ⟨sessionId, .read clientFd⟩ ∧ asyncDetector result beyond = none

/-- In the run the successful detection of this session was handled when the session was as it is now,
and was refused with this response. -/
def Refused (settings : Settings) (history : History) (session : Session) (response : Bytes) : Prop :=
  ∃ earlier localTime now registered rest,
    (earlier, Action.command localTime now registered) ∈ history ∧
    earlier.pipe = .hostDetectResult session.sessionId true :: rest ∧
    earlier.getSession session.sessionId = some session ∧
    (authorize settings localTime session).refusal = some response ∧ settings.authEnabled = true ∧
    Refusal settings localTime session response

/-- In the run the successful detection of this session was handled and not refused, and its user may
not visit the host. -/
def Blocked (settings : Settings) (history : History) (session : Session) : Prop :=
  ∃ earlier localTime now registered rest before,
    (earlier, Action.command localTime now registered) ∈ history ∧
    earlier.pipe = .hostDetectResult session.sessionId true :: rest ∧
    earlier.getSession session.sessionId = some before ∧
    (authorize settings localTime before).refusal = none ∧
    session = setVerdictName (authorize settings localTime before) before ∧
    isAllowed settings.blacklists settings.policies session.userName session.hostUrl = false

/-- In the run the connector of this session created the socket for these addresses. -/
def Opened (history : History) (sessionId : Nat) (sockFd : Fd) (addresses : List HostInfo) : Prop :=
  ∃ earlier index, (earlier, Action.work index (.socket (some sockFd))) ∈ history ∧
    earlier.workers[index]? = some ⟨sessionId, .socket addresses⟩

/-- The address is known for the host, and either it stands for a filtered host or the connector has
tried it in the run and has not been connected. -/
structure InVain (history : History) (session : Session) (sockFd : Fd) (address : HostInfo) : Prop where
  host : address.url = session.hostUrl
  known : Known history session.sessionId address
  tried : address.url = sinkhole ∨ ∃ earlier index connect rest,
    (earlier, Action.work index (.network connect)) ∈ history ∧
    earlier.workers[index]? = some ⟨session.sessionId, .connect sockFd (address :: rest)⟩ ∧
    connect address session.port ≠ .connected

/-- Why the connector of a session has no connection. -/
inductive Unreached (history : History) (session : Session) : Prop
  | unresolved {earlier : State} {index : Nat} {getaddrinfo : Bytes → UInt16 → Option (List AddrInfo)}
      {now : UInt64} (inRun : (earlier, Action.work index (.resolver getaddrinfo now)) ∈ history)
      (at_ : earlier.workers[index]? = some ⟨session.sessionId, .resolve session.hostUrl session.port⟩)
      (nothing : ∀ results ∈ getaddrinfo session.hostUrl session.port,
        ∀ result ∈ results, result.inet = false) : Unreached history session
  | noSocket {earlier : State} {index : Nat} {addresses : List HostInfo}
      (inRun : (earlier, Action.work index (.socket none)) ∈ history)
      (at_ : earlier.workers[index]? = some ⟨session.sessionId, .socket addresses⟩) :
      Unreached history session
  | exhausted {sockFd : Fd} {addresses : List HostInfo}
      (opened : Opened history session.sessionId sockFd addresses) (some : addresses ≠ [])
      (inVain : ∀ address ∈ addresses, InVain history session sockFd address) :
      Unreached history session

/-- Why there is no connection for a session that has been detected. -/
inductive Unconnected (settings : Settings) (history : History) (session : Session) : Prop
  | blocked (detected : Detected history session) (blocked : Blocked settings history session) :
      Unconnected settings history session
  | unreached (detected : Detected history session) (admitted : Admitted settings history session)
      (unreached : Unreached history session) : Unconnected settings history session

/-- The answers that a session is to get, by what the run says about it. -/
inductive Deserves (settings : Settings) (history : History) (session : Session) : Answer → Prop
  | badRequest (unparsed : Unparsed history session.sessionId) :
      Deserves settings history session (.toClient session.clientFd clientError)
  | refused {response : Bytes} (detected : Detected history session)
      (refused : Refused settings history session response) :
      Deserves settings history session (.toClient session.clientFd response)
  | unconnected (unconnected : Unconnected settings history session) :
      Deserves settings history session (.toClient session.clientFd notFound)
  | tunnelled {sockFd : Fd} (linked : Linked settings history session sockFd)
      (tunnel : session.transparent = false) :
      Deserves settings history session (.toClient session.clientFd okResponse)
  | forwarded {sockFd : Fd} {result : WriteResult} (linked : Linked settings history session sockFd)
      (transparent : session.transparent = true) :
      Deserves settings history session (.toOrigin sockFd (result.accepted session.request))

theorem refused_mem {settings : Settings} {history : History} {session : Session} {response : Bytes}
    (refused : Refused settings history session response) :
    response = forbidden ∨ response = authenticationRequired := by
  obtain ⟨_, localTime, _, _, _, -, -, -, -, -, refusal⟩ := refused
  cases refusal with
  | unidentified => exact .inr rfl
  | unaccepted | closed => exact .inl rfl

theorem responses_distinct :
    (clientError ≠ forbidden ∧ clientError ≠ authenticationRequired ∧ clientError ≠ notFound ∧
      clientError ≠ okResponse) ∧
    (forbidden ≠ authenticationRequired ∧ forbidden ≠ notFound ∧ forbidden ≠ okResponse) ∧
    (authenticationRequired ≠ notFound ∧ authenticationRequired ≠ okResponse) ∧ notFound ≠ okResponse := by
  decide +kernel

/-- A response to the client tells what has happened to the session. -/
theorem deserves_toClient {settings : Settings} {history : History} {session : Session} {clientFd : Fd}
    {response : Bytes} (deserves : Deserves settings history session (.toClient clientFd response)) :
    session.clientFd = clientFd ∧ (response = clientError → Unparsed history session.sessionId) ∧
      (response = forbidden ∨ response = authenticationRequired →
        Detected history session ∧ Refused settings history session response) ∧
      (response = notFound → Unconnected settings history session) ∧
      (response = okResponse →
        session.transparent = false ∧ ∃ sockFd, Linked settings history session sockFd) := by
  obtain ⟨⟨bad403, bad407, bad404, bad200⟩, ⟨-, is403not404, is403not200⟩, ⟨is407not404, is407not200⟩,
    is404not200⟩ := responses_distinct
  cases deserves with
  | badRequest unparsed =>
    refine ⟨rfl, fun _ => unparsed, ?_, ?_, ?_⟩
    · exact fun is => (is.elim bad403 bad407).elim
    · exact fun is => (bad404 is).elim
    · exact fun is => (bad200 is).elim
  | refused detected refused =>
    refine ⟨rfl, fun is => ?_, fun _ => ⟨detected, refused⟩, fun is => ?_, fun is => ?_⟩
    · exact ((is ▸ refused_mem refused).elim bad403 bad407).elim
    · exact ((is ▸ refused_mem refused).elim (is403not404 ·.symm) (is407not404 ·.symm)).elim
    · exact ((is ▸ refused_mem refused).elim (is403not200 ·.symm) (is407not200 ·.symm)).elim
  | unconnected unconnected =>
    refine ⟨rfl, fun is => (bad404 is.symm).elim, fun is => ?_, fun _ => unconnected, ?_⟩
    · exact (is.elim (is403not404 ·.symm) (is407not404 ·.symm)).elim
    · exact fun is => (is404not200 is).elim
  | tunnelled linked tunnel =>
    refine ⟨rfl, fun is => (bad200 is.symm).elim, fun is => ?_, ?_, fun _ => ⟨tunnel, _, linked⟩⟩
    · exact (is.elim (is403not200 ·.symm) (is407not200 ·.symm)).elim
    · exact fun is => (is404not200 is.symm).elim

theorem deserves_toOrigin {settings : Settings} {history : History} {session : Session} {sockFd : Fd}
    {request : Bytes} (deserves : Deserves settings history session (.toOrigin sockFd request)) :
    session.transparent = true ∧ Linked settings history session sockFd ∧ request <+: session.request := by
  cases deserves with
  | @forwarded _ result linked transparent =>
    exact ⟨transparent, linked, result.accepted_prefix session.request⟩

/-! ## The checks of the main thread -/

section Authorization

variable {settings : Settings} {localTime : Option LocalTime} {session : Session} {response : Bytes}

theorem authorizeBasic_refuses {rawCreds : Option Bytes}
    (header : authorization session.request = some rawCreds)
    (refusal : (authorizeBasic settings localTime rawCreds).refusal = some response) :
    Refusal settings localTime session response := by
  have isForbidden : response = forbidden := by
    unfold authorizeBasic at refusal
    grind
  subst isForbidden
  by_cases accepted : ∃ credString, rawCreds = some credString ∧ ∃ user ∈ settings.users,
      AuthManager.credentials credString = some (user.name, user.password)
  · obtain ⟨credString, rfl, user, member, decoded⟩ := accepted
    have isUser : AuthManager.authenticate_i settings.users user.name user.password = true :=
      List.any_eq_true.mpr ⟨user, member, by simp⟩
    have named : AuthManager.authenticate settings.users credString [] = (true, user.name) := by
      simp [AuthManager.authenticate, decoded, isUser]
    refine .closed member (.inl ⟨credString, header, decoded⟩) ?_
    simpa [authorizeBasic, named] using refusal
  · refine .unaccepted header (fun credString isCreds user member decoded => accepted ?_)
    exact ⟨credString, isCreds, user, member, decoded⟩

theorem authorizeIp_refuses (noHeader : authorization session.request = none)
    (refusal : (authorizeIp settings localTime session.clientIp).refusal = some response) :
    Refusal settings localTime session response := by
  cases matched : AuthManager.authenticateIp settings.users session.clientIp with
  | none =>
    simp only [authorizeIp, matched, Option.some.injEq] at refusal
    subst refusal
    refine .unidentified noHeader (fun user member listed => ?_)
    simp only [AuthManager.authenticateIp] at matched
    split at matched
    · cases matched
    · rename_i search
      have unlisted := List.find?_eq_none.mp search user member
      have filled : user.hasIpList = true := by
        simpa [User.hasIpList] using List.ne_nil_of_mem listed
      exact unlisted (by simp [filled, listed])
  | some username =>
    obtain ⟨user, member, rfl, -⟩ := AuthManager.authenticateIp_sound matched
    by_cases allowed : AuthManager.accessAllowedAtTime settings.users localTime user.name = true
    · simp [authorizeIp, matched, allowed] at refusal
    · simp only [authorizeIp, matched, allowed, Bool.false_eq_true, if_false, Option.some.injEq] at refusal
      subst refusal
      exact .closed member (.inr ⟨noHeader, matched⟩) (by simpa using allowed)

theorem authorize_refuses (refusal : (authorize settings localTime session).refusal = some response) :
    settings.authEnabled = true ∧ Refusal settings localTime session response := by
  cases enabled : settings.authEnabled with
  | false => simp [authorize, enabled] at refusal
  | true =>
    refine ⟨rfl, ?_⟩
    cases header : authorization session.request with
    | some rawCreds =>
      simp only [authorize, enabled, header, if_true] at refusal
      exact authorizeBasic_refuses header refusal
    | none =>
      simp only [authorize, enabled, header, if_true] at refusal
      exact authorizeIp_refuses header refusal

end Authorization

/-! ## A longer history -/

section Longer

variable {settings : Settings} {history : History} {session : Session} {sessionId : Nat} {sockFd : Fd}

theorem Unparsed.snoc (unparsed : Unparsed history sessionId) (last : State × Action) :
    Unparsed (history ++ [last]) sessionId := by
  obtain ⟨earlier, index, clientFd, result, beyond, member, evidence⟩ := unparsed
  exact ⟨earlier, index, clientFd, result, beyond, List.mem_append_left _ member, evidence⟩

theorem Refused.snoc {response : Bytes} (refused : Refused settings history session response)
    (last : State × Action) : Refused settings (history ++ [last]) session response := by
  obtain ⟨earlier, localTime, now, registered, rest, member, evidence⟩ := refused
  exact ⟨earlier, localTime, now, registered, rest, List.mem_append_left _ member, evidence⟩

theorem Blocked.snoc (blocked : Blocked settings history session) (last : State × Action) :
    Blocked settings (history ++ [last]) session := by
  obtain ⟨earlier, localTime, now, registered, rest, before, member, evidence⟩ := blocked
  exact ⟨earlier, localTime, now, registered, rest, before, List.mem_append_left _ member, evidence⟩

theorem Opened.snoc {addresses : List HostInfo} (opened : Opened history sessionId sockFd addresses)
    (last : State × Action) : Opened (history ++ [last]) sessionId sockFd addresses := by
  obtain ⟨earlier, index, member, at_⟩ := opened
  exact ⟨earlier, index, List.mem_append_left _ member, at_⟩

theorem InVain.snoc {address : HostInfo} (inVain : InVain history session sockFd address)
    (last : State × Action) : InVain (history ++ [last]) session sockFd address where
  host := inVain.host
  known := inVain.known.snoc last
  tried := inVain.tried.imp id fun ⟨earlier, index, connect, rest, member, evidence⟩ =>
    ⟨earlier, index, connect, rest, List.mem_append_left _ member, evidence⟩

theorem Unreached.snoc (unreached : Unreached history session) (last : State × Action) :
    Unreached (history ++ [last]) session := by
  cases unreached with
  | unresolved inRun at_ nothing => exact .unresolved (List.mem_append_left _ inRun) at_ nothing
  | noSocket inRun at_ => exact .noSocket (List.mem_append_left _ inRun) at_
  | exhausted opened some inVain =>
    exact .exhausted (opened.snoc last) some (fun address member => (inVain address member).snoc last)

theorem Unconnected.snoc (unconnected : Unconnected settings history session) {state : State}
    {action : Action} (idle : NotReading state action session.sessionId) :
    Unconnected settings (history ++ [(state, action)]) session := by
  cases unconnected with
  | blocked detected blocked => exact .blocked (detected.snoc idle) (blocked.snoc _)
  | unreached detected admitted unreached =>
    exact .unreached (detected.snoc idle) admitted.snoc (unreached.snoc _)

theorem Deserves.snoc {answer : Answer} (deserves : Deserves settings history session answer)
    {state : State} {action : Action} (idle : NotReading state action session.sessionId) :
    Deserves settings (history ++ [(state, action)]) session answer := by
  cases deserves with
  | badRequest unparsed => exact .badRequest (unparsed.snoc _)
  | refused detected refused => exact .refused (detected.snoc idle) (refused.snoc _)
  | unconnected unconnected => exact .unconnected (unconnected.snoc idle)
  | tunnelled linked tunnel => exact .tunnelled (linked.snoc idle) tunnel
  | forwarded linked transparent => exact .forwarded (linked.snoc idle) transparent

end Longer

/-! ## What a failure relies on -/

/-- What a worker has to show for it when it reports a failure. -/
def Pc.Explains (history : History) (session : Session) : Pc → Prop
  | .detectReply false => Unparsed history session.sessionId
  | .lookupHost _ port | .resolve _ port => port = session.port
  | .socket addresses => addresses ≠ []
  | .connect sockFd left => ∃ tried, tried ++ left ≠ [] ∧
      Opened history session.sessionId sockFd (tried ++ left) ∧
      ∀ address ∈ tried, InVain history session sockFd address
  | .abort | .giveUp => Unreached history session
  | _ => True

def Holder.Explains (settings : Settings) (history : History) (session : Session) : Holder → Prop
  | .worker w => w.pc.Explains history session
  | .message (.hostDetectResult _ false) => Unparsed history session.sessionId
  | .message (.hostConnectResult _ _ false) => Unconnected settings history session
  | _ => True

section Longer

variable {settings : Settings} {history : History} {session : Session}

theorem Pc.Explains.snoc {pc : Pc} (explains : pc.Explains history session) (last : State × Action) :
    pc.Explains (history ++ [last]) session := by
  cases pc with
  | detectReply success =>
    cases success with
    | true => trivial
    | false => exact Unparsed.snoc explains last
  | lookupHost host port | resolve host port => exact explains
  | socket addresses => exact explains
  | connect sockFd left =>
    obtain ⟨tried, some, opened, inVain⟩ := explains
    exact ⟨tried, some, opened.snoc last, fun address member => (inVain address member).snoc last⟩
  | abort | giveUp => exact Unreached.snoc explains last
  | _ => trivial

theorem Holder.Explains.snoc {holder : Holder} (explains : holder.Explains settings history session)
    {state : State} {action : Action} (idle : NotReading state action session.sessionId) :
    holder.Explains settings (history ++ [(state, action)]) session := by
  cases holder with
  | worker worker => exact Pc.Explains.snoc explains _
  | message message =>
    cases message with
    | hostDetectResult sessionId success =>
      cases success with
      | true => trivial
      | false => exact Unparsed.snoc explains _
    | hostConnectResult sessionId proxyFd success =>
      cases success with
      | true => trivial
      | false => exact Unconnected.snoc explains idle
  | _ => trivial

end Longer

namespace State

variable {state next : State} {settings : Settings} {history : History} {action : Action}

structure Explained (settings : Settings) (history : History) (state : State) : Prop where
  explains : ∀ holder ∈ state.holders, ∀ session, state.getSession holder.sessionId = some session →
    holder.Explains settings history session

/-- A worker that goes on. -/
theorem worked_explains (known : AddressesKnown history state) {index : Nat} {input : Input}
    {worker : Worker} {shared : State} {pc : Pc} (at_ : state.workers[index]? = some worker)
    (worked : worker.step input state = some (shared, some pc)) {before session : Session}
    (foundBefore : state.getSession worker.sessionId = some before)
    (found : shared.getSession worker.sessionId = some session)
    (holds : worker.pc.Holds settings history before) (explains : worker.pc.Explains history before) :
    pc.Explains (history ++ [(state, .work index input)]) session := by
  have steps := Worker.steps_of_step worked
  have named := SessionManager.getSession_sessionId foundBefore
  obtain ⟨sessionId, was⟩ := worker
  change before.sessionId = sessionId at named
  subst named
  have same : shared.getSession before.sessionId = state.getSession before.sessionId → before = session := by
    intro unchanged
    rw [unchanged, foundBefore] at found
    exact Option.some.inj found
  have kept := explains.snoc (state, .work index input)
  cases steps with
  | detected | setHost | setPort | setRequest | setTransparent => trivial
  | detectorEnter | resolved | connected | giveUp | resend | setOptions => trivial
  | @undetected clientFd result beyond =>
    obtain rfl := same rfl
    refine ⟨state, index, clientFd, result, beyond, by simp, at_, ?_⟩
    simp only [Worker.step] at worked
    split at worked
    · cases worked
    · assumption
  | connectorEnter again =>
    obtain rfl := same rfl
    cases foundBefore.symm.trans again
    exact rfl
  | @cached host port now =>
    simp only [Worker.step, Option.some.injEq, Prod.mk.injEq] at worked
    have filled := worked.2
    split at filled
    · rename_i hit
      exact List.ne_nil_of_length_pos hit
    · cases filled
  | uncached =>
    obtain rfl := same rfl
    exact explains
  | @unresolved host port getaddrinfo now =>
    obtain rfl := same rfl
    obtain rfl : host = before.hostUrl := Connects.sameHost holds _ (List.mem_singleton_self _)
    obtain rfl : port = before.port := explains
    refine .unresolved (List.mem_append_right _ (List.mem_singleton_self _)) at_ ?_
    rintro results isResults result member
    simp only [Worker.step, Option.mem_def.mp isResults] at worked
    split at worked
    · rename_i nothing
      unfold firstAddress at nothing
      simpa using List.find?_eq_none.mp (Option.map_eq_none_iff.mp nothing) result member
    · cases worked
  | store => exact List.cons_ne_nil _ _
  | @socket addresses sockFd unused =>
    obtain rfl := same rfl
    refine ⟨[], explains, ⟨state, index, by simp, at_⟩, fun _ member => absurd member List.not_mem_nil⟩
  | noSocket =>
    obtain rfl := same rfl
    exact .noSocket (List.mem_append_right _ (List.mem_singleton_self _)) at_
  | exhausted =>
    obtain rfl := same rfl
    obtain ⟨tried, some, opened, inVain⟩ := kept
    rw [List.append_nil] at some opened
    exact .exhausted opened some inVain
  | @nextAddress sockFd address rest connect =>
    obtain rfl := same rfl
    obtain ⟨tried, some, opened, inVain⟩ := kept
    have isKnown := known.workers _ (List.mem_of_getElem? at_) address (List.mem_cons_self ..)
    have last : InVain (history ++ [(state, .work index (.network connect))]) before sockFd address := by
      refine ⟨Connects.sameHost holds _ (List.mem_cons_self ..), isKnown.snoc _, ?_⟩
      simp only [Worker.step, foundBefore] at worked
      split at worked
      · rename_i filtered
        exact .inl filtered
      · refine .inr ⟨state, index, connect, rest, by simp, at_, ?_⟩
        intro connected
        simp [connected] at worked
    rw [List.append_cons tried address rest] at some opened
    refine ⟨tried ++ [address], some, opened, fun other member => ?_⟩
    rcases List.mem_append.mp member with older | isLast
    · exact inVain other older
    · rw [List.mem_singleton.mp isLast]
      exact last

/-- A worker that reports. -/
theorem replied_explains {index : Nat} {input : Input} {worker : Worker} {shared : State} {after : Option Pc}
    {message : Message} (at_ : state.workers[index]? = some worker)
    (worked : worker.step input state = some (shared, after)) (pipe : shared.pipe = state.pipe ++ [message])
    {session : Session} (holds : worker.pc.Holds settings history session)
    (explains : worker.pc.Explains history session) :
    (Holder.message message).Explains settings (history ++ [(state, .work index input)]) session := by
  have steps := Worker.steps_of_step worked
  obtain ⟨sessionId, was⟩ := worker
  cases steps with
  | @detectReply success =>
    cases List.append_cancel_left pipe
    cases success with
    | true => trivial
    | false => exact Unparsed.snoc explains _
  | abort | giveUp =>
    cases List.append_cancel_left pipe
    have idle := notReading_of_pc at_ (by simp) .none session.sessionId
    exact Unconnected.snoc (.unreached (Connects.detected holds) (Connects.admitted holds) explains) idle
  | connectReply =>
    cases List.append_cancel_left pipe
    trivial
  | _ => simp [updateSession] at pipe

/-! ## Where a failure comes from -/

/-- A message that stays in the pipe has its session as it was. -/
theorem message_session (sound : state.ledger.Sound) (stepped : state.step settings action = some next)
    {sessionId : Nat} {proxyFd : Fd} {success : Bool}
    (member : .message (.hostConnectResult sessionId proxyFd success) ∈ state.holders) {session : Session}
    (found : next.getSession sessionId = some session) : state.getSession sessionId = some session := by
  obtain ⟨before, foundBefore⟩ := exists_session sound member
  change state.getSession sessionId = some before at foundBefore
  have named := SessionManager.getSession_sessionId foundBefore
  have apart : ∀ {other : Holder}, other ∈ state.holders → other.sessionId = before.sessionId →
      other = .message (.hostConnectResult sessionId proxyFd success) :=
    fun isOther sameId => holder_unique sound isOther member (sameId.trans named)
  cases step_session sound stepped foundBefore found with
  | same same => rw [same, foundBefore]
  | counted isSocket own counted =>
    obtain ⟨client, isHolder, sameId⟩ := exists_socket_holder sound isSocket
    cases apart isHolder (sameId.trans own)
  | checked pipe =>
    have isMessage : .message (.hostDetectResult before.sessionId true) ∈ state.holders :=
      mem_holders.mpr (pipe ▸ List.mem_cons_self ..)
    cases apart isMessage rfl
  | stored isWorker own unanswered => cases apart isWorker own

/-- A message that a connection has failed. -/
theorem failed_explains (sound : state.ledger.Sound) (stepped : state.step settings action = some next)
    (provenance : Provenance settings history state) (explained : Explained settings history state)
    {sessionId : Nat} {proxyFd : Fd}
    (member : .message (.hostConnectResult sessionId proxyFd false) ∈ next.holders) {session : Session}
    (found : next.getSession sessionId = some session) :
    Unconnected settings (history ++ [(state, action)]) session := by
  have named := SessionManager.getSession_sessionId found
  cases step_fails stepped member with
  | kept older =>
    have before := message_session sound stepped older found
    have idle := notReading_of_holder sound older (fun _ => by simp) action
    have unconnected : Unconnected settings history session := explained.explains _ older session before
    exact unconnected.snoc (show NotReading state action session.sessionId from named ▸ idle)
  | @blocked localTime now registered rest before isCommand pipe foundBefore noRefusal isNamed blocked =>
    cases found.symm.trans isNamed
    have isMessage : .message (.hostDetectResult sessionId true) ∈ state.holders :=
      mem_holders.mpr (pipe ▸ List.mem_cons_self ..)
    have detected : Detected history before := provenance.holds _ isMessage before foundBefore
    have idle := notReading_of_holder sound isMessage (fun _ => by simp) action
    change NotReading state action sessionId at idle
    rw [← named] at idle
    refine .blocked ((detected_setVerdictName detected _).snoc idle)
      ⟨state, localTime, now, registered, rest, before, by simp [isCommand], ?_, ?_, noRefusal, rfl, ?_⟩
    · rw [named]
      exact pipe
    · rw [named]
      exact foundBefore
    · rw [setVerdictName_hostUrl]
      exact blocked
  | @replied index input worker shared after isWork at_ owing worked addressed pipe same =>
    have isHolder := worker_holds at_ owing
    have before : state.getSession worker.sessionId = some session := by
      rw [← addressed, getSession, ← same]
      exact found
    rw [isWork]
    exact replied_explains at_ worked pipe (provenance.holds _ isHolder session before)
      (explained.explains _ isHolder session before)

theorem step_explained (sound : state.ledger.Sound) (registers : Registers state action)
    (stepped : state.step settings action = some next) (provenance : Provenance settings history state)
    (known : AddressesKnown history state) (explained : Explained settings history state) :
    Explained settings (history ++ [(state, action)]) next := by
  have nextSound := Ledger.steps_sound (step_ledger sound registers stepped) sound
  refine ⟨fun holder member session found => ?_⟩
  cases step_arrives sound registers stepped member with
  | kept older same =>
    have idle := notReading_of_kept sound nextSound stepped older member
    rw [← SessionManager.getSession_sessionId found] at idle
    exact (explained.explains holder older session (same ▸ found)).snoc idle
  | socket | accepted | admitted => trivial
  | blocked => exact failed_explains sound stepped provenance explained member found
  | @taken task rest queue same => cases task <;> trivial
  | @worked index input worker shared pc isWork at_ owing worked sessions =>
    have isHolder := worker_holds at_ owing
    obtain ⟨before, foundBefore⟩ := exists_session sound isHolder
    have holds : worker.pc.Holds settings history before := provenance.holds _ isHolder before foundBefore
    rw [getSession, sessions] at found
    rw [isWork]
    exact worked_explains known at_ worked foundBefore found holds
      (explained.explains _ isHolder before foundBefore)
  | @replied index input worker shared after message isWork at_ owing worked addressed pipe same =>
    have isHolder := worker_holds at_ owing
    change next.getSession message.sessionId = some session at found
    rw [same, addressed] at found
    rw [isWork]
    exact replied_explains at_ worked pipe (provenance.holds _ isHolder session found)
      (explained.explains _ isHolder session found)

/-! ## Every run -/

theorem run_explained (run : Run (proxySystem settings) Registers history state) :
    Explained settings history state := by
  apply run.historyInvariant (Explained settings)
  · rintro state ⟨serverFd, commandFd, openFds, now, -, -, -, rfl⟩
    refine ⟨fun holder member => ?_⟩
    rw [initial_holders] at member
    cases member
  · exact fun history state action next earlier explained registers stepped =>
      step_explained (run_sound earlier) registers stepped (run_provenance earlier)
        (run_addressesKnown earlier) explained

/-- What a step says is what the session deserves. -/
theorem speaks_deserved (run : Run (proxySystem settings) Registers history state)
    {entry : Nat × Answer} (speaks : Speaks settings state next action (some entry)) :
    ∃ session, session.sessionId = entry.1 ∧
      Deserves settings (history ++ [(state, action)]) session entry.2 := by
  have provenance := run_provenance run
  cases speaks with
  | @refusal localTime now registered message rest session response isCommand pipe found refusal =>
    have isHolder : .message message ∈ state.holders := mem_holders.mpr (pipe ▸ List.mem_cons_self ..)
    have named := SessionManager.getSession_sessionId found
    have idle : NotReading state action session.sessionId := by
      rw [isCommand]
      exact fun _ _ _ _ isWork => nomatch isWork
    have explains := (run_explained run).explains _ isHolder session found
    refine ⟨session, named, ?_⟩
    cases message with
    | hostDetectResult sessionId success =>
      cases success with
      | false =>
        cases refusal
        exact .badRequest (Unparsed.snoc explains _)
      | true =>
        have detected : Detected history session := provenance.holds _ isHolder session found
        obtain ⟨enabled, refused⟩ := authorize_refuses refusal
        refine .refused (detected.snoc idle) ⟨state, localTime, now, registered, rest, by simp [isCommand], ?_, ?_,
          refusal, enabled, refused⟩
        · rw [named]
          exact pipe
        · rw [named]
          exact found
    | hostConnectResult sessionId proxyFd success =>
      cases success with
      | false =>
        cases refusal
        exact .unconnected (Unconnected.snoc explains idle)
      | true => cases refusal
  | @established index sessionId result sockFd session isWork at_ found =>
    have isHolder := worker_holds at_ rfl
    have connects : Connects settings history session (.resend sockFd) :=
      provenance.holds _ isHolder session found
    have dialled := (run_endpoints run).links _ isHolder session found sockFd rfl
    have idle : NotReading state action session.sessionId := by
      rw [isWork]
      exact notReading_of_pc at_ (by simp) _ _
    have linked := Linked.snoc ⟨connects.detected, connects.admitted, dialled⟩ idle
    refine ⟨session, SessionManager.getSession_sessionId found, ?_⟩
    cases toOrigin : session.transparent with
    | true =>
      simp only [Session.established, toOrigin, if_true]
      exact .forwarded linked toOrigin
    | false =>
      simp only [Session.established, toOrigin, Bool.false_eq_true, if_false]
      exact .tunnelled linked toOrigin

/-- A session that has been answered is not read for any more. -/
theorem notReading_answered (answered : Answered settings history state) {entry : Nat × Answer}
    (member : entry ∈ answers settings history) (action : Action) : NotReading state action entry.1 := by
  intro index data beyond clientFd _ at_
  exact answered.unanswered _ (worker_holds at_ rfl) trivial entry member rfl

theorem run_deserved (run : Run (proxySystem settings) Registers history state) :
    ∀ entry ∈ answers settings history, ∃ session, session.sessionId = entry.1 ∧
      Deserves settings history session entry.2 := by
  apply run.historyInvariant (fun history _ => ∀ entry ∈ answers settings history,
    ∃ session, session.sessionId = entry.1 ∧ Deserves settings history session entry.2)
  · rintro state -
    simp [answers]
  · intro history state action next earlier deserved registers stepped entry member
    rcases mem_answers_snoc.mp member with older | said
    · obtain ⟨session, same, deserves⟩ := deserved entry older
      have idle := notReading_answered (run_answered earlier) older action
      rw [← same] at idle
      exact ⟨session, same, deserves.snoc idle⟩
    · have speaks := speaks_of_step (run_sound earlier) stepped
      rw [said] at speaks
      exact speaks_deserved earlier speaks

/-- In every faultless run, whatever the interleaving, the response that a session is given tells what has
happened to it: 400 is for a read that could not be parsed; 403 or 407 for a check that failed when the
detection was handled; 404 for a blocked host, a name without an address, no socket, or addresses that
were all tried in vain; and 200, or a request passed on, for a detection, an admission and a connection
to its host. -/
theorem answers_deserved {logging : Logging}
    (run : Run (proxySystem settings) (Faultless settings logging) history state) :
    (∀ sessionId clientFd response, (sessionId, .toClient clientFd response) ∈ answers settings history →
      ∃ session, session.sessionId = sessionId ∧ session.clientFd = clientFd ∧
        (response = clientError → Unparsed history sessionId) ∧
        (response = forbidden ∨ response = authenticationRequired →
          Detected history session ∧ Refused settings history session response) ∧
        (response = notFound → Unconnected settings history session) ∧
        (response = okResponse →
          session.transparent = false ∧ ∃ sockFd, Linked settings history session sockFd)) ∧
    ∀ sessionId sockFd request, (sessionId, .toOrigin sockFd request) ∈ answers settings history →
      ∃ session, session.sessionId = sessionId ∧ session.transparent = true ∧
        Linked settings history session sockFd ∧ request <+: session.request := by
  have deserved := run_deserved (registers_of_faultless run)
  constructor
  · intro sessionId clientFd response member
    obtain ⟨session, same, deserves⟩ := deserved _ member
    obtain rfl : session.sessionId = sessionId := same
    exact ⟨session, rfl, deserves_toClient deserves⟩
  · intro sessionId sockFd request member
    obtain ⟨session, same, deserves⟩ := deserved _ member
    exact ⟨session, same, deserves_toOrigin deserves⟩

/-- The client whose origin has refused the connection. -/
theorem answers_deserved_refuse : ∃ (history : History) (state : State) (session : Session),
    state.responses = [(5, notFound)] ∧ session.sessionId = 0 ∧ session.clientFd = 5 ∧
      Unconnected unrestricted history session := by
  have executed : ∃ history state,
      runActions (State.step unrestricted) [] (initial 3 4 [3, 4] 0) refuse = some (history, state) ∧
      state.responses = [(5, notFound)] ∧ (0, .toClient 5 notFound) ∈ answers unrestricted history ∧
      ∀ entry ∈ history, InBounds unrestricted ⟨.debug, 10⟩ entry.1 entry.2 :=
    ⟨_, _, rfl, by decide, by decide, by decide⟩
  obtain ⟨history, state, executed, responses, member, inBounds⟩ := executed
  have run := run_faultless (run_of_executed registers_refuse executed) inBounds
  obtain ⟨session, same, sameFd, -, -, unconnected, -⟩ := (answers_deserved run).1 _ _ _ member
  exact ⟨history, state, session, responses, same, sameFd, unconnected rfl⟩

end State

end NermalProxy
