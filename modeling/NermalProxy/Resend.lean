import NermalProxy.HandBack
import NermalProxy.Provenance
import NermalProxy.RequestLine

/-! # What the origin receives of the first read

The connector offers the stored request to one `::write` on the origin's socket, for a
`GET` or a `POST`, and nothing for a tunnel.  The relay starts behind it, with what the
client sends after its first read. -/

namespace NermalProxy

open NermalProxy.CString NermalProxy.Config NermalProxy.Detector NermalProxy.Transition

/-- What follows the first blank line. -/
def afterBlankLine : Bytes → Bytes
  | [] => []
  | 10 :: 10 :: rest => rest
  | 10 :: 13 :: 10 :: rest => rest
  | _ :: rest => afterBlankLine rest

/-- The bytes behind the header section, which starts where the parse does: at the first word. -/
def payload (data : Bytes) : Bytes := afterBlankLine (skipSpace data)

/-- A `GET` or `POST` request. -/
def IsTransparent (data : Bytes) : Prop :=
  word (skipSpace data) = bytes "GET" ∨ word (skipSpace data) = bytes "POST"

/-- What the connector offers to `::write` on the origin's socket. -/
def offered (session : Session) : Bytes := if session.transparent then session.request else []

def originReceives (session : Session) (result : WriteResult) : Bytes := result.accepted (offered session)

/-- What is accepted on this descriptor between two states. -/
def State.resentOn (sockFd : Fd) (state next : State) : Bytes :=
  ((next.resent.drop state.resent.length).filter (fun entry => entry.1 = sockFd)).flatMap Prod.snd

/-- The payload of the first read has reached the origin: at its place in the request, or as the
first bytes of a tunnel. -/
def Delivered (transparent : Bool) (data received : Bytes) : Prop :=
  payload data = [] ∨ (if transparent then data else payload data) <+: received

/-! ## The mode of a request -/

theorem isTransparent_scanRequestLine {buffer : Bytes} :
    isTransparent (scanRequestLine buffer).1 = true ↔ IsTransparent buffer := by
  rw [scanRequestLine_eq, isTransparent_take, isTransparent_iff]
  rfl

theorem transparent_of_detect {buffer : Bytes} {detection : Detection}
    (detected : detect buffer = some detection) :
    detection.transparent = isTransparent (scanRequestLine buffer).1 := by
  simp only [detect] at detected
  split at detected
  · rename_i tunnel
    have mode : isTransparent (scanRequestLine buffer).1 = false := by simpa using tunnel
    rw [mode]
    split at detected <;> cases detected <;> rfl
  · rename_i tunnel
    have mode : isTransparent (scanRequestLine buffer).1 = true := by simpa using tunnel
    rw [mode]
    split at detected
    · cases detected
    · cases detected; rfl

/-! ## The payload -/

theorem mem_of_afterBlankLine {text : Bytes} (nonempty : afterBlankLine text ≠ []) :
    ∃ c ∈ text, isSpace c = true := by
  induction text using afterBlankLine.induct with
  | case1 => exact absurd rfl nonempty
  | case2 rest => exact ⟨10, by simp, by decide⟩
  | case3 rest => exact ⟨10, by simp, by decide⟩
  | case4 c rest noBlank noBlankCr inductionHypothesis =>
    rw [afterBlankLine] at nonempty
    · obtain ⟨d, member, isEnd⟩ := inductionHypothesis nonempty
      exact ⟨d, List.mem_cons_of_mem _ member, isEnd⟩
    · exact noBlank
    · exact noBlankCr

/-- The method of a request with a payload does not depend on what is behind its bytes. -/
theorem isTransparent_append {data : Bytes} (nonempty : payload data ≠ []) (rest : Bytes) :
    IsTransparent (data ++ rest) ↔ IsTransparent data := by
  have starts : skipSpace data ≠ [] := by
    intro empty
    exact nonempty (by rw [payload, empty]; rfl)
  unfold IsTransparent
  rw [skipSpace_append starts, word_append_of_mem (mem_of_afterBlankLine nonempty)]

theorem requestBuffer_append {data : Bytes} (nulFree : (0 : UInt8) ∉ data) (beyond : Bytes) :
    ∃ rest, requestBuffer data beyond = data ++ rest := by
  unfold requestBuffer
  rw [List.append_assoc, cstr_append_of_nul_free nulFree]
  exact ⟨_, rfl⟩

section Session

variable {session : Session} {data beyond : Bytes} {result : WriteResult}

/-- A session as the detector leaves it after a first read of `data`. -/
def HoldsRequest (session : Session) (data beyond : Bytes) : Prop :=
  session.request = requestBuffer data beyond ∧
    (session.transparent = true ↔ IsTransparent (requestBuffer data beyond))

theorem holdsRequest_of_detected {detection : Detection}
    (detected : asyncDetector (.data data) beyond = some detection)
    (request : session.request = detection.request)
    (transparent : session.transparent = detection.transparent) : HoldsRequest session data beyond := by
  have parsed : detect (requestBuffer data beyond) = some detection := by
    simp only [asyncDetector] at detected
    split at detected
    · cases detected
    · exact detected
  constructor
  · rw [request, detect_request parsed]
  · rw [transparent, transparent_of_detect parsed, isTransparent_scanRequestLine]

theorem delivered_of_written (holds : HoldsRequest session data beyond)
    (mode : IsTransparent data) (nulFree : (0 : UInt8) ∉ data) (nonempty : payload data ≠ []) {count : Nat}
    (enough : data.length ≤ count) :
    Delivered session.transparent data (originReceives session (.accepts count)) := by
  obtain ⟨rest, buffer⟩ := requestBuffer_append nulFree beyond
  have transparent : session.transparent = true := by
    rw [holds.2, buffer, isTransparent_append nonempty]
    exact mode
  right
  rw [if_pos transparent]
  simp only [originReceives, WriteResult.accepted, offered, transparent, if_true]
  rw [List.prefix_take_iff, holds.1, buffer]
  exact ⟨List.prefix_append _ _, enough⟩

theorem written_of_delivered (holds : HoldsRequest session data beyond) (nonempty : payload data ≠ [])
    (delivered : Delivered session.transparent data (originReceives session result)) :
    IsTransparent data ∧ (0 : UInt8) ∉ data ∧
      ∃ count, result = .accepts count ∧ data.length ≤ count := by
  have arrived := delivered.resolve_left nonempty
  have dataNonempty : data ≠ [] := by
    rintro rfl
    exact nonempty rfl
  cases result with
  | error errno =>
    have empty := List.prefix_nil.mp arrived
    split at empty
    · exact absurd empty dataNonempty
    · exact absurd empty nonempty
  | accepts count =>
    cases transparent : session.transparent with
    | false =>
      simp [transparent, originReceives, WriteResult.accepted, offered] at arrived
      exact absurd arrived nonempty
    | true =>
      simp only [transparent, if_true, originReceives, WriteResult.accepted, offered] at arrived
      rw [List.prefix_take_iff, holds.1] at arrived
      obtain ⟨isPrefix, enough⟩ := arrived
      have nulFree : (0 : UInt8) ∉ data := fun member =>
        cstr_nul_free _ (isPrefix.subset member)
      obtain ⟨rest, buffer⟩ := requestBuffer_append nulFree beyond
      have mode := holds.2.mp transparent
      rw [buffer, isTransparent_append nonempty] at mode
      exact ⟨mode, nulFree, count, rfl, enough⟩

theorem delivered_iff (holds : HoldsRequest session data beyond) :
    Delivered session.transparent data (originReceives session result) ↔
      payload data = [] ∨ (IsTransparent data ∧ (0 : UInt8) ∉ data ∧
        ∃ count, result = .accepts count ∧ data.length ≤ count) := by
  by_cases empty : payload data = []
  · simp [Delivered, empty]
  · constructor
    · exact fun delivered => .inr (written_of_delivered holds empty delivered)
    · rintro (isEmpty | ⟨mode, nulFree, count, rfl, enough⟩)
      · exact absurd isEmpty empty
      · exact delivered_of_written holds mode nulFree empty enough

end Session

/-! ## In a run -/

namespace State

variable {state : State} {settings : Settings} {history : History}

/-- Where a connector is about to resend the request, no socket relays for its session yet. -/
theorem socketsOf_eq_nil (sound : state.ledger.Sound) {worker : Worker} (member : worker ∈ state.workers)
    (owing : worker.replied = false) : state.socketsOf worker.sessionId = [] := by
  have isTask : worker.sessionId ∈ state.taskIds :=
    List.mem_append_right _ (List.mem_filterMap.mpr ⟨worker, member, owes_of_owing owing⟩)
  have counted := List.count_pos_iff.mpr isTask
  obtain ⟨session, found⟩ := live_of_token sound (token_of_taskIds isTask)
  have named := SessionManager.getSession_sessionId found
  rw [← named] at counted ⊢
  cases situation sound (SessionManager.mem_of_getSession found) with
  | inTask task noMessage noSocket => exact noSocket
  | inMessage noTask message noSocket => exact noSocket
  | relaying noTask noMessage sockets crossed opposite onClient => omega

theorem resend_holdsRequest (run : Run (proxySystem settings) Registers history state) {worker : Worker}
    (member : worker ∈ state.workers) {sockFd : Fd} (resends : worker.pc = .resend sockFd) :
    ∃ session data beyond, state.getSession worker.sessionId = some session ∧
      ReadOnce history worker.sessionId data beyond ∧ HoldsRequest session data beyond := by
  have owing : worker.replied = false := by simp [Worker.replied, resends]
  have isHolder : .worker worker ∈ state.holders := mem_holders.mpr ⟨member, owing⟩
  obtain ⟨session, found⟩ := exists_session (run_sound run) isHolder
  have holds : worker.pc.Holds settings history session :=
    (run_provenance run).holds _ isHolder session found
  rw [resends] at holds
  obtain ⟨detection, ⟨data, beyond, readOnce, detected⟩, -, -, request, transparent⟩ := holds.detected
  have named : session.sessionId = worker.sessionId := SessionManager.getSession_sessionId found
  rw [named] at readOnce
  exact ⟨session, data, beyond, found, readOnce, holdsRequest_of_detected detected request transparent⟩

/-- The step that resends writes what the connector offers, and nothing else. -/
theorem resentOn_step {worker : Worker} {sockFd : Fd} (resends : worker.pc = .resend sockFd)
    {session : Session} (found : state.getSession worker.sessionId = some session)
    {result : WriteResult} {next : State} {after : Option Pc}
    (stepped : worker.step (.write result) state = some (next, after)) :
    state.resentOn sockFd next = originReceives session result := by
  obtain ⟨sessionId, pc⟩ := worker
  subst resends
  simp only [Worker.step, found] at stepped
  cases transparent : session.transparent with
  | true =>
    simp only [transparent, if_true, Option.some.injEq, Prod.mk.injEq] at stepped
    obtain ⟨rfl, -⟩ := stepped
    simp [resentOn, resend, originReceives, offered, transparent]
  | false =>
    simp only [transparent, Bool.false_eq_true, if_false, Option.some.injEq, Prod.mk.injEq] at stepped
    obtain ⟨rfl, -⟩ := stepped
    cases result <;>
      simp [resentOn, respond, originReceives, offered, transparent, WriteResult.accepted]

/-- Where the words of the request line fit their arrays, the payload of a session's one first read
reaches the origin before the relay starts exactly when there is none, or the request is a `GET` or
`POST` without a NUL that one `::write` takes whole. -/
theorem payload_delivered_iff (run : Run (proxySystem settings) Registers history state) :
    ∀ worker ∈ state.workers, ∀ sockFd, worker.pc = .resend sockFd →
      state.socketsOf worker.sessionId = [] ∧
      ∃ session data beyond, state.getSession worker.sessionId = some session ∧
        ReadOnce history worker.sessionId data beyond ∧
        (WordsFit (requestBuffer data beyond) → ∀ result next after,
          worker.step (.write result) state = some (next, after) →
          (Delivered session.transparent data (state.resentOn sockFd next) ↔
            payload data = [] ∨ (IsTransparent data ∧ (0 : UInt8) ∉ data ∧
              ∃ count, result = .accepts count ∧ data.length ≤ count))) := by
  intro worker member sockFd resends
  have owing : worker.replied = false := by simp [Worker.replied, resends]
  obtain ⟨session, data, beyond, found, readOnce, holds⟩ := resend_holdsRequest run member resends
  refine ⟨socketsOf_eq_nil (run_sound run) member owing, session, data, beyond, found, readOnce, ?_⟩
  intro _ result next after stepped
  rw [resentOn_step resends found stepped]
  exact delivered_iff holds

def form : Bytes := bytes "POST http://example.com/ HTTP/1.0\r\n\r\nq=1"

/-- A form sent with `POST`, taken whole. -/
theorem payload_delivered_iff_form :
    ∃ (state next : State) (transparent : Bool), next.resent.length = state.resent.length + 1 ∧
      Delivered transparent (bytes "POST http://example.com/ HTTP/1.0\r\n\r\nq=1")
        (state.resentOn 6 next) := by
  have executed : ∃ history state next after,
      runActions (State.step unrestricted) [] (initial 3 4 [3, 4] 0)
        (serve 5 6 (bytes "10.0.0.2") form none .connected) = some (history, state) ∧
      state.workers = [⟨0, .resend 6⟩] ∧ FirstRead history 0 form [] ∧
      (⟨0, .resend 6⟩ : Worker).step (.write (.accepts 4096)) state = some (next, after) ∧
      next.resent.length = state.resent.length + 1 :=
    ⟨_, _, _, _, rfl, by decide, ⟨_, 0, 5, List.mem_of_getElem? (i := 3) rfl, rfl⟩, rfl, by decide⟩
  obtain ⟨history, state, next, after, executed, workers, read, stepped, grown⟩ := executed
  have member : ⟨0, .resend 6⟩ ∈ state.workers := by simp [workers]
  obtain ⟨-, session, data, beyond, -, readOnce, delivered⟩ :=
    payload_delivered_iff (run_of_serve executed) _ member 6 rfl
  obtain ⟨rfl, rfl⟩ := readOnce.once _ _ read
  refine ⟨state, next, session.transparent, grown, (delivered ?_ _ _ _ stepped).mpr (.inr ?_)⟩
  · decide
  exact ⟨.inr (by decide), by decide, 4096, rfl, by decide⟩

def formWithNul : Bytes := bytes "POST http://example.com/ HTTP/1.0\r\n\r\na" ++ [0, 98]

/-- The body of a `POST` is cut at its first NUL. -/
theorem payload_lost_behind_nul :
    ¬ ∀ settings history state, Run (proxySystem settings) Registers history state →
      ∀ worker ∈ state.workers, ∀ sockFd, worker.pc = .resend sockFd →
      ∀ session, state.getSession worker.sessionId = some session →
      ∀ data beyond, FirstRead history worker.sessionId data beyond →
      ∀ count next after, worker.step (.write (.accepts count)) state = some (next, after) →
        Delivered session.transparent data (state.resentOn sockFd next) := by
  intro claim
  have executed : ∃ history state next after,
      runActions (State.step unrestricted) [] (initial 3 4 [3, 4] 0)
        (serve 5 6 (bytes "10.0.0.2") formWithNul none .connected) = some (history, state) ∧
      state.workers = [⟨0, .resend 6⟩] ∧ FirstRead history 0 formWithNul [] ∧
      (⟨0, .resend 6⟩ : Worker).step (.write (.accepts 4096)) state = some (next, after) ∧
      state.resentOn 6 next = bytes "POST http://example.com/ HTTP/1.0\r\n\r\na" ∧
      (state.getSession 0).map Session.transparent = some true :=
    ⟨_, _, _, _, rfl, by decide, ⟨_, 0, 5, List.mem_of_getElem? (i := 3) rfl, rfl⟩, rfl, by decide,
      by decide⟩
  obtain ⟨history, state, next, after, executed, workers, read, stepped, sent, mode⟩ := executed
  have member : ⟨0, .resend 6⟩ ∈ state.workers := by simp [workers]
  obtain ⟨session, found, transparent⟩ := Option.map_eq_some_iff.mp mode
  have delivered := claim unrestricted history state (run_of_serve executed) _ member 6 rfl session found
    formWithNul [] read 4096 next after stepped
  simp only [Delivered, transparent, if_true, sent] at delivered
  exact absurd delivered (by decide)

/-! ## The credentials -/

def proxyAuthorization : Bytes := bytes "Proxy-Authorization: "

/-- A request with this value in the header. -/
def requestWith (front value rest : Bytes) : Bytes := front ++ proxyAuthorization ++ value ++ rest

/-- A transparent request that one read stores whole, and whose words fit their arrays. -/
structure Stored (data : Bytes) : Prop where
  transparent : IsTransparent data
  fits : WordsFit data
  nulFree : (0 : UInt8) ∉ data
  short : data.length < requestBufferSize

theorem originReceives_stored {session : Session} {data beyond : Bytes}
    (holds : HoldsRequest session data beyond) (stored : Stored data) (count : Nat) :
    originReceives session (.accepts count) = data.take count := by
  have buffer := requestBuffer_eq stored.nulFree stored.short beyond
  have transparent : session.transparent = true := by
    rw [holds.2, buffer]
    exact stored.transparent
  simp only [originReceives, WriteResult.accepted, offered, transparent, if_true]
  rw [holds.1, buffer]

/-- Two requests that differ in the value of one header are sent as they are: the origins' views
agree in everything but this value, and in that only if the values do. -/
theorem origin_receives_credentials {firstHistory secondHistory : History} {first second : State}
    (firstRun : Run (proxySystem settings) Registers firstHistory first)
    (secondRun : Run (proxySystem settings) Registers secondHistory second) :
    ∀ worker ∈ first.workers, ∀ other ∈ second.workers, ∀ sockFd otherFd,
      worker.pc = .resend sockFd → other.pc = .resend otherFd →
      ∃ session otherSession data otherData beyond otherBeyond,
        first.getSession worker.sessionId = some session ∧
        second.getSession other.sessionId = some otherSession ∧
        ReadOnce firstHistory worker.sessionId data beyond ∧
        ReadOnce secondHistory other.sessionId otherData otherBeyond ∧
        ∀ front value otherValue rest, data = requestWith front value rest →
          otherData = requestWith front otherValue rest → Stored data → Stored otherData →
          ∀ count otherCount next otherNext after otherAfter,
            worker.step (.write (.accepts count)) first = some (next, after) →
            other.step (.write (.accepts otherCount)) second = some (otherNext, otherAfter) →
            first.resentOn sockFd next = (requestWith front value rest).take count ∧
            second.resentOn otherFd otherNext = (requestWith front otherValue rest).take otherCount ∧
            (data.length ≤ count → otherData.length ≤ otherCount →
              (first.resentOn sockFd next = second.resentOn otherFd otherNext ↔
                value = otherValue)) := by
  intro worker member other otherMember sockFd otherFd resends otherResends
  obtain ⟨session, data, beyond, found, readOnce, holds⟩ := resend_holdsRequest firstRun member resends
  obtain ⟨otherSession, otherData, otherBeyond, otherFound, otherRead, otherHolds⟩ :=
    resend_holdsRequest secondRun otherMember otherResends
  refine ⟨session, otherSession, data, otherData, beyond, otherBeyond, found, otherFound, readOnce,
    otherRead, ?_⟩
  intro front value otherValue rest isRequest isOther stored otherStored count otherCount next otherNext
    after otherAfter stepped otherStepped
  have sent : first.resentOn sockFd next = data.take count :=
    (resentOn_step resends found stepped).trans (originReceives_stored holds stored count)
  have otherSent : second.resentOn otherFd otherNext = otherData.take otherCount :=
    (resentOn_step otherResends otherFound otherStepped).trans
      (originReceives_stored otherHolds otherStored otherCount)
  refine ⟨isRequest ▸ sent, isOther ▸ otherSent, ?_⟩
  intro whole otherWhole
  rw [sent, otherSent, List.take_of_length_le whole, List.take_of_length_le otherWhole, isRequest,
    isOther]
  constructor
  · intro same
    exact List.append_cancel_left (List.append_cancel_right same)
  · rintro rfl
    rfl

def twoUsers : Settings :=
  ⟨10080, true, [], [User.make (bytes "bob") (bytes "pw"), User.make (bytes "eve") (bytes "pw")], []⟩

/-- A page that the user of these credentials asks for. -/
def pageRequest (credentials : Bytes) : Bytes :=
  requestWith (bytes "GET http://example.com/ HTTP/1.0\r\n") (bytes "Basic " ++ credentials)
    (bytes "\r\n\r\n")

/-- The page is asked for with these credentials, and the request is resent whole. -/
def Served (credentials : Bytes) : Prop :=
  ∃ history state next after,
    runActions (State.step twoUsers) [] (initial 3 4 [3, 4] 0)
      (serve 5 6 (bytes "10.0.0.2") (pageRequest credentials) (some ⟨0, 12, 0⟩) .connected) =
        some (history, state) ∧
    state.workers = [⟨0, .resend 6⟩] ∧ FirstRead history 0 (pageRequest credentials) [] ∧
    (⟨0, .resend 6⟩ : Worker).step (.write (.accepts 4096)) state = some (next, after) ∧
    state.resentOn 6 next = pageRequest credentials ∧
    (state.getSession 0).map Session.hostUrl = some (bytes "example.com")

theorem served_bob : Served (bytes "Ym9iOnB3") :=
  ⟨_, _, _, _, rfl, by decide, ⟨_, 0, 5, List.mem_of_getElem? (i := 3) rfl, rfl⟩, rfl, by decide,
    by decide⟩

theorem served_eve : Served (bytes "ZXZlOnB3") :=
  ⟨_, _, _, _, rfl, by decide, ⟨_, 0, 5, List.mem_of_getElem? (i := 3) rfl, rfl⟩, rfl, by decide,
    by decide⟩

theorem origin_receives_credentials_bob_eve :
    ∃ (first second next otherNext : State),
      first.resentOn 6 next = pageRequest (bytes "Ym9iOnB3") ∧
      first.resentOn 6 next ≠ second.resentOn 6 otherNext := by
  obtain ⟨firstHistory, first, next, after, executed, workers, read, stepped, -⟩ := served_bob
  obtain ⟨secondHistory, second, otherNext, otherAfter, otherExecuted, otherWorkers, otherRead,
    otherStepped, -⟩ := served_eve
  have member : ⟨0, .resend 6⟩ ∈ first.workers := by simp [workers]
  have otherMember : ⟨0, .resend 6⟩ ∈ second.workers := by simp [otherWorkers]
  obtain ⟨session, otherSession, data, otherData, beyond, otherBeyond, -, -, readOnce, otherOnce, sent⟩ :=
    origin_receives_credentials (run_of_serve executed) (run_of_serve otherExecuted) _ member _
      otherMember 6 6 rfl rfl
  obtain ⟨rfl, -⟩ := readOnce.once _ _ read
  obtain ⟨rfl, -⟩ := otherOnce.once _ _ otherRead
  obtain ⟨verbatim, -, differ⟩ := sent _ _ _ _ rfl rfl ⟨.inl (by decide), by decide, by decide, by decide⟩
    ⟨.inl (by decide), by decide, by decide, by decide⟩ _ _ _ _ _ _ stepped otherStepped
  refine ⟨first, second, next, otherNext, verbatim.trans (by decide), ?_⟩
  rw [ne_eq, differ (by decide) (by decide)]
  decide

/-- Two users ask for the same page, and the origin can tell them apart. -/
theorem credentials_reach_origin :
    ¬ ∀ settings firstHistory secondHistory first second,
      Run (proxySystem settings) Registers firstHistory first →
      Run (proxySystem settings) Registers secondHistory second →
      ∀ worker ∈ first.workers, ∀ other ∈ second.workers, ∀ sockFd otherFd,
      worker.pc = .resend sockFd → other.pc = .resend otherFd →
      ∀ front value otherValue rest,
      FirstRead firstHistory worker.sessionId (requestWith front value rest) [] →
      FirstRead secondHistory other.sessionId (requestWith front otherValue rest) [] →
      Stored (requestWith front value rest) → Stored (requestWith front otherValue rest) →
      (first.getSession worker.sessionId).map Session.hostUrl =
        (second.getSession other.sessionId).map Session.hostUrl →
      ∀ next otherNext after otherAfter,
      worker.step (.write (.accepts 4096)) first = some (next, after) →
      other.step (.write (.accepts 4096)) second = some (otherNext, otherAfter) →
      first.resentOn sockFd next = second.resentOn otherFd otherNext := by
  intro claim
  obtain ⟨firstHistory, first, next, after, executed, workers, read, stepped, sent, host⟩ := served_bob
  obtain ⟨secondHistory, second, otherNext, otherAfter, otherExecuted, otherWorkers, otherRead,
    otherStepped, otherSent, otherHost⟩ := served_eve
  have member : ⟨0, .resend 6⟩ ∈ first.workers := by simp [workers]
  have otherMember : ⟨0, .resend 6⟩ ∈ second.workers := by simp [otherWorkers]
  have same := claim _ _ _ first second (run_of_serve executed) (run_of_serve otherExecuted) _ member _
    otherMember 6 6 rfl rfl _ _ _ _ read otherRead ⟨.inl (by decide), by decide, by decide, by decide⟩
    ⟨.inl (by decide), by decide, by decide, by decide⟩ (host.trans otherHost.symm) _ _ _ _ stepped otherStepped
  rw [sent, otherSent] at same
  exact absurd same (by decide)

end State

end NermalProxy
