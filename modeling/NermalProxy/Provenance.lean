import NermalProxy.Holders

/-! # Where the fields of a session come from

What the history of a run says about a session, by who holds it: before the detector's
read, between its stores, after detection, and from its admission on.  A connector has a
session only after both. -/

namespace NermalProxy

open NermalProxy.CString NermalProxy.Config NermalProxy.Detector NermalProxy.Transition

/-- In the run a detector has read `data` from the client of this session. -/
def FirstRead (history : History) (sessionId : Nat) (data beyond : Bytes) : Prop :=
  ∃ earlier index clientFd, (earlier, Action.work index (.read (.data data) beyond)) ∈ history ∧
    earlier.workers[index]? = some ⟨sessionId, .read clientFd⟩

def Unread (history : History) (sessionId : Nat) : Prop :=
  ∀ data beyond, ¬ FirstRead history sessionId data beyond

structure ReadOnce (history : History) (sessionId : Nat) (data beyond : Bytes) : Prop where
  read : FirstRead history sessionId data beyond
  once : ∀ other otherBeyond, FirstRead history sessionId other otherBeyond →
    other = data ∧ otherBeyond = beyond

def Parsed (history : History) (sessionId : Nat) (detection : Detection) : Prop :=
  ∃ data beyond, ReadOnce history sessionId data beyond ∧
    asyncDetector (.data data) beyond = some detection

/-- The four fields are those of the detection. -/
def Detected (history : History) (session : Session) : Prop :=
  ∃ detection, Parsed history session.sessionId detection ∧ session.hostUrl = detection.host ∧
    session.port = UInt16.ofInt detection.port ∧ session.request = detection.request ∧
    session.transparent = detection.transparent

/-- In the run the successful detection of this session was handled, was not refused, and left the
session as it is now, with a host that its user may visit. -/
def Admitted (settings : Settings) (history : History) (session : Session) : Prop :=
  ∃ earlier localTime now registered rest before,
    (earlier, Action.command localTime now registered) ∈ history ∧
    earlier.pipe = .hostDetectResult session.sessionId true :: rest ∧
    earlier.getSession session.sessionId = some before ∧
    (SocketManager.authorize settings localTime before).refusal = none ∧
    session = SocketManager.setVerdictName (SocketManager.authorize settings localTime before) before ∧
    isAllowed settings.blacklists settings.policies session.userName session.hostUrl = true

/-- The hosts that a connector looks up, or has addresses of. -/
def Pc.hosts : Pc → List Bytes
  | .lookupHost host _ => [host]
  | .resolve host _ => [host]
  | .store entry => [entry.url]
  | .socket addresses => addresses.map HostInfoCache.HostInfo.url
  | .connect _ addresses => addresses.map HostInfoCache.HostInfo.url
  | _ => []

/-- What a connector relies on. -/
structure Connects (settings : Settings) (history : History) (session : Session) (pc : Pc) : Prop where
  detected : Detected history session
  admitted : Admitted settings history session
  sameHost : ∀ host ∈ pc.hosts, host = session.hostUrl

def Pc.Holds (settings : Settings) (history : History) (session : Session) (pc : Pc) : Prop :=
  match pc with
  | .detectorEnter | .read _ => Unread history session.sessionId
  | .setHost detection => Parsed history session.sessionId detection
  | .setPort detection =>
    Parsed history session.sessionId detection ∧ session.hostUrl = detection.host
  | .setRequest detection =>
    Parsed history session.sessionId detection ∧ session.hostUrl = detection.host ∧
      session.port = UInt16.ofInt detection.port
  | .setTransparent detection =>
    Parsed history session.sessionId detection ∧ session.hostUrl = detection.host ∧
      session.port = UInt16.ofInt detection.port ∧ session.request = detection.request
  | .detectReply true => Detected history session
  | .detectReply false | .clearCache => True
  | pc => Connects settings history session pc

/-- What the run says about the session that a holder has. -/
def Holder.Holds (settings : Settings) (history : History) (session : Session) : Holder → Prop
  | .task (.asyncDetector _) => Unread history session.sessionId
  | .task (.asyncConnector _) => Connects settings history session .connectorEnter
  | .worker w => w.pc.Holds settings history session
  | .message (.hostDetectResult _ true) => Detected history session
  | .message _ => True
  | .socket _ => True

/-! ## A longer history -/

section Longer

variable {settings : Settings} {history : History} {state : State} {action : Action} {sessionId : Nat}

/-- The action is not a detector's read of this session. -/
def NotReading (state : State) (action : Action) (sessionId : Nat) : Prop :=
  ∀ index data beyond clientFd, action = .work index (.read (.data data) beyond) →
    state.workers[index]? ≠ some ⟨sessionId, .read clientFd⟩

theorem firstRead_snoc {data beyond : Bytes} :
    FirstRead (history ++ [(state, action)]) sessionId data beyond ↔
      FirstRead history sessionId data beyond ∨
      ∃ index clientFd, action = .work index (.read (.data data) beyond) ∧
        state.workers[index]? = some ⟨sessionId, .read clientFd⟩ := by
  constructor
  · rintro ⟨earlier, index, clientFd, member, at_⟩
    rcases List.mem_append.mp member with older | last
    · exact .inl ⟨earlier, index, clientFd, older, at_⟩
    · obtain ⟨rfl, taken⟩ := Prod.mk.inj (List.mem_singleton.mp last)
      exact .inr ⟨index, clientFd, taken.symm, at_⟩
  · rintro (⟨earlier, index, clientFd, older, at_⟩ | ⟨index, clientFd, rfl, at_⟩)
    · exact ⟨earlier, index, clientFd, List.mem_append_left _ older, at_⟩
    · exact ⟨state, index, clientFd, by simp, at_⟩

/-- Only a read of this session adds to its reads. -/
theorem NotReading.firstRead_snoc (idle : NotReading state action sessionId) {data beyond : Bytes} :
    FirstRead (history ++ [(state, action)]) sessionId data beyond ↔
      FirstRead history sessionId data beyond := by
  rw [NermalProxy.firstRead_snoc]
  constructor
  · rintro (older | ⟨index, clientFd, isRead, at_⟩)
    · exact older
    · exact absurd at_ (idle index data beyond clientFd isRead)
  · exact .inl

theorem Unread.snoc (unread : Unread history sessionId) (idle : NotReading state action sessionId) :
    Unread (history ++ [(state, action)]) sessionId :=
  fun data beyond read => unread data beyond (idle.firstRead_snoc.mp read)

theorem ReadOnce.snoc {data beyond : Bytes} (readOnce : ReadOnce history sessionId data beyond)
    (idle : NotReading state action sessionId) :
    ReadOnce (history ++ [(state, action)]) sessionId data beyond where
  read := idle.firstRead_snoc.mpr readOnce.read
  once other otherBeyond read := readOnce.once other otherBeyond (idle.firstRead_snoc.mp read)

theorem Parsed.snoc {detection : Detection} (parsed : Parsed history sessionId detection)
    (idle : NotReading state action sessionId) : Parsed (history ++ [(state, action)]) sessionId detection := by
  obtain ⟨data, beyond, readOnce, detected⟩ := parsed
  exact ⟨data, beyond, readOnce.snoc idle, detected⟩

theorem Detected.snoc {session : Session} (detected : Detected history session)
    (idle : NotReading state action session.sessionId) : Detected (history ++ [(state, action)]) session := by
  obtain ⟨detection, parsed, fields⟩ := detected
  exact ⟨detection, parsed.snoc idle, fields⟩

theorem Admitted.snoc {session : Session} (admitted : Admitted settings history session) :
    Admitted settings (history ++ [(state, action)]) session := by
  obtain ⟨earlier, localTime, now, registered, rest, before, member, handled⟩ := admitted
  exact ⟨earlier, localTime, now, registered, rest, before, List.mem_append_left _ member, handled⟩

theorem Connects.snoc {session : Session} {pc : Pc} (connects : Connects settings history session pc)
    (idle : NotReading state action session.sessionId) :
    Connects settings (history ++ [(state, action)]) session pc :=
  ⟨connects.detected.snoc idle, connects.admitted.snoc, connects.sameHost⟩

theorem Pc.Holds.snoc {session : Session} {pc : Pc} (holds : pc.Holds settings history session)
    (idle : NotReading state action session.sessionId) :
    pc.Holds settings (history ++ [(state, action)]) session := by
  cases pc with
  | detectorEnter => exact Unread.snoc holds idle
  | read clientFd => exact Unread.snoc holds idle
  | setHost detection => exact Parsed.snoc holds idle
  | setPort detection => exact ⟨holds.1.snoc idle, holds.2⟩
  | setRequest detection => exact ⟨holds.1.snoc idle, holds.2⟩
  | setTransparent detection => exact ⟨holds.1.snoc idle, holds.2⟩
  | detectReply success =>
    cases success with
    | true => exact Detected.snoc holds idle
    | false => trivial
  | clearCache => trivial
  | _ => exact Connects.snoc holds idle

theorem Holder.Holds.snoc {session : Session} {holder : Holder}
    (holds : holder.Holds settings history session) (idle : NotReading state action session.sessionId) :
    holder.Holds settings (history ++ [(state, action)]) session := by
  cases holder with
  | task task =>
    cases task with
    | asyncDetector sessionId => exact Unread.snoc holds idle
    | asyncConnector sessionId => exact Connects.snoc holds idle
  | worker worker => exact Pc.Holds.snoc holds idle
  | message message =>
    cases message with
    | hostDetectResult sessionId success =>
      cases success with
      | true => exact Detected.snoc holds idle
      | false => trivial
    | hostConnectResult sessionId proxyFd success => trivial
  | socket socket => trivial

end Longer

/-! ## One step -/

namespace State

variable {state next : State} {settings : Settings} {history : History} {holder : Holder} {action : Action}

/-- Only the holder of a session reads for it. -/
theorem notReading_of_holder (sound : state.ledger.Sound) (member : holder ∈ state.holders)
    (notReader : ∀ clientFd, holder ≠ .worker ⟨holder.sessionId, .read clientFd⟩) (action : Action) :
    NotReading state action holder.sessionId := by
  intro index data beyond clientFd _ at_
  have reader : .worker ⟨holder.sessionId, .read clientFd⟩ ∈ state.holders :=
    mem_holders.mpr ⟨List.mem_of_getElem? at_, rfl⟩
  exact notReader clientFd (holder_unique sound member reader rfl)

/-- A detector that is still about to read has not just read. -/
theorem notReading_of_kept (sound : state.ledger.Sound) (nextSound : next.ledger.Sound)
    (stepped : state.step settings action = some next) (older : holder ∈ state.holders)
    (member : holder ∈ next.holders) : NotReading state action holder.sessionId := by
  intro index data beyond clientFd isRead at_
  have reader : .worker ⟨holder.sessionId, .read clientFd⟩ ∈ state.holders :=
    mem_holders.mpr ⟨List.mem_of_getElem? at_, rfl⟩
  have isReader := holder_unique sound older reader rfl
  have inside := (List.getElem?_eq_some_iff.mp at_).1
  have elsewhere : ∀ pc : Pc, pc ≠ .clearCache → pc ≠ .read clientFd →
      { state with workers := state.workers.set index ⟨holder.sessionId, pc⟩ } ≠ next := by
    intro pc owing different moved
    have isNew : .worker ⟨holder.sessionId, pc⟩ ∈ next.holders := by
      rw [← moved]
      exact mem_holders.mpr ⟨List.mem_set inside _, by simpa [Worker.replied] using owing⟩
    have same := holder_unique nextSound isNew member rfl
    rw [isReader] at same
    simp only [Holder.worker.injEq, Worker.mk.injEq] at same
    exact different same.2
  subst isRead
  cases detected : asyncDetector (.data data) beyond with
  | none =>
    simp only [step, work, at_, Worker.step, detected, Option.some.injEq] at stepped
    exact elsewhere _ (by simp) (by simp) stepped
  | some detection =>
    simp only [step, work, at_, Worker.step, detected, Option.some.injEq] at stepped
    exact elsewhere _ (by simp) (by simp) stepped

theorem nextId_le (sound : state.ledger.Sound) (registers : Registers state action)
    (stepped : state.step settings action = some next) :
    state.sessions.sessionId ≤ next.sessions.sessionId :=
  Ledger.steps_nextId_le (step_ledger sound registers stepped)

/-- The next session has not been read for. -/
theorem notReading_next (sound : state.ledger.Sound) (action : Action) {sessionId : Nat}
    (fresh : state.sessions.sessionId ≤ sessionId) : NotReading state action sessionId := by
  intro index data beyond clientFd _ at_
  have reader : .worker ⟨sessionId, .read clientFd⟩ ∈ state.holders :=
    mem_holders.mpr ⟨List.mem_of_getElem? at_, rfl⟩
  obtain ⟨session, found⟩ := exists_session sound reader
  have bound := lt_of_getSession sound found
  exact absurd bound (Nat.not_lt.mpr fresh)

/-! ## Every run -/

structure Provenance (settings : Settings) (history : History) (state : State) : Prop where
  fresh : ∀ sessionId, state.sessions.sessionId ≤ sessionId → Unread history sessionId
  holds : ∀ holder ∈ state.holders, ∀ session, state.getSession holder.sessionId = some session →
    holder.Holds settings history session

theorem notReading_of_pc {index : Nat} {worker : Worker} (at_ : state.workers[index]? = some worker)
    (notReader : ∀ clientFd, worker.pc ≠ .read clientFd) (input : Input) (sessionId : Nat) :
    NotReading state (.work index input) sessionId := by
  intro other data beyond clientFd isRead otherAt
  obtain ⟨rfl, -⟩ := Action.work.inj isRead
  rw [at_] at otherAt
  cases otherAt
  exact notReader clientFd rfl

theorem parsed_of_read {index : Nat} {sessionId : Nat} {clientFd : Fd}
    (at_ : state.workers[index]? = some ⟨sessionId, .read clientFd⟩) (unread : Unread history sessionId)
    {result : ReadResult} {beyond : Bytes} {detection : Detection}
    (parsed : asyncDetector result beyond = some detection) :
    Parsed (history ++ [(state, .work index (.read result beyond))]) sessionId detection := by
  cases result with
  | data data =>
    refine ⟨data, beyond, ⟨?_, ?_⟩, parsed⟩
    · exact firstRead_snoc.mpr (.inr ⟨index, clientFd, rfl, at_⟩)
    · intro other otherBeyond read
      rcases firstRead_snoc.mp read with older | ⟨_, _, isRead, _⟩
      · exact absurd older (unread other otherBeyond)
      · simp only [Action.work.injEq, Input.read.injEq, ReadResult.data.injEq] at isRead
        exact ⟨isRead.2.1.symm, isRead.2.2.symm⟩
  | endOfStream => cases parsed
  | error errno => cases parsed

/-- The session after a store through the worker's pointer. -/
theorem stored {sessionId : Nat} {before session : Session} {change : Session → Session}
    (foundBefore : state.getSession sessionId = some before)
    (found : (state.updateSession sessionId change).getSession sessionId = some session)
    (unchanged : ∀ x, (change x).key = x.key) : session = change before := by
  rw [getSession_update_key unchanged foundBefore] at found
  exact (Option.some.inj found).symm

/-- The step of a worker that goes on. -/
theorem worked_holds {index : Nat} {input : Input} {worker : Worker} {shared : State} {pc : Pc}
    (at_ : state.workers[index]? = some worker)
    (stepped : worker.step input state = some (shared, some pc)) {before session : Session}
    (holds : worker.pc.Holds settings history before)
    (foundBefore : state.getSession worker.sessionId = some before)
    (found : shared.getSession worker.sessionId = some session) :
    pc.Holds settings (history ++ [(state, .work index input)]) session := by
  have steps := Worker.steps_of_step stepped
  have named := SessionManager.getSession_sessionId foundBefore
  obtain ⟨sessionId, was⟩ := worker
  have same : shared.getSession sessionId = state.getSession sessionId → session = before := by
    intro unchanged
    rw [unchanged, foundBefore] at found
    exact (Option.some.inj found).symm
  by_cases isReader : ∃ clientFd, was = .read clientFd
  · obtain ⟨clientFd, rfl⟩ := isReader
    cases steps with
    | detected parsed =>
      rw [same rfl]
      change Unread history before.sessionId at holds
      change Parsed _ before.sessionId _
      rw [named] at holds ⊢
      exact parsed_of_read at_ holds parsed
    | undetected => trivial
  · have idle := notReading_of_pc at_ (fun clientFd isRead => isReader ⟨clientFd, isRead⟩) input
      before.sessionId
    have kept := holds.snoc idle
    cases steps with
    | detectorEnter _ =>
      rw [same rfl]
      exact kept
    | detected _ => exact absurd ⟨_, rfl⟩ isReader
    | undetected => exact absurd ⟨_, rfl⟩ isReader
    | setHost =>
      rw [stored foundBefore found (fun _ => rfl)]
      exact ⟨kept, rfl⟩
    | setPort =>
      rw [stored foundBefore found (fun _ => rfl)]
      exact ⟨kept.1, kept.2, rfl⟩
    | setRequest =>
      rw [stored foundBefore found (fun _ => rfl)]
      exact ⟨kept.1, kept.2.1, kept.2.2, rfl⟩
    | setTransparent =>
      rw [stored foundBefore found (fun _ => rfl)]
      exact ⟨_, kept.1, kept.2.1, kept.2.2.1, kept.2.2.2, rfl⟩
    | connectorEnter again =>
      rw [same rfl]
      rw [foundBefore] at again
      cases again
      exact ⟨kept.detected, kept.admitted, by simp [Pc.hosts]⟩
    | cached =>
      rw [same rfl]
      refine ⟨kept.detected, kept.admitted, ?_⟩
      intro url member
      obtain ⟨entry, isResult, rfl⟩ := List.mem_map.mp member
      rw [(HostInfoCache.getCachedResults_found isResult).2.1]
      exact kept.sameHost _ (List.mem_singleton_self _)
    | uncached =>
      rw [same rfl]
      exact ⟨kept.detected, kept.admitted, kept.sameHost⟩
    | resolved url =>
      rw [same rfl]
      refine ⟨kept.detected, kept.admitted, ?_⟩
      intro host member
      rw [List.mem_singleton.mp member, url]
      exact kept.sameHost _ (List.mem_singleton_self _)
    | unresolved =>
      rw [same rfl]
      exact ⟨kept.detected, kept.admitted, by simp [Pc.hosts]⟩
    | store =>
      rw [same rfl]
      exact ⟨kept.detected, kept.admitted, kept.sameHost⟩
    | socket _ =>
      rw [same rfl]
      exact ⟨kept.detected, kept.admitted, kept.sameHost⟩
    | noSocket =>
      rw [same rfl]
      exact ⟨kept.detected, kept.admitted, by simp [Pc.hosts]⟩
    | exhausted =>
      rw [same rfl]
      exact ⟨kept.detected, kept.admitted, by simp [Pc.hosts]⟩
    | nextAddress =>
      rw [same rfl]
      exact ⟨kept.detected, kept.admitted, fun host member => kept.sameHost host (.tail _ member)⟩
    | connected _ =>
      rw [same rfl]
      exact ⟨kept.detected, kept.admitted, by simp [Pc.hosts]⟩
    | giveUp => trivial
    | resend =>
      rw [same rfl]
      exact ⟨kept.detected, kept.admitted, by simp [Pc.hosts]⟩
    | setOptions =>
      rw [same rfl]
      exact ⟨kept.detected, kept.admitted, by simp [Pc.hosts]⟩

/-- A worker that reports a detection has stored it. -/
theorem replied_holds {index : Nat} {input : Input} {worker : Worker} {shared : State}
    {after : Option Pc} {message : Message} (at_ : state.workers[index]? = some worker)
    (stepped : worker.step input state = some (shared, after)) (pipe : shared.pipe = state.pipe ++ [message])
    {session : Session} (holds : worker.pc.Holds settings history session) :
    (Holder.message message).Holds settings (history ++ [(state, .work index input)]) session := by
  cases message with
  | hostConnectResult sessionId proxyFd success => trivial
  | hostDetectResult sessionId success =>
    cases success with
    | false => trivial
    | true =>
      have steps := Worker.steps_of_step stepped
      obtain ⟨_, was⟩ := worker
      cases steps with
      | detectReply =>
        simp only [writeMessage, List.append_cancel_left_eq, List.cons.injEq,
          Message.hostDetectResult.injEq, and_true] at pipe
        obtain ⟨-, rfl⟩ := pipe
        exact Detected.snoc holds (notReading_of_pc at_ (by simp) _ _)
      | _ => simp [sendErrorResponse, sendResponse, writeMessage, updateSession] at pipe

/-- Naming the user of a session does not touch what the detector has stored. -/
theorem detected_setVerdictName {history : History} {session : Session} (detected : Detected history session)
    (verdict : SocketManager.Verdict) :
    Detected history (SocketManager.setVerdictName verdict session) := by
  unfold SocketManager.setVerdictName
  split
  · exact detected
  · exact detected

theorem initial_holders (serverFd commandFd : Fd) (openFds : List Fd) (now : UInt64) :
    (initial serverFd commandFd openFds now).holders = [] := rfl

theorem step_provenance (sound : state.ledger.Sound) (registers : Registers state action)
    (stepped : state.step settings action = some next) (provenance : Provenance settings history state) :
    Provenance settings (history ++ [(state, action)]) next := by
  have nextSound := Ledger.steps_sound (step_ledger sound registers stepped) sound
  constructor
  · intro sessionId fresh
    have older := Nat.le_trans (nextId_le sound registers stepped) fresh
    exact (provenance.fresh sessionId older).snoc (notReading_next sound action older)
  · intro holder member session found
    have named := SessionManager.getSession_sessionId found
    cases step_arrives sound registers stepped member with
    | kept older same =>
      rw [same] at found
      refine (provenance.holds holder older session found).snoc ?_
      rw [named]
      exact notReading_of_kept sound nextSound stepped older member
    | socket => trivial
    | accepted =>
      change Unread _ session.sessionId
      rw [named]
      exact (provenance.fresh _ (Nat.le_refl _)).snoc (notReading_next sound action (Nat.le_refl _))
    | admitted isCommand pipe foundBefore noRefusal verdict isNamed allowed =>
      rename_i sessionId rest localTime now registered before admitted
      change next.getSession sessionId = some session at found
      rw [isNamed] at found
      cases found
      have isMessage : .message (.hostDetectResult sessionId true) ∈ state.holders :=
        mem_holders.mpr (pipe ▸ List.mem_cons_self ..)
      have detected : Detected history before := provenance.holds _ isMessage before foundBefore
      have idle : NotReading state action session.sessionId := by
        rw [isCommand]
        exact fun _ _ _ _ isWork => nomatch isWork
      have sameId : session.sessionId = sessionId := named
      refine ⟨Detected.snoc ?_ idle, ?_, by simp [Pc.hosts]⟩
      · rw [verdict]
        exact detected_setVerdictName detected _
      · refine ⟨state, localTime, now, registered, rest, before, ?_, ?_, ?_, noRefusal, verdict, allowed⟩
        · simp [isCommand]
        · rw [pipe, sameId]
        · rw [sameId, foundBefore]
    | blocked => trivial
    | taken queue same =>
      rename_i task rest
      have taskId : (Holder.worker task.worker).sessionId = task.sessionId := by cases task <;> rfl
      rw [taskId] at found named
      rw [same] at found
      have isTask : .task task ∈ state.holders := mem_holders.mpr (queue ▸ List.mem_cons_self ..)
      have idle : NotReading state action session.sessionId := by
        rw [named]
        exact notReading_of_holder sound isTask (fun _ => by simp) action
      have holds := (provenance.holds _ isTask session found).snoc idle
      cases task with
      | asyncDetector sessionId => exact holds
      | asyncConnector sessionId => exact holds
    | worked isWork at_ owing stepped sessions =>
      rename_i index input worker shared pc
      have isWorker : .worker worker ∈ state.holders :=
        mem_holders.mpr ⟨List.mem_of_getElem? at_, owing⟩
      obtain ⟨before, foundBefore⟩ := exists_session sound isWorker
      have holds : worker.pc.Holds settings history before :=
        provenance.holds _ isWorker before foundBefore
      rw [getSession, sessions] at found
      rw [isWork]
      exact worked_holds at_ stepped holds foundBefore found
    | replied isWork at_ owing stepped addressed pipe same =>
      rename_i index input worker shared after message
      have isWorker : .worker worker ∈ state.holders :=
        mem_holders.mpr ⟨List.mem_of_getElem? at_, owing⟩
      change next.getSession message.sessionId = some session at found
      rw [same, addressed] at found
      have holds : worker.pc.Holds settings history session := provenance.holds _ isWorker session found
      rw [isWork]
      exact replied_holds at_ stepped pipe holds

theorem run_provenance (run : Run (proxySystem settings) Registers history state) :
    Provenance settings history state := by
  apply run.historyInvariant (Provenance settings)
  · rintro state ⟨serverFd, commandFd, openFds, now, -, -, -, rfl⟩
    constructor
    · rintro sessionId - data beyond ⟨_, _, _, member, _⟩
      cases member
    · intro holder member
      rw [initial_holders] at member
      cases member
  · exact fun history state action next earlier provenance registers stepped =>
      step_provenance (run_sound earlier) registers stepped provenance

end State

end NermalProxy
