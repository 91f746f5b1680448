import NermalProxy.Streams
import NermalProxy.Verdicts

/-! # What the two sides of a session are sent

Everything that a run writes for a session, in order: first its answer, then the bytes of its
relay events.  So each side gets what the proxy itself has to tell it and behind that the
stream of the other side, all on one descriptor. -/

namespace NermalProxy

open NermalProxy.CString NermalProxy.KeyedList NermalProxy.Config NermalProxy.Detector
  NermalProxy.Transition NermalProxy.Relay

namespace Answer

/-- What an answer says in a direction: a response goes to the client, as far as its `::write` accepts it,
a request to the origin. -/
def opening (result : WriteResult) (isClientToProxy : Bool) : Answer → Bytes
  | .toClient _ response => if isClientToProxy then [] else result.accepted response
  | .toOrigin _ request => if isClientToProxy then request else []

/-- The answer is written to a descriptor of this pair. -/
def Reaches (pair : End) : Answer → Prop
  | .toClient clientFd _ => clientFd = pair.fd
  | .toOrigin sockFd _ => sockFd = pair.peerFd

end Answer

theorem Session.established_reaches (session : Session) (sockFd : Fd) (result : WriteResult)
    (sessionId : Nat) : (session.established sockFd result).Reaches ⟨sessionId, session.clientFd, sockFd⟩ := by
  unfold Session.established
  split <;> rfl

/-- The stored request is what the read has left in the buffer. -/
theorem Detector.asyncDetector_request {data beyond : Bytes} {detection : Detection}
    (parsed : asyncDetector (.data data) beyond = some detection) :
    detection.request = requestBuffer data beyond := by
  have nonempty : data ≠ [] := by
    rintro rfl
    simp [asyncDetector] at parsed
  rw [asyncDetector_data nonempty] at parsed
  exact detect_request parsed

namespace State

variable {state next : State} {settings : Settings} {history : History} {action : Action}
  {wrote : Nat → WriteResult}

/-- Bytes that are written to a descriptor for a session. -/
structure Writing where
  sessionId : Nat
  isClientToProxy : Bool
  fd : Fd
  data : Bytes
  deriving DecidableEq, Repr

namespace Writing

/-- The code does not look at what the one `::write` of a response returns: `wrote` gives it for each
session. -/
def ofAnswer (wrote : Nat → WriteResult) : Nat × Answer → Writing
  | (sessionId, .toClient clientFd response) =>
    ⟨sessionId, false, clientFd, (wrote sessionId).accepted response⟩
  | (sessionId, .toOrigin sockFd request) => ⟨sessionId, true, sockFd, request⟩

def ofMove (moved : Move) : Writing where
  sessionId := moved.pair.sessionId
  isClientToProxy := moved.isClientToProxy
  fd := if moved.isClientToProxy then moved.pair.peerFd else moved.pair.fd
  data := moved.transfer.sent

/-- The part of the bytes that goes this way for this session. -/
def part (sessionId : Nat) (isClientToProxy : Bool) (writing : Writing) : Bytes :=
  if writing.sessionId = sessionId ∧ writing.isClientToProxy = isClientToProxy then writing.data else []

theorem part_other {sessionId : Nat} {writing : Writing} (other : writing.sessionId ≠ sessionId)
    (isClientToProxy : Bool) : writing.part sessionId isClientToProxy = [] :=
  if_neg (fun own => other own.1)

@[simp] theorem ofAnswer_sessionId (wrote : Nat → WriteResult) (said : Nat × Answer) :
    (ofAnswer wrote said).sessionId = said.1 := by
  obtain ⟨sessionId, answer⟩ := said
  cases answer <;> rfl

theorem ofAnswer_part (wrote : Nat → WriteResult) (sessionId : Nat) (answer : Answer) (isClientToProxy : Bool) :
    (ofAnswer wrote (sessionId, answer)).part sessionId isClientToProxy =
      answer.opening (wrote sessionId) isClientToProxy := by
  cases answer <;> cases isClientToProxy <;> simp [ofAnswer, part, Answer.opening]

end Writing

/-- What a step writes: the main thread and the connectors answer, a relay event moves. -/
def writing (settings : Settings) (wrote : Nat → WriteResult) (entry : State × Action) : Option Writing :=
  ((entry.1.answer settings entry.2).map (Writing.ofAnswer wrote)).or ((move entry).map Writing.ofMove)

def writings (settings : Settings) (wrote : Nat → WriteResult) (history : History) : List Writing :=
  history.filterMap (writing settings wrote)

/-- All bytes of a session that have gone this way, in order. -/
def transcript (settings : Settings) (wrote : Nat → WriteResult) (sessionId : Nat) (isClientToProxy : Bool)
    (history : History) : Bytes :=
  (writings settings wrote history).flatMap (Writing.part sessionId isClientToProxy)

/-- What was read on one side of a session and what of it was sent on, over its relay events. -/
def delivered (sessionId : Nat) (isClientToProxy : Bool) (history : History) : Bytes :=
  (stream sessionId isClientToProxy history).flatMap Transfer.delivered

def relayed (sessionId : Nat) (isClientToProxy : Bool) (history : History) : Bytes :=
  (stream sessionId isClientToProxy history).flatMap Transfer.sent

/-- What the answers have said to one side of a session. -/
def openings (settings : Settings) (wrote : Nat → WriteResult) (sessionId : Nat) (isClientToProxy : Bool)
    (history : History) : Bytes :=
  (answers settings history).flatMap
    (fun said => (Writing.ofAnswer wrote said).part sessionId isClientToProxy)

/-! ## One more step -/

theorem answer_or_move (settings : Settings) (state : State) (action : Action) :
    state.answer settings action = none ∨ move (state, action) = none := by
  cases action with
  | relay => exact .inl rfl
  | _ => exact .inr rfl

section Snoc

variable {sessionId : Nat} {isClientToProxy : Bool} {entry : State × Action}

theorem flatMap_toList {α : Type} (bytesOf : α → Bytes) (shown : Option α) :
    shown.toList.flatMap bytesOf = (shown.map bytesOf).getD [] := by
  cases shown <;> simp

theorem transcript_snoc : transcript settings wrote sessionId isClientToProxy (history ++ [entry]) =
    transcript settings wrote sessionId isClientToProxy history ++
      ((writing settings wrote entry).map (Writing.part sessionId isClientToProxy)).getD [] := by
  rw [transcript, writings, filterMap_snoc, List.flatMap_append, flatMap_toList]
  rfl

theorem openings_snoc : openings settings wrote sessionId isClientToProxy (history ++ [(state, action)]) =
    openings settings wrote sessionId isClientToProxy history ++
      ((state.answer settings action).map
        (fun said => (Writing.ofAnswer wrote said).part sessionId isClientToProxy)).getD [] := by
  rw [openings, answers_snoc, List.flatMap_append, flatMap_toList]
  rfl

theorem relayed_snoc : relayed sessionId isClientToProxy (history ++ [entry]) =
    relayed sessionId isClientToProxy history ++
      ((move entry).map (fun moved => (Writing.ofMove moved).part sessionId isClientToProxy)).getD [] := by
  cases isMove : move entry with
  | none => simp [relayed, stream_snoc_other, isMove]
  | some moved =>
    by_cases own : moved.pair.sessionId = sessionId ∧ moved.isClientToProxy = isClientToProxy
    · obtain ⟨rfl, rfl⟩ := own
      simp [relayed, stream_snoc_own isMove, Writing.ofMove, Writing.part]
    · have other : ∀ last ∈ move entry,
          ¬ (last.pair.sessionId = sessionId ∧ last.isClientToProxy = isClientToProxy) := by
        simpa [isMove] using own
      simp [relayed, stream_snoc_other other, Writing.ofMove, Writing.part, own]

end Snoc

theorem relayed_nil {sessionId : Nat} (unmoved : ∀ moved ∈ moves history, moved.pair.sessionId ≠ sessionId)
    (isClientToProxy : Bool) : relayed sessionId isClientToProxy history = [] := by
  have nothing : stream sessionId isClientToProxy history = [] := by
    rw [stream, List.map_eq_nil_iff, List.filter_eq_nil_iff]
    intro moved member
    simp [unmoved moved member]
  rw [relayed, nothing]
  rfl

/-! ## The answer of a session -/

theorem Answered.unique (answered : Answered settings history state) {sessionId : Nat} {one other : Answer}
    (isOne : (sessionId, one) ∈ answers settings history)
    (isOther : (sessionId, other) ∈ answers settings history) : one = other :=
  (Prod.mk.inj (List.inj_on_of_nodup_map answered.once isOne isOther rfl)).2

theorem openings_unanswered {sessionId : Nat}
    (unanswered : ∀ answer, (sessionId, answer) ∉ answers settings history) (isClientToProxy : Bool) :
    openings settings wrote sessionId isClientToProxy history = [] := by
  rw [openings, List.flatMap_eq_nil_iff]
  rintro ⟨named, answer⟩ member
  refine Writing.part_other ?_ isClientToProxy
  rw [Writing.ofAnswer_sessionId]
  rintro rfl
  exact unanswered answer member

/-- The one answer of a session is all that was said to a side of it. -/
theorem openings_answered (answered : Answered settings history state) {sessionId : Nat} {answer : Answer}
    (member : (sessionId, answer) ∈ answers settings history) (isClientToProxy : Bool) :
    openings settings wrote sessionId isClientToProxy history =
      answer.opening (wrote sessionId) isClientToProxy := by
  obtain ⟨before, after, split⟩ := List.append_of_mem member
  have once := answered.once
  rw [split, List.map_append, List.map_cons, List.nodup_append, List.nodup_cons] at once
  obtain ⟨-, ⟨notAfter, -⟩, notBefore⟩ := once
  have silent : ∀ {entries : List (Nat × Answer)}, sessionId ∉ entries.map Prod.fst →
      entries.flatMap (fun said => (Writing.ofAnswer wrote said).part sessionId isClientToProxy) = [] := by
    intro entries absent
    rw [List.flatMap_eq_nil_iff]
    intro said isSaid
    refine Writing.part_other ?_ isClientToProxy
    rw [Writing.ofAnswer_sessionId]
    rintro rfl
    exact absent (List.mem_map_of_mem isSaid)
  rw [openings, split, List.flatMap_append, List.flatMap_cons, Writing.ofAnswer_part, silent notAfter,
    silent (fun inBefore => notBefore _ inBefore _ (List.mem_cons_self ..) rfl), List.append_nil,
    List.nil_append]

/-! ## One step -/

/-- The descriptor of a client is not changed. -/
theorem step_clientFd (sound : state.ledger.Sound) (registers : Registers state action)
    (stepped : state.step settings action = some next) {sessionId : Nat} {before session : Session}
    (foundBefore : state.getSession sessionId = some before) (found : next.getSession sessionId = some session) :
    session.clientFd = before.clientFd := by
  obtain rfl := SessionManager.getSession_sessionId found
  have key : session.key ∈ next.ledger.sessions := List.mem_map_of_mem (SessionManager.mem_of_getSession found)
  rcases Ledger.steps_sessions (step_ledger sound registers stepped) key with older | fresh
  · obtain ⟨again, isAgain, same⟩ := getSession_of_key sound older
    rw [foundBefore] at isAgain
    cases isAgain
    exact (congrArg Prod.snd same).symm
  · exact absurd (lt_of_getSession sound foundBefore) (Nat.not_lt.mpr fresh)

/-- What holds of the writes of a run. -/
structure Transcribed (settings : Settings) (history : History) (state : State) : Prop where
  moved : ∀ moved ∈ moves history, ∃ answer,
    (moved.pair.sessionId, answer) ∈ answers settings history ∧ ¬ answer.Refuses ∧ answer.Reaches moved.pair
  ordered : ∀ wrote sessionId isClientToProxy, transcript settings wrote sessionId isClientToProxy history =
    openings settings wrote sessionId isClientToProxy history ++ relayed sessionId isClientToProxy history
  connected : ∀ holder ∈ state.holders, ∀ sockFd, holder.connected = some sockFd →
    ∀ session, state.getSession holder.sessionId = some session →
      ∀ answer, (holder.sessionId, answer) ∈ answers settings history →
        answer.Reaches ⟨holder.sessionId, session.clientFd, sockFd⟩

/-- The pair of a relay socket is the one that its session was answered for. -/
theorem Transcribed.reaches (transcribed : Transcribed settings history state)
    (answered : Answered settings history state) (sound : state.ledger.Sound) {socket : ClientSocket}
    (member : .client socket ∈ state.sockets) : ∃ answer,
      (socket.clientEnd.sessionId, answer) ∈ answers settings history ∧ ¬ answer.Refuses ∧
        answer.Reaches socket.clientEnd := by
  obtain ⟨client, isHolder, isEnd⟩ := exists_client_end sound member
  obtain ⟨session, found, key⟩ := getSession_pair sound (clientEnd_mem sound member)
  obtain ⟨answer, given, accepts⟩ := answered.answered _ isHolder id
  have sameId : client.sessionId = socket.sessionId :=
    (congrArg End.sessionId isEnd).trans (clientEnd_sessionId socket)
  have foundClient : state.getSession client.sessionId = some session := sameId ▸ found
  have reaches := transcribed.connected _ isHolder client.peerFd rfl session foundClient answer given
  have isPair : End.mk client.sessionId session.clientFd client.peerFd = socket.clientEnd := by
    rw [show session.clientFd = socket.clientEnd.fd from congrArg Prod.snd key, ← isEnd]
    rfl
  rw [← isPair]
  exact ⟨answer, given, accepts, reaches⟩

/-- The answer comes before the first byte of a stream. -/
theorem ordered_step (transcribed : Transcribed settings history state)
    (answered : Answered settings history state) (sound : state.ledger.Sound)
    (stepped : state.step settings action = some next) (wrote : Nat → WriteResult) (sessionId : Nat)
    (isClientToProxy : Bool) :
    transcript settings wrote sessionId isClientToProxy (history ++ [(state, action)]) =
      openings settings wrote sessionId isClientToProxy (history ++ [(state, action)]) ++
        relayed sessionId isClientToProxy (history ++ [(state, action)]) := by
  rw [transcript_snoc, openings_snoc, relayed_snoc, transcribed.ordered]
  cases said : state.answer settings action with
  | none =>
    rw [writing, said]
    cases move (state, action) <;> simp
  | some entry =>
    have unmoved : move (state, action) = none := (answer_or_move settings state action).resolve_left (by simp [said])
    rw [writing, said, unmoved]
    by_cases own : entry.1 = sessionId
    · have speaks := speaks_of_step sound stepped
      rw [said] at speaks
      have fresh := (answered.fresh_entry sound speaks).2
      have nothing : relayed sessionId isClientToProxy history = [] := by
        refine relayed_nil (fun moved member sameId => ?_) isClientToProxy
        obtain ⟨answer, given, -⟩ := transcribed.moved moved member
        exact fresh _ given (sameId.trans own.symm)
      simp [nothing]
    · have others : (Writing.ofAnswer wrote entry).part sessionId isClientToProxy = [] :=
        Writing.part_other (by simpa using own) isClientToProxy
      simp [others]

/-- Who has a connected descriptor has it from the connector that answered the session. -/
theorem connected_reaches (transcribed : Transcribed settings history state)
    (answered : Answered settings history state) (sound : state.ledger.Sound)
    (registers : Registers state action) (stepped : state.step settings action = some next)
    {holder : Holder} (member : holder ∈ next.holders) {sockFd : Fd}
    (connected : holder.connected = some sockFd) {session : Session}
    (found : next.getSession holder.sessionId = some session) {answer : Answer}
    (given : (holder.sessionId, answer) ∈ answers settings (history ++ [(state, action)])) :
    answer.Reaches ⟨holder.sessionId, session.clientFd, sockFd⟩ := by
  have fresh : ∀ {entry : Nat × Answer}, state.answer settings action = some entry →
      ∀ other ∈ answers settings history, other.1 ≠ entry.1 := by
    intro entry said
    have speaks := speaks_of_step sound stepped
    rw [said] at speaks
    exact (answered.fresh_entry sound speaks).2
  rcases connected_before sound registers stepped member connected with
    ⟨before, isHolder, wasConnected, sameId⟩ | ⟨earlier, result, foundEarlier, said⟩
  · obtain ⟨earlier, foundEarlier⟩ := exists_session sound isHolder
    have sameFd := step_clientFd sound registers stepped foundEarlier (sameId ▸ found)
    rcases mem_answers_snoc.mp given with older | said
    · rw [← sameId] at older ⊢
      rw [sameFd]
      exact transcribed.connected before isHolder sockFd wasConnected earlier foundEarlier answer older
    · have isAnswered := Holder.answered_iff.mpr ⟨sockFd, wasConnected⟩
      obtain ⟨first, older, -⟩ := answered.answered before isHolder isAnswered
      exact absurd sameId (fresh said _ older)
  · have sameFd := step_clientFd sound registers stepped foundEarlier found
    rcases mem_answers_snoc.mp given with older | isSaid
    · exact (fresh said _ older rfl).elim
    · cases said.symm.trans isSaid
      rw [sameFd]
      exact earlier.established_reaches sockFd result holder.sessionId

theorem moves_pair {moved : Move} (isMove : move (state, action) = some moved) :
    ∃ socket, .client socket ∈ state.sockets ∧ moved.pair = socket.clientEnd := by
  cases action with
  | relay fd now memory reads writes =>
    simp only [move] at isMove
    split at isMove
    · rename_i socket search
      split at isMove
      · cases isMove
        exact ⟨socket, mem_of_lookup search, rfl⟩
      · cases isMove
    · cases isMove
  | _ => cases isMove

theorem step_transcribed (transcribed : Transcribed settings history state)
    (answered : Answered settings history state) (sound : state.ledger.Sound)
    (registers : Registers state action) (stepped : state.step settings action = some next) :
    Transcribed settings (history ++ [(state, action)]) next := by
  refine ⟨fun moved member => ?_, ordered_step transcribed answered sound stepped, ?_⟩
  · have kept : ∀ {answer}, (moved.pair.sessionId, answer) ∈ answers settings history →
        (moved.pair.sessionId, answer) ∈ answers settings (history ++ [(state, action)]) :=
      fun older => mem_answers_snoc.mpr (.inl older)
    rw [moves_snoc, List.mem_append, Option.mem_toList] at member
    rcases member with older | newer
    · obtain ⟨answer, given, evidence⟩ := transcribed.moved moved older
      exact ⟨answer, kept given, evidence⟩
    · obtain ⟨socket, isSocket, isPair⟩ := moves_pair newer
      obtain ⟨answer, given, evidence⟩ := transcribed.reaches answered sound isSocket
      rw [← isPair] at given evidence
      exact ⟨answer, kept given, evidence⟩
  · exact fun holder member sockFd connected session found answer given =>
      connected_reaches transcribed answered sound registers stepped member connected found given

/-! ## Every run -/

theorem run_transcribed (run : Run (proxySystem settings) Registers history state) :
    Transcribed settings history state := by
  apply run.historyInvariant (Transcribed settings)
  · rintro state ⟨serverFd, commandFd, openFds, now, -, -, -, rfl⟩
    refine ⟨fun moved member => absurd member List.not_mem_nil, fun _ _ _ => rfl, fun holder member => ?_⟩
    rw [initial_holders] at member
    cases member
  · exact fun history state action next earlier transcribed registers stepped =>
      step_transcribed transcribed (run_answered earlier) (run_sound earlier) registers stepped

theorem mem_writings {written : Writing} (member : written ∈ writings settings wrote history) :
    (∃ said ∈ answers settings history, written = .ofAnswer wrote said) ∨
      ∃ moved ∈ moves history, written = .ofMove moved := by
  obtain ⟨entry, inHistory, isWritten⟩ := List.mem_filterMap.mp member
  rw [writing] at isWritten
  cases said : entry.1.answer settings entry.2 with
  | some answer =>
    rw [said] at isWritten
    exact .inl ⟨answer, List.mem_filterMap.mpr ⟨entry, inHistory, said⟩, (Option.some.inj isWritten).symm⟩
  | none =>
    rw [said, Option.map_none, Option.none_or, Option.map_eq_some_iff] at isWritten
    obtain ⟨moved, isMove, same⟩ := isWritten
    exact .inr ⟨moved, List.mem_filterMap.mpr ⟨entry, inHistory, isMove⟩, same.symm⟩

/-- An answer and the moves of its session are written to the same descriptors. -/
theorem writings_reach {said : Nat × Answer} {moved : Move} (reaches : said.2.Reaches moved.pair)
    (same : (Writing.ofAnswer wrote said).isClientToProxy = (Writing.ofMove moved).isClientToProxy) :
    (Writing.ofAnswer wrote said).fd = (Writing.ofMove moved).fd := by
  obtain ⟨sessionId, answer⟩ := said
  cases answer with
  | toClient clientFd response =>
    have isSame : clientFd = moved.pair.fd := reaches
    have direction : false = moved.isClientToProxy := same
    simp [Writing.ofAnswer, Writing.ofMove, ← direction, isSame]
  | toOrigin sockFd request =>
    have isSame : sockFd = moved.pair.peerFd := reaches
    have direction : true = moved.isClientToProxy := same
    simp [Writing.ofAnswer, Writing.ofMove, ← direction, isSame]

/-- All that goes one way for a session goes to one descriptor. -/
theorem writings_fd (answered : Answered settings history state)
    (transcribed : Transcribed settings history state) (streams : Streams history state) {one other : Writing}
    (isOne : one ∈ writings settings wrote history) (isOther : other ∈ writings settings wrote history)
    (sameId : one.sessionId = other.sessionId) (sameWay : one.isClientToProxy = other.isClientToProxy) :
    one.fd = other.fd := by
  have across : ∀ {said moved}, said ∈ answers settings history → moved ∈ moves history →
      said.1 = moved.pair.sessionId → said.2.Reaches moved.pair := by
    intro said moved isSaid isMoved sameId
    obtain ⟨answer, given, -, reaches⟩ := transcribed.moved moved isMoved
    rw [← sameId] at given
    exact answered.unique given isSaid ▸ reaches
  rcases mem_writings isOne with ⟨said, isSaid, rfl⟩ | ⟨moved, isMoved, rfl⟩
  · rw [Writing.ofAnswer_sessionId] at sameId
    rcases mem_writings isOther with ⟨another, isAnother, rfl⟩ | ⟨moved, isMoved, rfl⟩
    · rw [Writing.ofAnswer_sessionId] at sameId
      rw [List.inj_on_of_nodup_map answered.once isSaid isAnother sameId]
    · exact writings_reach (across isSaid isMoved sameId) sameWay
  · rcases mem_writings isOther with ⟨said, isSaid, rfl⟩ | ⟨another, isAnother, rfl⟩
    · rw [Writing.ofAnswer_sessionId] at sameId
      exact (writings_reach (across isSaid isMoved sameId.symm) sameWay.symm).symm
    · have samePair : moved.pair = another.pair := streams.same _ isMoved _ isAnother sameId
      have sameDirection : moved.isClientToProxy = another.isClientToProxy := sameWay
      simp [Writing.ofMove, samePair, sameDirection]

/-- In every run inside the arrays without a failing `::read`, whatever the writes return: nothing is
written for a session before its answer; behind it each side has been sent what the answer says to it, as
far as its `::write` has accepted it, and then a prefix of what was read from the other side, all of it while
that socket is active and none of it behind a refusal; a request that is passed on is a prefix of what the
only first read has left in the buffer; and all that goes one way goes to one descriptor. -/
theorem transcripts {logging : Logging} (run : Run (proxySystem settings) ReadsSucceed history state)
    (_inBounds : ∀ entry ∈ history, InBounds settings logging entry.1 entry.2) (wrote : Nat → WriteResult)
    (sessionId : Nat) :
    ((∀ answer, (sessionId, answer) ∉ answers settings history) →
      ∀ isClientToProxy, transcript settings wrote sessionId isClientToProxy history = []) ∧
    (∀ answer, (sessionId, answer) ∈ answers settings history → ∀ isClientToProxy, ∃ sent,
      transcript settings wrote sessionId isClientToProxy history =
        answer.opening (wrote sessionId) isClientToProxy ++ sent ∧
      (answer.Refuses → sent = []) ∧ sent <+: delivered sessionId isClientToProxy history ∧
      ∀ socket, .client socket ∈ state.sockets → socket.sessionId = sessionId →
        socket.isClientToProxy = isClientToProxy → socket.isActive = true →
          sent = delivered sessionId isClientToProxy history) ∧
    (∀ sockFd request, (sessionId, .toOrigin sockFd request) ∈ answers settings history →
      ∃ data beyond, ReadOnce history sessionId data beyond ∧ request <+: requestBuffer data beyond) ∧
    ∀ one ∈ writings settings wrote history, ∀ other ∈ writings settings wrote history,
      one.sessionId = sessionId → other.sessionId = sessionId →
        one.isClientToProxy = other.isClientToProxy → one.fd = other.fd := by
  have registered := run.weaken (fun _ _ permitted => permitted.1)
  have answered := run_answered registered
  have transcribed := run_transcribed registered
  have streams := run_streams run
  have unmoved : (∀ answer, (sessionId, answer) ∈ answers settings history → answer.Refuses) →
      ∀ isClientToProxy, relayed sessionId isClientToProxy history = [] := by
    refine fun refused => relayed_nil (fun moved member sameId => ?_)
    obtain ⟨answer, given, accepts, -⟩ := transcribed.moved moved member
    exact accepts (refused answer (sameId ▸ given))
  refine ⟨fun unanswered isClientToProxy => ?_, fun answer given isClientToProxy => ?_,
    fun sockFd request given => ?_, fun one isOne other isOther ownOne ownOther sameWay => ?_⟩
  · rw [transcribed.ordered, openings_unanswered unanswered,
      unmoved (fun answer given => absurd given (unanswered answer))]
    rfl
  · refine ⟨relayed sessionId isClientToProxy history, ?_, fun refuses => ?_, ?_, ?_⟩
    · rw [transcribed.ordered, openings_answered answered given]
    · exact unmoved (fun other isOther => answered.unique given isOther ▸ refuses) isClientToProxy
    · exact (streams.intact (.make 0 0 sessionId isClientToProxy)).1
    · rintro socket member rfl rfl active
      exact (streams.settled socket member).complete active
  · obtain ⟨session, rfl, deserves⟩ := run_deserved registered _ given
    obtain ⟨-, linked, isPrefix⟩ := deserves_toOrigin deserves
    obtain ⟨detection, ⟨data, beyond, once, parsed⟩, -, -, sameRequest, -⟩ := linked.detected
    refine ⟨data, beyond, once, ?_⟩
    rwa [sameRequest, asyncDetector_request parsed] at isPrefix
  · exact writings_fd answered transcribed streams isOne isOther (ownOne.trans ownOther.symm) sameWay

/-- The tunnel of the first client: twelve bytes of its 200 that are accepted, and the two that it sends. -/
theorem transcripts_hi : ∃ history : History,
    transcript unrestricted (fun _ => .accepts 12) 0 false history = bytes "HTTP/1.0 200" ∧
    transcript unrestricted (fun _ => .accepts 12) 0 true history = bytes "hi" := by
  have executed : ∃ history state,
      runActions (State.step unrestricted) [] (initial 3 4 [3, 4] 0) (relayFirst ++ [sayHi]) =
        some (history, state) ∧ .client (.make 5 6 0 true) ∈ state.sockets ∧
      (0, .toClient 5 okResponse) ∈ answers unrestricted history ∧
      delivered 0 true history = bytes "hi" ∧ delivered 0 false history = [] ∧
      ∀ entry ∈ history, InBounds unrestricted ⟨.debug, 11⟩ entry.1 entry.2 :=
    ⟨_, _, rfl, by decide, by decide, by decide, by decide, by decide⟩
  obtain ⟨history, state, executed, member, answered, read, silent, inBounds⟩ := executed
  have run : Run (proxySystem unrestricted) ReadsSucceed history state :=
    run_of_runActions (.start initially) readsSucceed_sayHi executed
  have both := (transcripts run inBounds (fun _ => .accepts 12) 0).2.1 _ answered
  obtain ⟨toClient, isClient, -, ofOrigin, -⟩ := both false
  obtain ⟨toOrigin, isOrigin, -, -, whole⟩ := both true
  refine ⟨history, ?_, ?_⟩
  · rw [silent, List.prefix_nil] at ofOrigin
    rw [isClient, ofOrigin]
    rfl
  · rw [isOrigin, whole _ member rfl rfl rfl, read]
    rfl

end State

end NermalProxy
