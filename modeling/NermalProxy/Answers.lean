import NermalProxy.ArrayBounds
import NermalProxy.Decisions
import NermalProxy.Provenance
import NermalProxy.Pruning
import NermalProxy.SessionCalls

/-! # Every request is answered once

What the proxy itself writes about a session: a refusal or `200 OK` to the client, or the
client's request to the origin.  In every run each session gets at most one of these, one
that is refused is over, and nothing is relayed before. -/

namespace NermalProxy

open NermalProxy.CString NermalProxy.KeyedList NermalProxy.Config NermalProxy.SocketManager
  NermalProxy.Transition

inductive Answer where
  | toClient (clientFd : Fd) (response : Bytes)
  | toOrigin (sockFd : Fd) (request : Bytes)
  deriving DecidableEq, Repr

namespace Answer

def response? : Answer → Option (Fd × Bytes)
  | .toClient clientFd response => some (clientFd, response)
  | .toOrigin _ _ => none

def request? : Answer → Option (Fd × Bytes)
  | .toClient _ _ => none
  | .toOrigin sockFd request => some (sockFd, request)

/-- Every response but that to a `CONNECT` request. -/
def Refuses : Answer → Prop
  | .toClient _ response => response ≠ okResponse
  | .toOrigin _ _ => False

end Answer

/-- The refusal that a message leads to. -/
def Message.refusal (settings : Settings) (localTime : Option LocalTime) (session : Session) :
    Message → Option Bytes
  | .hostDetectResult _ false => some clientError
  | .hostDetectResult _ true => (authorize settings localTime session).refusal
  | .hostConnectResult _ _ false => some notFound
  | .hostConnectResult _ _ true => none

/-- What a connector that has connected writes: the request, as far as the origin accepts it, or the 200 as
it is handed to `::write`. -/
def Session.established (session : Session) (sockFd : Fd) (result : WriteResult) : Answer :=
  if session.transparent then .toOrigin sockFd (result.accepted session.request)
  else .toClient session.clientFd okResponse

theorem Session.established_accepts (session : Session) (sockFd : Fd) (result : WriteResult) :
    ¬ (session.established sockFd result).Refuses := by
  unfold Session.established
  split
  · exact id
  · exact fun refuses => refuses rfl

/-- Before the session of the holder is answered. -/
def Holder.Unanswered : Holder → Prop
  | .task _ => True
  | .worker ⟨_, .setOptions _⟩ | .worker ⟨_, .connectReply _⟩ => False
  | .worker _ => True
  | .message (.hostConnectResult _ _ true) => False
  | .message _ => True
  | .socket _ => False

/-- The origin's descriptor, once the session of the holder is answered with a connection. -/
def Holder.connected : Holder → Option Fd
  | .worker ⟨_, .setOptions sockFd⟩ | .worker ⟨_, .connectReply sockFd⟩ => some sockFd
  | .message (.hostConnectResult _ sockFd true) => some sockFd
  | .socket relay => some relay.peerFd
  | _ => none

theorem Holder.answered_iff {holder : Holder} :
    ¬ holder.Unanswered ↔ ∃ sockFd, holder.connected = some sockFd := by
  unfold Holder.Unanswered Holder.connected
  split <;> simp_all

namespace State

variable {state next : State} {settings : Settings} {history : History} {action : Action}

/-- What a step says about a session. -/
def answer (settings : Settings) (state : State) : Action → Option (Nat × Answer)
  | .command localTime _ _ =>
    match state.pipe with
    | [] => none
    | message :: _ =>
      match state.getSession message.sessionId with
      | none => none
      | some session =>
        (message.refusal settings localTime session).map
          (fun response => (message.sessionId, .toClient session.clientFd response))
  | .work index (.write result) =>
    match state.workers[index]? with
    | some ⟨sessionId, .resend sockFd⟩ =>
      match state.getSession sessionId with
      | none => none
      | some session => some (sessionId, session.established sockFd result)
    | _ => none
  | _ => none

/-- All answers of a run, oldest first. -/
def answers (settings : Settings) (history : History) : List (Nat × Answer) :=
  history.filterMap (fun entry => entry.1.answer settings entry.2)

theorem answers_snoc (settings : Settings) (history : History) (state : State) (action : Action) :
    answers settings (history ++ [(state, action)]) =
      answers settings history ++ (state.answer settings action).toList :=
  filterMap_snoc _ history (state, action)

/-! ## Which sessions end -/

theorem reject_ids {session : Session} {now : UInt64} {response : Bytes} :
    (reject settings now session response state).sessions.ids =
      state.sessions.ids.erase session.sessionId := endSession_ids ..

/-- The end of a pair ends its session. -/
theorem unlink_ids {socket : ClientSocket} {sockets : List Socket} {now : UInt64} :
    ((removeSocket socket.peerFd (destroy (.client socket) { state with sockets })).endSession settings now
      socket.sessionId).sessions.ids = state.sessions.ids.erase socket.sessionId := by
  obtain ⟨_, _, _, same⟩ :=
    removeSocket_frame socket.peerFd (destroy (.client socket) { state with sockets })
  rw [endSession_ids, same]
  rfl

/-- The session is still live, or it has relay sockets. -/
def LivesOrRelays (state next : State) (sessionId : Nat) : Prop :=
  sessionId ∈ next.sessions.ids ∨ ∃ socket, .client socket ∈ state.sockets ∧ socket.sessionId = sessionId

theorem livesOrRelays_same (same : next.sessions.ids = state.sessions.ids) :
    ∀ sessionId ∈ state.sessions.ids, LivesOrRelays state next sessionId :=
  fun _ live => .inl (same ▸ live)

theorem livesOrRelays_unlink {socket : ClientSocket} (member : .client socket ∈ state.sockets)
    (same : next.sessions.ids = state.sessions.ids.erase socket.sessionId) :
    ∀ sessionId ∈ state.sessions.ids, LivesOrRelays state next sessionId := by
  intro sessionId live
  by_cases isEnded : socket.sessionId = sessionId
  · exact .inr ⟨socket, member, isEnded⟩
  · left
    rw [same]
    exact (List.mem_erase_of_ne (Ne.symm isEnded)).mpr live

theorem livesOrRelays_evictions (sound : state.ledger.Sound)
    (evictions : Relation.ReflTransGen (Evicts settings) state next) :
    ∀ sessionId ∈ state.sessions.ids, LivesOrRelays state next sessionId := by
  intro sessionId live
  induction evictions with
  | refl => exact .inl live
  | tail earlier eviction inductionHypothesis =>
    rcases inductionHypothesis with stillLive | relays
    · obtain ⟨socket, now, first, rfl⟩ := evicts_unlink eviction
      rcases livesOrRelays_unlink (List.mem_of_find?_eq_some first) unlink_ids sessionId stillLive with
        lives | ⟨other, member, same⟩
      · exact .inl lives
      · exact .inr ⟨other, evictions_older sound earlier _ member, same⟩
    · exact .inr relays

/-! ## Who gives an answer -/

/-- A message that leads to a refusal, the connector that has connected, or nobody. -/
inductive Speaks (settings : Settings) (state next : State) (action : Action) :
    Option (Nat × Answer) → Prop
  | refusal {localTime : Option LocalTime} {now : UInt64} {registered : Bool × Bool} {message : Message}
      {rest : List Message} {session : Session} {response : Bytes}
      (isCommand : action = .command localTime now registered) (pipe : state.pipe = message :: rest)
      (found : state.getSession message.sessionId = some session)
      (refusal : message.refusal settings localTime session = some response)
      (ids : next.sessions.ids = state.sessions.ids.erase message.sessionId)
      (responses : next.responses = state.responses ++ [(session.clientFd, response)])
      (resent : next.resent = state.resent) :
      Speaks settings state next action (some (message.sessionId, .toClient session.clientFd response))
  | established {index sessionId : Nat} {result : WriteResult} {sockFd : Fd} {session : Session}
      (isWork : action = .work index (.write result))
      (at_ : state.workers[index]? = some ⟨sessionId, .resend sockFd⟩)
      (found : state.getSession sessionId = some session)
      (goesOn : .worker ⟨sessionId, .setOptions sockFd⟩ ∈ next.holders)
      (ids : next.sessions.ids = state.sessions.ids)
      (responses : next.responses =
        state.responses ++ (session.established sockFd result).response?.toList)
      (resent : next.resent = state.resent ++ (session.established sockFd result).request?.toList) :
      Speaks settings state next action (some (sessionId, session.established sockFd result))
  | silent (responses : next.responses = state.responses) (resent : next.resent = state.resent)
      (ends : ∀ sessionId ∈ state.sessions.ids, LivesOrRelays state next sessionId) :
      Speaks settings state next action none

/-- The step of a connector that has connected. -/
theorem step_resend {sessionId : Nat} {session : Session} (found : state.getSession sessionId = some session)
    (sockFd : Fd) (result : WriteResult) :
    Worker.step ⟨sessionId, .resend sockFd⟩ (.write result) state =
      some ({ state with
        responses := state.responses ++ (session.established sockFd result).response?.toList
        resent := state.resent ++ (session.established sockFd result).request?.toList },
        some (.setOptions sockFd)) := by
  cases toOrigin : session.transparent with
  | true =>
    simp [Worker.step, found, Session.established, toOrigin, State.resend, Answer.response?, Answer.request?]
  | false =>
    simp [Worker.step, found, Session.established, toOrigin, respond, Answer.response?, Answer.request?]

theorem command_speaks {localTime : Option LocalTime} {now : UInt64} {registered : Bool × Bool}
    (stepped : state.step settings (.command localTime now registered) = some next) :
    Speaks settings state next (.command localTime now registered)
      (state.answer settings (.command localTime now registered)) := by
  obtain ⟨message, rest, pipe, decides⟩ := decides_of_step stepped
  have named : ∀ verdict id, (State.updateSession { state with pipe := rest } id
      (setVerdictName verdict)).sessions.ids = state.sessions.ids :=
    fun verdict id => ids_updateSession (setVerdictName_key verdict)
  cases decides with
  | @undetected sessionId session found =>
    have same : session.sessionId = sessionId := SessionManager.getSession_sessionId found
    change state.getSession sessionId = some session at found
    simp only [answer, pipe, Message.sessionId, found, Message.refusal, Option.map_some]
    exact .refusal rfl pipe found rfl (same ▸ reject_ids) rfl rfl
  | @refused sessionId session response found refusal =>
    have same : session.sessionId = sessionId := SessionManager.getSession_sessionId found
    change state.getSession sessionId = some session at found
    simp only [answer, pipe, Message.sessionId, found, Message.refusal, refusal, Option.map_some]
    refine .refusal rfl pipe found refusal ?_ rfl rfl
    rw [reject_ids, named, same]
    rfl
  | @blocked sessionId session found noRefusal blocked =>
    change state.getSession sessionId = some session at found
    simp only [answer, pipe, Message.sessionId, found, Message.refusal, noRefusal, Option.map_none]
    exact .silent rfl rfl (livesOrRelays_same (named _ _))
  | @admitted sessionId session found noRefusal allowed =>
    change state.getSession sessionId = some session at found
    simp only [answer, pipe, Message.sessionId, found, Message.refusal, noRefusal, Option.map_none]
    exact .silent rfl rfl (livesOrRelays_same (named _ _))
  | @unconnected sessionId proxyFd session found =>
    have same : session.sessionId = sessionId := SessionManager.getSession_sessionId found
    change state.getSession sessionId = some session at found
    simp only [answer, pipe, Message.sessionId, found, Message.refusal, Option.map_some]
    exact .refusal rfl pipe found rfl (same ▸ reject_ids) rfl rfl
  | @connected sessionId proxyFd session found =>
    change state.getSession sessionId = some session at found
    simp only [answer, pipe, Message.sessionId, found, Message.refusal, Option.map_none]
    obtain ⟨_, _, _, same⟩ := addSockets_frame registered.1 registered.2
      (.client (.make session.clientFd proxyFd sessionId true))
      (.client (.make proxyFd session.clientFd sessionId false)) { state with pipe := rest }
    rw [same]
    exact .silent rfl rfl (livesOrRelays_same rfl)

theorem work_speaks {index : Nat} {input : Input} (stepped : state.step settings (.work index input) = some next) :
    Speaks settings state next (.work index input) (state.answer settings (.work index input)) := by
  obtain ⟨worker, shared, after, at_, worked, rfl⟩ := exists_of_work stepped
  have ids : ∀ workers, ({ shared with workers } : State).sessions.ids = state.sessions.ids := by
    intro workers
    have keys := congrArg (List.map Prod.fst) (step_frame worked).keys
    rwa [SessionManager.keys, SessionManager.keys, List.map_map, List.map_map] at keys
  obtain ⟨sessionId, pc⟩ := worker
  have steps := Worker.steps_of_step worked
  cases steps with
  | @resend sockFd result responses resent =>
    cases found : state.getSession sessionId with
    | none => simp [Worker.step, found] at worked
    | some session =>
      rw [step_resend found] at worked
      cases worked
      have inside : index < state.workers.length := (List.getElem?_eq_some_iff.mp at_).1
      simp only [answer, at_, found]
      exact .established rfl at_ found (mem_holders.mpr ⟨List.mem_set inside _, rfl⟩) rfl rfl rfl
  | _ => exact .silent rfl rfl (livesOrRelays_same (ids _))

/-- The responses and the resent requests grow by what the step says, and by nothing else. -/
theorem speaks_of_step (sound : state.ledger.Sound) (stepped : state.step settings action = some next) :
    Speaks settings state next action (state.answer settings action) := by
  cases action with
  | command localTime now registered => exact command_speaks stepped
  | work index input => exact work_speaks stepped
  | relay fd now memory reads writes =>
    cases steps_of_step stepped with
    | teardown search =>
      obtain rfl := Socket.socketFd_of_lookup search
      obtain ⟨_, _, _, _, _, same⟩ := @teardown_frame settings now _ state
      refine .silent (by rw [same]) (by rw [same]) ?_
      rw [teardown_eq search]
      exact livesOrRelays_unlink (mem_of_lookup search) unlink_ids
    | relayed search same found =>
      exact .silent rfl rfl (livesOrRelays_same (ids_updateSession (countBytes_key _ _ _)))
  | timeout now logTime =>
    cases steps_of_step stepped with
    | timeout evictions | logged evictions =>
      have ends := livesOrRelays_evictions sound evictions
      obtain ⟨_, _, _, _, _, rfl⟩ := evictions_frame evictions
      exact .silent rfl rfl ends
  | accept storage now clientFd clientIp =>
    cases steps_of_step stepped with
    | @accept _ _ _ _ sessions session unused created =>
      obtain ⟨rfl, -⟩ := Prod.mk.inj created
      refine .silent rfl rfl (fun sessionId live => .inl ?_)
      have ids : ∀ current : State, (current.updateSession session.sessionId
          (fun session => session.setClientAddress clientIp)).sessions.ids = current.sessions.ids :=
        fun current => ids_updateSession (fun _ => rfl)
      change sessionId ∈ (State.updateSession _ _ _).sessions.ids
      rw [ids]
      exact List.mem_map.mpr ((List.mem_map.mp live).imp fun _ found => ⟨List.mem_append_left _ found.1, found.2⟩)
  | take =>
    cases steps_of_step stepped with
    | take first => exact .silent rfl rfl (livesOrRelays_same rfl)

theorem speaks_writes {said : Option (Nat × Answer)} (speaks : Speaks settings state next action said) :
    next.responses = state.responses ++ said.toList.filterMap (fun entry => entry.2.response?) ∧
      next.resent = state.resent ++ said.toList.filterMap (fun entry => entry.2.request?) := by
  cases speaks with
  | refusal _ _ _ _ _ responses resent => simp [responses, resent, Answer.response?, Answer.request?]
  | established _ _ _ _ _ responses resent =>
    rw [responses, resent]
    constructor
    · cases found : (Session.established _ _ _).response? <;> simp [found]
    · cases found : (Session.established _ _ _).request? <;> simp [found]
  | silent responses resent => simp [responses, resent]

/-- A session ends in the step that answers it, or when it has relay sockets. -/
theorem speaks_ends {said : Option (Nat × Answer)} (speaks : Speaks settings state next action said)
    {sessionId : Nat} (live : sessionId ∈ state.sessions.ids) (gone : sessionId ∉ next.sessions.ids) :
    (∃ answer, said = some (sessionId, answer)) ∨
      ∃ socket, .client socket ∈ state.sockets ∧ socket.sessionId = sessionId := by
  cases speaks with
  | @refusal _ _ _ message _ session response isCommand pipe found refusal ids =>
    have same : sessionId = message.sessionId := by
      by_contra different
      rw [ids] at gone
      exact gone ((List.mem_erase_of_ne different).mpr live)
    exact .inl ⟨.toClient session.clientFd response, by rw [same]⟩
  | established isWork at_ found goesOn ids => exact absurd (ids ▸ live) gone
  | silent responses resent ends => exact .inr ((ends sessionId live).resolve_left gone)

/-! ## Who has been answered -/

theorem worker_holds {index : Nat} {worker : Worker} (at_ : state.workers[index]? = some worker)
    (owing : worker.replied = false) : .worker worker ∈ state.holders :=
  mem_holders.mpr ⟨List.mem_of_getElem? at_, owing⟩

theorem speaks_holder {entry : Nat × Answer} (speaks : Speaks settings state next action (some entry)) :
    ∃ holder ∈ state.holders, holder.Unanswered ∧ holder.sessionId = entry.1 := by
  cases speaks with
  | @refusal _ _ _ message _ session response isCommand pipe found refusal =>
    refine ⟨.message message, mem_holders.mpr (pipe ▸ List.mem_cons_self ..), ?_, rfl⟩
    cases message with
    | hostDetectResult sessionId success => trivial
    | hostConnectResult sessionId proxyFd success =>
      cases success with
      | false => trivial
      | true => cases refusal
  | @established _ sessionId _ sockFd _ isWork at_ =>
    exact ⟨.worker ⟨sessionId, .resend sockFd⟩, worker_holds at_ rfl, trivial, rfl⟩

/-- Who is still to be answered is another one. -/
theorem speaks_unanswered {entry : Nat × Answer} (nextSound : next.ledger.Sound)
    (distinct : state.sessions.ids.Nodup) (speaks : Speaks settings state next action (some entry))
    {holder : Holder} (member : holder ∈ next.holders) (unanswered : holder.Unanswered) :
    entry.1 ≠ holder.sessionId := by
  intro same
  cases speaks with
  | refusal isCommand pipe found refusal ids =>
    obtain ⟨session, live⟩ := exists_session nextSound member
    have listed : holder.sessionId ∈ next.sessions.ids := SessionManager.mem_ids_iff.mpr ⟨session, live⟩
    rw [ids, ← same] at listed
    exact distinct.not_mem_erase listed
  | established isWork at_ found goesOn =>
    have isConnector := holder_unique nextSound member goesOn same.symm
    rw [isConnector] at unanswered
    exact unanswered

/-- Where a message that a connection has failed comes from: it was there, the main thread has blocked
the host, or a worker has reported it. -/
inductive Fails (settings : Settings) (state : State) (action : Action) (next : State) (message : Message) :
    Prop
  | kept (member : .message message ∈ state.holders) : Fails settings state action next message
  | blocked {localTime : Option LocalTime} {now : UInt64} {registered : Bool × Bool} {rest : List Message}
      {before : Session} (isCommand : action = .command localTime now registered)
      (pipe : state.pipe = .hostDetectResult message.sessionId true :: rest)
      (found : state.getSession message.sessionId = some before)
      (noRefusal : (authorize settings localTime before).refusal = none)
      (named : next.getSession message.sessionId =
        some (setVerdictName (authorize settings localTime before) before))
      (blocked : isAllowed settings.blacklists settings.policies
        (setVerdictName (authorize settings localTime before) before).userName before.hostUrl = false) :
      Fails settings state action next message
  | replied {index : Nat} {input : Input} {worker : Worker} {shared : State} {after : Option Pc}
      (isWork : action = .work index input) (at_ : state.workers[index]? = some worker)
      (owing : worker.replied = false) (worked : worker.step input state = some (shared, after))
      (addressed : message.sessionId = worker.sessionId) (pipe : shared.pipe = state.pipe ++ [message])
      (same : next.sessions = state.sessions) : Fails settings state action next message

theorem step_fails (stepped : state.step settings action = some next) {message : Message}
    (member : .message message ∈ next.holders) : Fails settings state action next message := by
  have inPipe : message ∈ next.pipe := mem_holders.mp member
  have older : message ∈ state.pipe → Fails settings state action next message :=
    fun isOlder => .kept (mem_holders.mpr isOlder)
  cases action with
  | command localTime now registered =>
    obtain ⟨first, rest, pipe, decides⟩ := decides_of_step stepped
    have inRest : message ∈ rest → Fails settings state (.command localTime now registered) next message :=
      fun isOlder => older (pipe ▸ List.mem_cons_of_mem _ isOlder)
    cases decides with
    | @blocked sessionId session found noRefusal blocked =>
      rcases List.mem_append.mp inPipe with isOlder | isLast
      · exact inRest isOlder
      · obtain rfl := List.mem_singleton.mp isLast
        have named := getSession_update_key
          (setVerdictName_key (authorize settings localTime session)) found
        exact .blocked rfl pipe found noRefusal named blocked
    | connected found =>
      obtain ⟨_, _, _, same⟩ := addSockets_frame _ _ _ _ _
      rw [same] at inPipe
      exact inRest inPipe
    | _ => exact inRest inPipe
  | work index input =>
    obtain ⟨worker, shared, after, at_, worked, rfl⟩ := exists_of_work stepped
    cases step_handling worked with
    | @reply _ sent owing addressed held done pipe openFds =>
      change message ∈ shared.pipe at inPipe
      rw [pipe] at inPipe
      rcases List.mem_append.mp inPipe with isOlder | isLast
      · exact older isOlder
      · obtain rfl := List.mem_singleton.mp isLast
        have unchanged := sessions_of_done worked done
        exact .replied rfl at_ owing worked addressed pipe unchanged
    | move owing stillOwing held pipe openFds => exact older (pipe ▸ inPipe)
    | openSocket owing held unused pipe openFds => exact older (pipe ▸ inPipe)
    | leave settled held pipe openFds => exact older (pipe ▸ inPipe)
  | relay fd now memory reads writes =>
    cases steps_of_step stepped with
    | teardown search => exact older ((teardown_sheds _ _).pipe ▸ inPipe)
    | relayed search isAfter isSession => exact older inPipe
  | timeout now logTime =>
    cases steps_of_step stepped with
    | timeout evictions => exact older ((evictions_shed evictions).pipe ▸ inPipe)
    | logged evictions =>
      have pipe := (evictions_shed evictions).pipe
      exact older (pipe ▸ inPipe)
  | accept storage now clientFd clientIp =>
    cases steps_of_step stepped with
    | accept unused created => exact older inPipe
  | take =>
    cases steps_of_step stepped with
    | take first => exact older inPipe

theorem blocked_before {sessionId : Nat} (stepped : state.step settings action = some next)
    (member : .message (.hostConnectResult sessionId (-1) false) ∈ next.holders) :
    ∃ before ∈ state.holders, before.Unanswered ∧ before.sessionId = sessionId := by
  cases step_fails stepped member with
  | kept older => exact ⟨_, older, trivial, rfl⟩
  | blocked isCommand pipe =>
    exact ⟨.message (.hostDetectResult sessionId true), mem_holders.mpr (pipe ▸ List.mem_cons_self ..),
      trivial, rfl⟩
  | @replied index input worker shared after isWork at_ owing worked addressed pipe =>
    refine ⟨.worker worker, worker_holds at_ owing, ?_, addressed.symm⟩
    have steps := Worker.steps_of_step worked
    obtain ⟨named, pc⟩ := worker
    cases steps with
    | abort | giveUp => trivial
    | detectReply | connectReply => cases List.append_cancel_left pipe
    | _ => simp [updateSession] at pipe

/-- Whoever is still to be answered after a step was so before, or is a new client. -/
theorem unanswered_before (sound : state.ledger.Sound) (registers : Registers state action)
    (stepped : state.step settings action = some next) {holder : Holder} (member : holder ∈ next.holders)
    (unanswered : holder.Unanswered) :
    (∃ before ∈ state.holders, before.Unanswered ∧ before.sessionId = holder.sessionId) ∨
      holder.sessionId = state.sessions.sessionId := by
  cases step_arrives sound registers stepped member with
  | kept older same => exact .inl ⟨holder, older, unanswered, rfl⟩
  | socket => exact unanswered.elim
  | accepted => exact .inr rfl
  | @admitted sessionId _ _ _ _ _ _ isCommand pipe =>
    exact .inl ⟨.message (.hostDetectResult sessionId true), mem_holders.mpr (pipe ▸ List.mem_cons_self ..),
      trivial, rfl⟩
  | blocked => exact .inl (blocked_before stepped member)
  | @taken task rest queue same =>
    refine .inl ⟨.task task, mem_holders.mpr (queue ▸ List.mem_cons_self ..), trivial, ?_⟩
    cases task <;> rfl
  | @worked index input worker shared pc isWork at_ owing worked sessions =>
    refine .inl ⟨.worker worker, worker_holds at_ owing, ?_, rfl⟩
    have steps := Worker.steps_of_step worked
    obtain ⟨sessionId, was⟩ := worker
    cases steps with
    | resend | setOptions => exact unanswered.elim
    | _ => trivial
  | @replied index input worker shared after message isWork at_ owing worked addressed pipe same =>
    refine .inl ⟨.worker worker, worker_holds at_ owing, ?_, addressed.symm⟩
    have steps := Worker.steps_of_step worked
    obtain ⟨sessionId, was⟩ := worker
    cases steps with
    | resend => exact absurd pipe (by simp)
    | setOptions => exact absurd pipe (by simp)
    | connectReply =>
      cases List.append_cancel_left pipe
      exact unanswered.elim
    | _ => trivial

/-- Whoever has a connected descriptor had it before, or is the connector that answers the session. -/
theorem connected_before (sound : state.ledger.Sound) (registers : Registers state action)
    (stepped : state.step settings action = some next) {holder : Holder} (member : holder ∈ next.holders)
    {sockFd : Fd} (connected : holder.connected = some sockFd) :
    (∃ before ∈ state.holders, before.connected = some sockFd ∧ before.sessionId = holder.sessionId) ∨
      ∃ session result, state.getSession holder.sessionId = some session ∧
        state.answer settings action = some (holder.sessionId, session.established sockFd result) := by
  cases step_arrives sound registers stepped member with
  | kept older same => exact .inl ⟨holder, older, connected, rfl⟩
  | @socket socket =>
    left
    cases connected
    obtain ⟨isSocket, direction⟩ := mem_holders.mp member
    cases step_registers sound stepped isSocket with
    | @older earlier isEarlier same sameDirection =>
      have isHolder : .socket earlier ∈ state.holders :=
        mem_holders.mpr ⟨isEarlier, sameDirection.trans direction⟩
      have samePeer : earlier.peerFd = socket.peerFd := congrArg End.peerFd same
      exact ⟨_, isHolder, congrArg some samePeer, congrArg End.sessionId same⟩
    | @paired _ _ _ sessionId proxyFd _ session isCommand pipe found isEnd =>
      have isMessage : .message (.hostConnectResult sessionId proxyFd true) ∈ state.holders :=
        mem_holders.mpr (pipe ▸ List.mem_cons_self ..)
      rw [show socket.clientEnd = socket.link from if_pos direction] at isEnd
      have isPeer : socket.peerFd = proxyFd := congrArg End.peerFd isEnd
      exact ⟨_, isMessage, congrArg some isPeer.symm, (congrArg End.sessionId isEnd).symm⟩
  | accepted | admitted | blocked => cases connected
  | @taken task rest queue same => cases task <;> cases connected
  | @worked index input worker shared pc isWork at_ owing worked sessions =>
    have steps := Worker.steps_of_step worked
    obtain ⟨sessionId, was⟩ := worker
    cases steps with
    | @resend sockFd result =>
      right
      cases connected
      cases found : state.getSession sessionId with
      | none => simp [Worker.step, found] at worked
      | some session =>
        refine ⟨session, result, found, ?_⟩
        simp only [isWork, answer, at_, found]
        rfl
    | setOptions => exact .inl ⟨_, worker_holds at_ owing, connected, rfl⟩
    | _ => cases connected
  | @replied index input worker shared after message isWork at_ owing worked addressed pipe same =>
    have steps := Worker.steps_of_step worked
    obtain ⟨sessionId, was⟩ := worker
    cases steps with
    | connectReply =>
      cases List.append_cancel_left pipe
      exact .inl ⟨_, worker_holds at_ owing, connected, addressed.symm⟩
    | detectReply | abort | giveUp =>
      cases List.append_cancel_left pipe
      cases connected
    | _ => exact absurd pipe (by simp [updateSession])

/-- Whoever has a session behind its answer had it so before, or is the connector that answers it. -/
theorem answered_before (sound : state.ledger.Sound) (registers : Registers state action)
    (stepped : state.step settings action = some next) {holder : Holder} (member : holder ∈ next.holders)
    (answered : ¬ holder.Unanswered) :
    (∃ before ∈ state.holders, ¬ before.Unanswered ∧ before.sessionId = holder.sessionId) ∨
      ∃ answer, state.answer settings action = some (holder.sessionId, answer) ∧ ¬ answer.Refuses := by
  obtain ⟨sockFd, connected⟩ := Holder.answered_iff.mp answered
  rcases connected_before sound registers stepped member connected with
    ⟨before, isHolder, wasConnected, same⟩ | ⟨session, result, -, said⟩
  · exact .inl ⟨before, isHolder, Holder.answered_iff.mpr ⟨sockFd, wasConnected⟩, same⟩
  · exact .inr ⟨_, said, session.established_accepts sockFd result⟩

/-! ## Every run -/

theorem mem_answers_snoc {entry : Nat × Answer} :
    entry ∈ answers settings (history ++ [(state, action)]) ↔
      entry ∈ answers settings history ∨ state.answer settings action = some entry := by
  rw [answers_snoc, List.mem_append, Option.mem_toList]

/-- What holds of the answers that a run has given. -/
structure Answered (settings : Settings) (history : History) (state : State) : Prop where
  once : ((answers settings history).map Prod.fst).Nodup
  fresh : ∀ entry ∈ answers settings history, entry.1 < state.sessions.sessionId
  responses : state.responses = (answers settings history).filterMap (fun entry => entry.2.response?)
  resent : state.resent = (answers settings history).filterMap (fun entry => entry.2.request?)
  unanswered : ∀ holder ∈ state.holders, holder.Unanswered →
    ∀ entry ∈ answers settings history, entry.1 ≠ holder.sessionId
  answered : ∀ holder ∈ state.holders, ¬ holder.Unanswered →
    ∃ answer, (holder.sessionId, answer) ∈ answers settings history ∧ ¬ answer.Refuses
  refusedEnded : ∀ entry ∈ answers settings history, entry.2.Refuses → entry.1 ∉ state.sessions.ids
  ended : ∀ sessionId < state.sessions.sessionId, sessionId ∈ state.sessions.ids ∨
    ∃ answer, (sessionId, answer) ∈ answers settings history

/-- A step answers a session that has not been answered. -/
theorem Answered.fresh_entry (answered : Answered settings history state) (sound : state.ledger.Sound)
    {entry : Nat × Answer} (speaks : Speaks settings state next action (some entry)) :
    entry.1 < state.sessions.sessionId ∧ ∀ other ∈ answers settings history, other.1 ≠ entry.1 := by
  obtain ⟨holder, member, unanswered, same⟩ := speaks_holder speaks
  obtain ⟨session, found⟩ := exists_session sound member
  rw [← same]
  exact ⟨lt_of_getSession sound found, answered.unanswered holder member unanswered⟩

/-- Ids are not used again. -/
theorem ids_older (sound : state.ledger.Sound) (registers : Registers state action)
    (stepped : state.step settings action = some next) {sessionId : Nat}
    (live : sessionId ∈ next.sessions.ids) :
    sessionId ∈ state.sessions.ids ∨ state.sessions.sessionId ≤ sessionId := by
  obtain ⟨session, member, rfl⟩ := List.mem_map.mp live
  have key : session.key ∈ next.ledger.sessions := List.mem_map_of_mem member
  rcases Ledger.steps_sessions (step_ledger sound registers stepped) key with older | fresh
  · have inIds := Multiset.mem_map_of_mem Prod.fst older
    change session.sessionId ∈ state.ledger.ids at inIds
    rw [ids_coe] at inIds
    exact .inl inIds
  · exact .inr fresh

theorem performs_nextId {before after : AuditState}
    (performs : AuditState.Performs SessionCall.IsQuiet before after) :
    after.sessions.sessionId = before.sessions.sessionId := by
  induction performs with
  | refl => rfl
  | tail _ call inductionHypothesis =>
    obtain ⟨call, quiet, rfl⟩ := call
    rw [← inductionHypothesis]
    cases call with
    | createSession storage clientFd now => exact quiet.elim
    | update sessionId setter => rfl
    | endSession sessionId now => simp [AuditState.call, SessionManager.endSession_list]
    | logAndReset now => rfl

/-- Only a new client is given an id. -/
theorem step_created (stepped : state.step settings action = some next) {sessionId : Nat}
    (given : sessionId < next.sessions.sessionId) :
    sessionId < state.sessions.sessionId ∨ sessionId ∈ next.sessions.ids := by
  have older : next.sessions.sessionId = state.sessions.sessionId →
      sessionId < state.sessions.sessionId ∨ sessionId ∈ next.sessions.ids := fun same => .inl (same ▸ given)
  cases step_calls stepped with
  | command quietly | timeout quietly | take quietly | work quietly | teardown _ _ quietly =>
    exact older (performs_nextId quietly)
  | relayed _ _ _ calls => exact older (congrArg (fun audit => audit.sessions.sessionId) calls)
  | @accepted storage now clientFd clientIp named calls =>
    have sessions : next.sessions = SessionManager.update
        (state.sessions.createSession storage clientFd now).1 named
          (fun session => session.setClientAddress clientIp) := congrArg AuditState.sessions calls
    have ids : next.sessions.ids = state.sessions.ids ++ [state.sessions.sessionId] := by
      have created : (state.sessions.createSession storage clientFd now).1.ids =
          state.sessions.ids ++ [state.sessions.sessionId] := by
        simp [SessionManager.createSession, SessionManager.ids, Session.make]
      rw [sessions, ← created]
      exact map_adjust (fun _ => rfl)
    have nextId : next.sessions.sessionId = state.sessions.sessionId + 1 := by
      rw [sessions]
      rfl
    rw [ids, List.mem_append, List.mem_singleton]
    omega

theorem step_answered (sound : state.ledger.Sound) (registers : Registers state action)
    (stepped : state.step settings action = some next) (answered : Answered settings history state) :
    Answered settings (history ++ [(state, action)]) next := by
  have nextSound := Ledger.steps_sound (step_ledger sound registers stepped) sound
  have grows : state.sessions.sessionId ≤ next.sessions.sessionId :=
    Ledger.steps_nextId_le (step_ledger sound registers stepped)
  have speaks := speaks_of_step sound stepped
  have now : ∀ {entry}, state.answer settings action = some entry →
      Speaks settings state next action (some entry) := fun same => same ▸ speaks
  have kept : ∀ {entry}, entry ∈ answers settings history →
      entry ∈ answers settings (history ++ [(state, action)]) := fun older => mem_answers_snoc.mpr (.inl older)
  constructor
  · rw [answers_snoc, List.map_append, List.nodup_append]
    refine ⟨answered.once, ?_, ?_⟩
    · cases state.answer settings action <;> simp
    · intro sessionId older sessionId' newer same
      obtain ⟨entry, member, rfl⟩ := List.mem_map.mp newer
      obtain ⟨other, otherIn, rfl⟩ := List.mem_map.mp older
      exact (answered.fresh_entry sound (now (Option.mem_toList.mp member))).2 other otherIn same
  · intro entry member
    rcases mem_answers_snoc.mp member with older | newer
    · exact (answered.fresh entry older).trans_le grows
    · exact (answered.fresh_entry sound (now newer)).1.trans_le grows
  · rw [answers_snoc, List.filterMap_append, ← answered.responses]
    exact (speaks_writes speaks).1
  · rw [answers_snoc, List.filterMap_append, ← answered.resent]
    exact (speaks_writes speaks).2
  · intro holder member unanswered entry entryIn
    rcases mem_answers_snoc.mp entryIn with older | newer
    · rcases unanswered_before sound registers stepped member unanswered with
        ⟨before, beforeIn, wasUnanswered, same⟩ | isNew
      · exact same ▸ answered.unanswered before beforeIn wasUnanswered entry older
      · exact isNew ▸ (answered.fresh entry older).ne
    · exact speaks_unanswered nextSound (ids_distinct sound) (now newer) member unanswered
  · intro holder member isAnswered
    rcases answered_before sound registers stepped member isAnswered with
      ⟨before, beforeIn, wasAnswered, same⟩ | ⟨answer, newer, accepts⟩
    · obtain ⟨answer, older, accepts⟩ := answered.answered before beforeIn wasAnswered
      exact ⟨answer, kept (same ▸ older), accepts⟩
    · exact ⟨answer, mem_answers_snoc.mpr (.inr newer), accepts⟩
  · intro entry member refuses live
    rcases mem_answers_snoc.mp member with older | newer
    · rcases ids_older sound registers stepped live with wasLive | fresh
      · exact answered.refusedEnded entry older refuses wasLive
      · exact absurd (answered.fresh entry older) (Nat.not_lt.mpr fresh)
    · cases now newer with
      | refusal _ _ _ _ ids =>
        rw [ids] at live
        exact (ids_distinct sound).not_mem_erase live
      | established => exact Session.established_accepts _ _ _ refuses
  · intro sessionId given
    by_cases live : sessionId ∈ next.sessions.ids
    · exact .inl live
    · right
      have was := (step_created stepped given).resolve_right live
      rcases answered.ended sessionId was with wasLive | ⟨answer, older⟩
      · rcases speaks_ends speaks wasLive live with ⟨answer, newer⟩ | ⟨socket, member, same⟩
        · exact ⟨answer, mem_answers_snoc.mpr (.inr newer)⟩
        · obtain ⟨client, isHolder, sameId⟩ := exists_socket_holder sound member
          obtain ⟨answer, older, -⟩ := answered.answered _ isHolder id
          have named : client.sessionId = sessionId := sameId.trans same
          exact ⟨answer, kept (named ▸ older)⟩
      · exact ⟨answer, kept older⟩

theorem run_answered (run : Run (proxySystem settings) Registers history state) :
    Answered settings history state := by
  apply run.historyInvariant (Answered settings)
  · rintro state ⟨serverFd, commandFd, openFds, now, -, -, -, rfl⟩
    have noAnswers : answers settings [] = [] := rfl
    constructor
    · simp [noAnswers]
    · simp [noAnswers]
    · rfl
    · rfl
    · simp [noAnswers]
    · intro holder member
      rw [initial_holders] at member
      cases member
    · simp [noAnswers]
    · intro sessionId given
      exact absurd given (Nat.not_lt_zero _)
  · exact fun history state action next earlier answered registers stepped =>
      step_answered (run_sound earlier) registers stepped answered

theorem refusal_mem {localTime : Option LocalTime} {session : Session} {message : Message} {response : Bytes}
    (refusal : message.refusal settings localTime session = some response) :
    response ∈ [clientError, forbidden, authenticationRequired, notFound] := by
  cases message with
  | hostDetectResult sessionId success =>
    cases success with
    | false =>
      cases refusal
      exact List.mem_cons_self ..
    | true =>
      simp only [Message.refusal, authorize, authorizeBasic, authorizeIp] at refusal
      grind
  | hostConnectResult sessionId proxyFd success =>
    cases success with
    | false =>
      cases refusal
      simp
    | true => cases refusal

/-- What the proxy writes to a client is one of five texts. -/
theorem response_mem {entry : Nat × Answer} (member : entry ∈ answers settings history) {clientFd : Fd}
    {response : Bytes} (toClient : entry.2 = .toClient clientFd response) :
    response ∈ [clientError, forbidden, authenticationRequired, notFound, okResponse] := by
  obtain ⟨⟨state, action⟩, -, said⟩ := List.mem_filterMap.mp member
  cases action with
  | command localTime now registered =>
    simp only [answer] at said
    split at said
    · cases said
    · split at said
      · cases said
      · obtain ⟨text, refusal, rfl⟩ := Option.map_eq_some_iff.mp said
        cases toClient
        exact List.mem_append_left [okResponse] (refusal_mem refusal)
  | work index input =>
    cases input with
    | write result =>
      simp only [answer] at said
      split at said
      · split at said
        · cases said
        · cases said
          simp only [Session.established] at toClient
          split at toClient
          · cases toClient
          · cases toClient
            simp
      · cases said
    | _ => cases said
  | _ => cases said

/-- In every faultless run each session is answered at most once, with what is written for it; one that is
refused is over, one that is over has been answered, and one that relays has not been refused. -/
theorem one_answer {logging : Logging}
    (run : Run (proxySystem settings) (Faultless settings logging) history state) :
    ((answers settings history).map Prod.fst).Nodup ∧
    state.responses = (answers settings history).filterMap (fun entry => entry.2.response?) ∧
    state.resent = (answers settings history).filterMap (fun entry => entry.2.request?) ∧
    (∀ sessionId clientFd response, (sessionId, .toClient clientFd response) ∈ answers settings history →
      response ∈ [clientError, forbidden, authenticationRequired, notFound, okResponse] ∧
        (response ≠ okResponse → state.getSession sessionId = none)) ∧
    (∀ sessionId < state.sessions.sessionId, state.getSession sessionId = none →
      ∃ answer, (sessionId, answer) ∈ answers settings history) ∧
    ∀ socket, .client socket ∈ state.sockets →
      ∃ answer, (socket.sessionId, answer) ∈ answers settings history ∧ ¬ answer.Refuses := by
  have registered := registers_of_faultless run
  have answered := run_answered registered
  have notLive : ∀ sessionId, sessionId ∉ state.sessions.ids ↔ state.getSession sessionId = none := by
    intro sessionId
    rw [SessionManager.mem_ids_iff, ← Option.isSome_iff_exists, ← Option.isNone_iff_eq_none]
    simp [getSession]
  refine ⟨answered.once, answered.responses, answered.resent, ?_, ?_, ?_⟩
  · intro sessionId clientFd response member
    refine ⟨response_mem member rfl, fun refuses => ?_⟩
    exact (notLive sessionId).mp (answered.refusedEnded _ member refuses)
  · intro sessionId given gone
    exact (answered.ended sessionId given).resolve_left ((notLive sessionId).mpr gone)
  · intro socket member
    obtain ⟨client, isHolder, same⟩ := exists_socket_holder (run_sound registered) member
    obtain ⟨answer, given, accepts⟩ := answered.answered _ isHolder id
    exact ⟨answer, same ▸ given, accepts⟩

/-- A client whose connection is refused by the origin gets the 404 and nothing else. -/
theorem one_answer_refuse : ∃ (history : History) (state : State),
    state.responses = [(5, notFound)] ∧ state.getSession 0 = none ∧
    ((answers unrestricted history).map Prod.fst).Nodup ∧
    ∃ answer, (0, answer) ∈ answers unrestricted history := by
  have executed : ∃ history state,
      runActions (State.step unrestricted) [] (initial 3 4 [3, 4] 0) refuse = some (history, state) ∧
      state.responses = [(5, notFound)] ∧ state.getSession 0 = none ∧ 0 < state.sessions.sessionId ∧
      ∀ entry ∈ history, InBounds unrestricted ⟨.debug, 10⟩ entry.1 entry.2 :=
    ⟨_, _, rfl, by decide, by decide, by decide, by decide⟩
  obtain ⟨history, state, executed, responses, gone, given, inBounds⟩ := executed
  have run := run_faultless (run_of_executed registers_refuse executed) inBounds
  obtain ⟨once, -, -, -, ended, -⟩ := one_answer run
  exact ⟨history, state, responses, gone, once, ended 0 given gone⟩

end State
end NermalProxy
