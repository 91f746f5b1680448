import NermalProxy.Answers
import NermalProxy.Resolution

/-! # What a relayed pair connects

From its answer on, nothing of a session changes but the two counters.  So a pair of relay
sockets connects the client of an admitted session to an address of the very host that its
first read asked for. -/

namespace NermalProxy

open NermalProxy.CString NermalProxy.KeyedList NermalProxy.Config NermalProxy.HostInfoCache
  NermalProxy.SocketManager NermalProxy.Transition

/-- All of a session but the counters. -/
def Session.uncounted (session : Session) : Session :=
  { session with clientRxBytes := 0, clientTxBytes := 0 }

/-- In the run a connector of the session connected the descriptor to an address of its host. -/
def Dialled (history : History) (session : Session) (sockFd : Fd) : Prop :=
  ∃ earlier index connect address rest,
    (earlier, Action.work index (.network connect)) ∈ history ∧
    earlier.workers[index]? = some ⟨session.sessionId, .connect sockFd (address :: rest)⟩ ∧
    connect address session.port = .connected ∧ address.url = session.hostUrl ∧
    address.url ≠ sinkhole ∧ Known history session.sessionId address

/-- What may be relayed. -/
structure Linked (settings : Settings) (history : History) (session : Session) (sockFd : Fd) : Prop where
  detected : Detected history session
  admitted : Admitted settings history session
  dialled : Dialled history session sockFd

/-- The descriptor that the connector has connected. -/
def Pc.connected : Pc → Option Fd
  | .resend sockFd => some sockFd
  | .setOptions sockFd => some sockFd
  | .connectReply sockFd => some sockFd
  | _ => none

/-- What a holder that has a connected descriptor relies on. -/
def Holder.Links (settings : Settings) (history : History) (session : Session) : Holder → Prop
  | .worker ⟨_, pc⟩ => ∀ sockFd, pc.connected = some sockFd → Dialled history session sockFd
  | .message (.hostConnectResult _ sockFd true) => Linked settings history session sockFd
  | .socket relay => ∃ before, before.uncounted = session.uncounted ∧
      Linked settings history before relay.peerFd
  | _ => True

section Longer

variable {settings : Settings} {history : History} {session : Session} {sockFd : Fd}

theorem Dialled.snoc (dialled : Dialled history session sockFd) (last : State × Action) :
    Dialled (history ++ [last]) session sockFd := by
  obtain ⟨earlier, index, connect, address, rest, member, at_, connected, host, named, known⟩ := dialled
  exact ⟨earlier, index, connect, address, rest, List.mem_append_left _ member, at_, connected, host,
    named, known.snoc last⟩

theorem Linked.snoc (linked : Linked settings history session sockFd) {state : State} {action : Action}
    (idle : NotReading state action session.sessionId) :
    Linked settings (history ++ [(state, action)]) session sockFd :=
  ⟨linked.detected.snoc idle, linked.admitted.snoc, linked.dialled.snoc _⟩

theorem Holder.Links.snoc {holder : Holder} (links : holder.Links settings history session) {state : State}
    {action : Action} (idle : NotReading state action session.sessionId) :
    holder.Links settings (history ++ [(state, action)]) session := by
  cases holder with
  | task task => trivial
  | worker worker => exact fun sockFd connected => (links sockFd connected).snoc _
  | message message =>
    cases message with
    | hostDetectResult sessionId success => trivial
    | hostConnectResult sessionId proxyFd success =>
      cases success with
      | false => trivial
      | true => exact Linked.snoc links idle
  | socket socket =>
    obtain ⟨before, same, linked⟩ := links
    have sameId : before.uncounted.sessionId = session.uncounted.sessionId := by rw [same]
    exact ⟨before, same, linked.snoc (show NotReading state action before.sessionId from sameId ▸ idle)⟩

end Longer

namespace State

variable {state next : State} {settings : Settings} {history : History} {action : Action} {holder : Holder}

/-! ## A session behind its answer -/

theorem getSession_reject_other {session : Session} {now : UInt64} {response : Bytes} {sessionId other : Nat}
    {before : Session} (isNamed : state.getSession sessionId = some session) (different : other ≠ sessionId)
    {current : State} (same : current.getSession other = some before) :
    (reject settings now session response current).getSession other = some before := by
  rw [← SessionManager.getSession_sessionId isNamed] at different
  exact (getSession_endSession_other different now).trans same

theorem countBytes_uncounted (socket : ClientSocket) (numRead numWritten : Nat) (session : Session) :
    (countBytes socket numRead numWritten session).uncounted = session.uncounted := by
  unfold countBytes
  split <;> rfl

theorem accept_getSession (sound : state.ledger.Sound) {storage : SessionStorage} {now : UInt64}
    {clientFd : Fd} {clientIp : Bytes}
    (stepped : state.step settings (.accept storage now clientFd clientIp) = some next) {sessionId : Nat}
    {session : Session} (found : state.getSession sessionId = some session) :
    next.getSession sessionId = some session := by
  simp only [step] at stepped
  split at stepped
  · cases stepped
  · rename_i unused
    simp only [handleServerSocketRead, createSession_new sound unused, Option.some.injEq] at stepped
    have different : sessionId ≠ state.sessions.sessionId := (lt_of_getSession sound found).ne
    rw [← stepped]
    refine (getSession_updateSession_other (fun session => session.setClientAddress clientIp)
      (fun _ => rfl) different).trans ?_
    have inList : lookup Session.sessionId sessionId state.sessions.sessionList = some session := found
    change lookup _ _ (_ ++ _) = _
    rw [lookup_append, inList]
    rfl

/-- What a step may do to a session that is live before and after it. -/
inductive Rewrites (state : State) (before session : Session) : Prop
  | same (same : session = before) : Rewrites state before session
  | counted {socket : ClientSocket} {numRead numWritten : Nat} (member : .client socket ∈ state.sockets)
      (own : socket.sessionId = before.sessionId) (counted : session = countBytes socket numRead numWritten before) :
      Rewrites state before session
  | checked {rest : List Message} (pipe : state.pipe = .hostDetectResult before.sessionId true :: rest) :
      Rewrites state before session
  | stored {worker : Worker} (member : .worker worker ∈ state.holders)
      (own : worker.sessionId = before.sessionId) (unanswered : (Holder.worker worker).Unanswered) :
      Rewrites state before session

/-- The session of a rejection is gone. -/
theorem reject_ended {current : State} (distinct : current.sessions.ids.Nodup) (now : UInt64)
    (session : Session) (response : Bytes) :
    (reject settings now session response current).getSession session.sessionId = none := by
  have stillDistinct :
      ((current.respond session.clientFd response).close session.clientFd).sessions.ids.Nodup := distinct
  rw [reject, getSession_endSession_same stillDistinct]

theorem step_session (sound : state.ledger.Sound) (stepped : state.step settings action = some next)
    {sessionId : Nat} {before session : Session} (foundBefore : state.getSession sessionId = some before)
    (found : next.getSession sessionId = some session) : Rewrites state before session := by
  obtain rfl := SessionManager.getSession_sessionId foundBefore
  have distinct := ids_distinct sound
  have same : next.getSession before.sessionId = state.getSession before.sessionId →
      Rewrites state before session := by
    intro unchanged
    rw [unchanged, foundBefore] at found
    exact .same (Option.some.inj found).symm
  have sheds : Sheds state next → Rewrites state before session :=
    fun sheds => same (found.trans (sheds.live distinct _ _ found).symm)
  have rejects : ∀ {one : Session} {rejected : Nat} {now : UInt64} {response : Bytes} {current : State},
      current.sessions.ids.Nodup → state.getSession rejected = some one →
      next = reject settings now one response current →
      (before.sessionId ≠ rejected → current.getSession before.sessionId = state.getSession before.sessionId) →
      Rewrites state before session := by
    intro one rejected now response current stillDistinct isNamed isNext others
    have different : before.sessionId ≠ rejected := by
      intro isEnded
      rw [isNext, isEnded, ← SessionManager.getSession_sessionId isNamed, reject_ended stillDistinct] at found
      cases found
    refine same ?_
    rw [isNext, foundBefore]
    exact getSession_reject_other isNamed different ((others different).trans foundBefore)
  have worked : ∀ {index : Nat} {worker : Worker} {input : Input} {shared : State} {after : Option Pc},
      state.workers[index]? = some worker → worker.step input state = some (shared, after) →
      shared.getSession before.sessionId = state.getSession before.sessionId ∨
        Rewrites state before session := by
    intro index worker input shared after at_ worked
    by_cases own : worker.sessionId = before.sessionId
    · have steps := Worker.steps_of_step worked
      obtain ⟨named, pc⟩ := worker
      cases steps with
      | setHost | setPort | setRequest | setTransparent =>
        exact .inr (.stored (worker_holds at_ rfl) own trivial)
      | _ => exact .inl rfl
    · exact .inl (getSession_step_other worked (Ne.symm own))
  have checks : ∀ {named : Nat} {rest : List Message},
      state.pipe = .hostDetectResult named true :: rest →
      (before.sessionId ≠ named → Rewrites state before session) → Rewrites state before session := by
    intro named rest pipe others
    by_cases own : before.sessionId = named
    · exact .checked (own ▸ pipe)
    · exact others own
  cases steps_of_step stepped with
  | accept unused created => exact same ((accept_getSession sound stepped foundBefore).trans foundBefore.symm)
  | undetected pipe isNamed | unconnected pipe isNamed =>
    exact rejects (by exact distinct) isNamed rfl (fun _ => rfl)
  | refused pipe isNamed =>
    refine checks pipe (fun different => rejects ?_ isNamed rfl (fun _ => ?_))
    · rw [ids_updateSession (setVerdictName_key _)]
      exact distinct
    · exact getSession_updateSession_other _ (setVerdictName_key _) different
  | blocked pipe isNamed | admitted pipe isNamed =>
    exact checks pipe fun different =>
      same (getSession_updateSession_other _ (setVerdictName_key _) different)
  | connected pipe isNamed =>
    obtain ⟨_, _, _, frame⟩ := addSockets_frame _ _ _ _ _
    exact same (by rw [frame]; rfl)
  | teardown search => exact sheds (teardown_sheds _ _)
  | timeout evictions => exact sheds (evictions_shed evictions)
  | logged evictions =>
    have pruned := evictions_shed evictions
    exact sheds ⟨pruned.queue, pruned.workers, pruned.pipe, pruned.ids, pruned.live⟩
  | @relayed _ _ _ _ _ socket _ numRead numWritten _ search isAfter isSession =>
    by_cases own : socket.sessionId = before.sessionId
    · have counted := getSession_update_key (countBytes_key socket numRead numWritten) foundBefore
      rw [← own] at counted found
      exact .counted (mem_of_lookup search) own (Option.some.inj (found.symm.trans counted))
    · exact same (getSession_updateSession_other _ (countBytes_key _ _ _) (Ne.symm own))
  | take first => exact same rfl
  | moved at_ isStep | done at_ isStep =>
    rcases worked at_ isStep with unchanged | rewrites
    · exact same unchanged
    · exact rewrites

/-- From its answer on, only the counters of a session change. -/
theorem answered_uncounted (sound : state.ledger.Sound) (stepped : state.step settings action = some next)
    (member : holder ∈ state.holders) (answered : ¬ holder.Unanswered) {session : Session}
    (found : next.getSession holder.sessionId = some session) :
    ∃ before, state.getSession holder.sessionId = some before ∧
      session.uncounted = before.uncounted := by
  obtain ⟨before, foundBefore⟩ := exists_session sound member
  have named := SessionManager.getSession_sessionId foundBefore
  have apart : ∀ {other : Holder}, other ∈ state.holders → other.Unanswered →
      other.sessionId ≠ before.sessionId :=
    fun isOther unanswered sameId =>
      answered (holder_unique sound member isOther (sameId.trans named).symm ▸ unanswered)
  refine ⟨before, foundBefore, ?_⟩
  cases step_session sound stepped foundBefore found with
  | same same => rw [same]
  | counted isSocket own counted => rw [counted, countBytes_uncounted]
  | checked pipe =>
    have isMessage : .message (.hostDetectResult before.sessionId true) ∈ state.holders :=
      mem_holders.mpr (pipe ▸ List.mem_cons_self ..)
    exact absurd rfl (apart isMessage trivial)
  | stored isWorker own unanswered => exact absurd own (apart isWorker unanswered)

/-! ## One step -/

theorem dialled_of_step {sessionId index : Nat} {sockFd : Fd} {address : HostInfo} {rest : List HostInfo}
    {connect : HostInfo → UInt16 → ConnectResult} {session : Session}
    (at_ : state.workers[index]? = some ⟨sessionId, .connect sockFd (address :: rest)⟩)
    (stepped : Worker.step ⟨sessionId, .connect sockFd (address :: rest)⟩ (.network connect) state =
      some (next, some (.resend sockFd))) (found : state.getSession sessionId = some session)
    (sameHost : address.url = session.hostUrl) (known : Known history sessionId address) :
    Dialled (history ++ [(state, .work index (.network connect))]) session sockFd := by
  simp only [Worker.step, found] at stepped
  split at stepped
  · cases stepped
  · rename_i named
    split at stepped
    · rename_i connected
      obtain rfl := SessionManager.getSession_sessionId found
      exact ⟨state, index, connect, address, rest, by simp, at_, connected, sameHost, named, known.snoc _⟩
    · cases stepped

structure Endpoints (settings : Settings) (history : History) (state : State) : Prop where
  links : ∀ holder ∈ state.holders, ∀ session, state.getSession holder.sessionId = some session →
    holder.Links settings history session

/-- A worker that goes on, with a session that it does not write. -/
theorem worked_links (provenance : Provenance settings history state) (known : AddressesKnown history state)
    {index : Nat} {input : Input} {worker : Worker} {shared : State} {pc : Pc}
    (at_ : state.workers[index]? = some worker) (owing : worker.replied = false)
    (stepped : worker.step input state = some (shared, some pc)) {session : Session}
    (found : state.getSession worker.sessionId = some session)
    (links : (Holder.worker worker).Links settings history session) {sockFd : Fd}
    (connected : pc.connected = some sockFd) :
    Dialled (history ++ [(state, .work index input)]) session sockFd ∧ shared.sessions = state.sessions := by
  have isHolder := worker_holds at_ owing
  have holds := provenance.holds _ isHolder session found
  have steps := Worker.steps_of_step stepped
  obtain ⟨sessionId, was⟩ := worker
  cases steps with
  | @connected _ address rest connect _ isSession =>
    cases connected
    have sameHost : address.url = session.hostUrl := Connects.sameHost holds _ (List.mem_cons_self ..)
    have isKnown := known.workers _ (List.mem_of_getElem? at_) address (List.mem_cons_self ..)
    exact ⟨dialled_of_step at_ stepped found sameHost isKnown, rfl⟩
  | resend | setOptions => exact ⟨(links sockFd connected).snoc _, rfl⟩
  | _ => cases connected

/-- A worker that reports a connection. -/
theorem replied_links {index : Nat} {input : Input} {worker : Worker} {shared : State} {after : Option Pc}
    {message : Message} (at_ : state.workers[index]? = some worker)
    (stepped : worker.step input state = some (shared, after)) (pipe : shared.pipe = state.pipe ++ [message])
    {session : Session} (holds : worker.pc.Holds settings history session)
    (links : (Holder.worker worker).Links settings history session) :
    (Holder.message message).Links settings (history ++ [(state, .work index input)]) session := by
  cases message with
  | hostDetectResult sessionId success => trivial
  | hostConnectResult sessionId proxyFd success =>
    cases success with
    | false => trivial
    | true =>
      have steps := Worker.steps_of_step stepped
      obtain ⟨_, was⟩ := worker
      cases steps with
      | @connectReply sockFd =>
        cases List.append_cancel_left pipe
        have linked : Linked settings history session proxyFd :=
          ⟨Connects.detected holds, Connects.admitted holds, links proxyFd rfl⟩
        exact linked.snoc (notReading_of_pc at_ (by simp) _ _)
      | _ => simp [sendErrorResponse, sendResponse, writeMessage, updateSession] at pipe

theorem step_endpoints (sound : state.ledger.Sound) (registers : Registers state action)
    (stepped : state.step settings action = some next) (provenance : Provenance settings history state)
    (known : AddressesKnown history state) (endpoints : Endpoints settings history state) :
    Endpoints settings (history ++ [(state, action)]) next := by
  have nextSound := Ledger.steps_sound (step_ledger sound registers stepped) sound
  refine ⟨fun holder member session found => ?_⟩
  cases step_arrives sound registers stepped member with
  | kept older same =>
    have idle := notReading_of_kept sound nextSound stepped older member
    rw [← SessionManager.getSession_sessionId found] at idle
    exact (endpoints.links holder older session (same ▸ found)).snoc idle
  | accepted | admitted | blocked => trivial
  | @taken task rest queue same =>
    cases task <;> rintro sockFd ⟨⟩
  | @worked index input worker shared pc isWork at_ owing worked sessions =>
    intro sockFd connected
    obtain ⟨before, foundBefore⟩ := exists_session sound (worker_holds at_ owing)
    have links := endpoints.links _ (worker_holds at_ owing) before foundBefore
    obtain ⟨dialled, same⟩ := worked_links provenance known at_ owing worked foundBefore links connected
    have isBefore : session = before := by
      have unchanged : next.getSession worker.sessionId = some before := by
        rw [getSession, sessions, same]
        exact foundBefore
      exact Option.some.inj (found.symm.trans unchanged)
    rw [isWork, isBefore]
    exact dialled
  | @replied index input worker shared after message isWork at_ owing worked addressed pipe same =>
    change next.getSession message.sessionId = some session at found
    rw [same, addressed] at found
    have isHolder := worker_holds at_ owing
    have holds := provenance.holds _ isHolder session found
    have links := endpoints.links _ isHolder session found
    rw [isWork]
    exact replied_links at_ worked pipe holds links
  | @socket socket =>
    obtain ⟨isSocket, direction⟩ := mem_holders.mp member
    have socketEnd : socket.clientEnd = socket.link := if_pos direction
    cases step_registers sound stepped isSocket with
    | @older earlier isEarlier sameLink sameDirection =>
      have isHolder : .socket earlier ∈ state.holders :=
        mem_holders.mpr ⟨isEarlier, sameDirection.trans direction⟩
      have sameId : earlier.sessionId = socket.sessionId := congrArg End.sessionId sameLink
      have samePeer : earlier.peerFd = socket.peerFd := congrArg End.peerFd sameLink
      change next.getSession socket.sessionId = some session at found
      rw [← sameId] at found
      obtain ⟨before, foundBefore, counted⟩ := answered_uncounted sound stepped isHolder id found
      have idle := notReading_of_holder sound isHolder (fun _ => by simp) action
      rw [show (Holder.socket earlier).sessionId = before.sessionId from
        (SessionManager.getSession_sessionId foundBefore).symm] at idle
      have links := (endpoints.links _ isHolder before foundBefore).snoc idle
      obtain ⟨admitted, same, linked⟩ := links
      exact ⟨admitted, same.trans counted.symm, samePeer ▸ linked⟩
    | @paired _ _ _ sessionId proxyFd rest before isCommand pipe foundBefore isEnd =>
      have isHolder : .message (.hostConnectResult sessionId proxyFd true) ∈ state.holders :=
        mem_holders.mpr (pipe ▸ List.mem_cons_self ..)
      rw [socketEnd] at isEnd
      have sameId : socket.sessionId = sessionId := congrArg End.sessionId isEnd
      have isPeer : socket.peerFd = proxyFd := congrArg End.peerFd isEnd
      change next.getSession socket.sessionId = some session at found
      rw [sameId] at found
      obtain ⟨_, again, counted⟩ := answered_uncounted sound stepped isHolder id found
      cases foundBefore.symm.trans again
      have idle := notReading_of_holder sound isHolder (fun _ => by simp) action
      rw [show (Holder.message (.hostConnectResult sessionId proxyFd true)).sessionId = before.sessionId from
        (SessionManager.getSession_sessionId foundBefore).symm] at idle
      have links := (endpoints.links _ isHolder before foundBefore).snoc idle
      exact ⟨before, counted.symm, isPeer ▸ links⟩

/-! ## Every run -/

theorem run_endpoints (run : Run (proxySystem settings) Registers history state) :
    Endpoints settings history state := by
  have all : Provenance settings history state ∧ AddressesKnown history state ∧
      Endpoints settings history state := by
    apply run.historyInvariant (fun history state => Provenance settings history state ∧
      AddressesKnown history state ∧ Endpoints settings history state)
    · intro state initial
      have started : Run (proxySystem settings) Registers [] state := .start initial
      refine ⟨run_provenance started, run_addressesKnown started, ⟨?_⟩⟩
      obtain ⟨serverFd, commandFd, openFds, now, -, -, -, rfl⟩ := initial
      intro holder member
      rw [initial_holders] at member
      cases member
    · rintro history state action next earlier ⟨provenance, known, endpoints⟩ registers stepped
      have sound := run_sound earlier
      exact ⟨step_provenance sound registers stepped provenance, step_addressesKnown known stepped,
        step_endpoints sound registers stepped provenance known endpoints⟩
  exact all.2.2

/-- Every pair of relay sockets, by its client's one. -/
theorem exists_client_end (sound : state.ledger.Sound) {socket : ClientSocket}
    (member : .client socket ∈ state.sockets) :
    ∃ client, .socket client ∈ state.holders ∧ client.link = socket.clientEnd := by
  cases direction : socket.isClientToProxy with
  | true => exact ⟨socket, mem_holders.mpr ⟨member, direction⟩, (if_pos direction).symm⟩
  | false =>
    obtain ⟨peer, isPeer, mirror, opposite⟩ := exists_peer sound member
    refine ⟨peer, mem_holders.mpr ⟨isPeer, by simp [opposite, direction]⟩, ?_⟩
    rw [mirror, ClientSocket.clientEnd, direction]
    rfl

/-- The session of a registered relay socket, and what was linked for it. -/
theorem exists_linked (run : Run (proxySystem settings) Registers history state)
    {socket : ClientSocket} (member : .client socket ∈ state.sockets) :
    ∃ session admitted, state.getSession socket.sessionId = some session ∧
      admitted.uncounted = session.uncounted ∧ Linked settings history admitted socket.clientEnd.peerFd := by
  have sound := run_sound run
  obtain ⟨client, isHolder, isEnd⟩ := exists_client_end sound member
  have sameId : client.sessionId = socket.sessionId :=
    (congrArg End.sessionId isEnd).trans (clientEnd_sessionId socket)
  obtain ⟨session, found⟩ := exists_session sound isHolder
  obtain ⟨admitted, same, linked⟩ := (run_endpoints run).links _ isHolder session found
  have isPeer : client.peerFd = socket.clientEnd.peerFd := congrArg End.peerFd isEnd
  exact ⟨session, admitted, sameId ▸ found, same, isPeer ▸ linked⟩

/-- In every faultless run a registered relay socket belongs to a pair of a live session: one end is the client
of that session, and the other was connected by its connector to an address that the resolver had
given for exactly its host.  The session is as the client's first read and its admission left it,
but for the counters. -/
theorem relay_endpoints {logging : Logging}
    (run : Run (proxySystem settings) (Faultless settings logging) history state)
    {socket : ClientSocket} (member : .client socket ∈ state.sockets) :
    ∃ session admitted, state.getSession socket.sessionId = some session ∧
      socket.clientEnd.fd = session.clientFd ∧ admitted.uncounted = session.uncounted ∧
      Detected history admitted ∧ Admitted settings history admitted ∧
      Dialled history admitted socket.clientEnd.peerFd := by
  have registered := registers_of_faultless run
  have sound := run_sound registered
  obtain ⟨session, admitted, found, same, linked⟩ := exists_linked registered member
  obtain ⟨client, isHolder, isEnd⟩ := exists_client_end sound member
  obtain ⟨isSocket, direction⟩ := mem_holders.mp isHolder
  have inLedger : socket.clientEnd ∈ state.ledger.clientEnds :=
    mem_ends.mpr ⟨client, isSocket, isEnd, direction⟩
  obtain ⟨paired, isPaired, key⟩ := getSession_pair sound inLedger
  rw [found] at isPaired
  cases isPaired
  exact ⟨session, admitted, found, (congrArg Prod.snd key).symm, same, linked.detected, linked.admitted,
    linked.dialled⟩

/-- The events until the pair of the first client is registered. -/
def relayFirst : List Action := connect ++ [.command none 10 (true, true)]

theorem registers_relayFirst : ∀ action ∈ relayFirst, ∀ state, Registers state action :=
  List.forall_mem_append.mpr ⟨registers_connect, by simp [Registers]⟩

/-- The origin's end of the first pair. -/
theorem relay_endpoints_first : ∃ (history : History) (state : State) (session : Session),
    .client (.make 6 5 0 false) ∈ state.sockets ∧ state.getSession 0 = some session ∧
    session.clientFd = 5 ∧ ∃ admitted : Session, admitted.uncounted = session.uncounted ∧
      Dialled history admitted 6 := by
  have executed : ∃ history state,
      runActions (State.step unrestricted) [] (initial 3 4 [3, 4] 0) relayFirst = some (history, state) ∧
      .client (.make 6 5 0 false) ∈ state.sockets ∧
      ∀ entry ∈ history, InBounds unrestricted ⟨.debug, 10⟩ entry.1 entry.2 :=
    ⟨_, _, rfl, by decide, by decide⟩
  obtain ⟨history, state, executed, member, inBounds⟩ := executed
  have run := run_faultless (run_of_executed registers_relayFirst executed) inBounds
  obtain ⟨session, admitted, found, isClient, same, -, -, dialled⟩ := relay_endpoints run member
  exact ⟨history, state, session, member, found, isClient.symm, admitted, same, dialled⟩

end State

end NermalProxy
