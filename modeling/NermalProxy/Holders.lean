import NermalProxy.SessionLifecycle

/-! # The holders of sessions

The tokens of the ledger one by one: who holds a session, and what a step does to the
holders and to the sessions of the others. -/

namespace NermalProxy

open NermalProxy.CString NermalProxy.KeyedList NermalProxy.Config NermalProxy.Transition

inductive Holder where
  | task (task : Task)
  | worker (worker : Worker)
  | message (message : Message)
  | socket (socket : ClientSocket)

def Holder.sessionId : Holder → Nat
  | .task t => t.sessionId
  | .worker w => w.sessionId
  | .message m => m.sessionId
  | .socket s => s.sessionId

namespace State

variable {state next : State} {settings : Settings} {holder : Holder}

/-- Of a pair of sockets the client's one stands for both. -/
def holders (state : State) : List Holder :=
  state.queue.map .task ++ (state.workers.filter (fun worker => !worker.replied)).map .worker ++
    state.pipe.map .message ++
    ((state.sockets.filterMap Socket.client?).filter ClientSocket.isClientToProxy).map .socket

theorem mem_holders : holder ∈ state.holders ↔
    match holder with
    | .task task => task ∈ state.queue
    | .worker worker => worker ∈ state.workers ∧ worker.replied = false
    | .message message => message ∈ state.pipe
    | .socket socket => .client socket ∈ state.sockets ∧ socket.isClientToProxy = true := by
  have isClient : ∀ socket : ClientSocket, (∃ found ∈ state.sockets, found.client? = some socket) ↔
      .client socket ∈ state.sockets := by
    intro socket
    constructor
    · rintro ⟨found, member, same⟩
      cases found with
      | server fd => cases same
      | command fd => cases same
      | client found => cases same; exact member
    · exact fun member => ⟨_, member, rfl⟩
  cases holder <;> simp [holders, isClient]

theorem mem_holders_writeMessage {message : Message} :
    holder ∈ (state.writeMessage message).holders ↔ holder ∈ state.holders ∨ holder = .message message := by
  rw [mem_holders, mem_holders]
  cases holder <;> simp [writeMessage]

theorem mem_holders_dispatch {task : Task} :
    holder ∈ (state.dispatch task).holders ↔ holder ∈ state.holders ∨ holder = .task task := by
  rw [mem_holders, mem_holders]
  cases holder <;> simp [dispatch]

theorem holders_tokens :
    ((state.holders.map Holder.sessionId : List Nat) : Multiset Nat) = state.ledger.tokens := by
  have workers : ((state.workers.filter (fun worker => !worker.replied)).map Worker.sessionId) =
      state.workers.filterMap Worker.owes := by
    induction state.workers with
    | nil => rfl
    | cons worker workers inductionHypothesis =>
      cases replied : worker.replied with
      | true => simp [replied, Worker.owes, inductionHypothesis]
      | false => simp [replied, Worker.owes, inductionHypothesis]
  have sockets : (((state.sockets.filterMap Socket.client?).filter ClientSocket.isClientToProxy).map
      ClientSocket.sessionId) =
      (state.sockets.filterMap (Socket.end? true)).map End.sessionId := by
    induction state.sockets with
    | nil => rfl
    | cons socket sockets inductionHypothesis =>
      cases socket with
      | server fd => exact inductionHypothesis
      | command fd => exact inductionHypothesis
      | client socket =>
        cases direction : socket.isClientToProxy with
        | true => simp [Socket.client?, Socket.end?, direction, inductionHypothesis, ClientSocket.link]
        | false => simp [Socket.client?, Socket.end?, direction, inductionHypothesis]
  simp only [Ledger.tokens, ledger, Multiset.map_coe, Multiset.filterMap_coe, Multiset.coe_add,
    ← workers, ← sockets, holders, List.map_append, List.map_map]
  rfl

theorem holders_nodup (sound : state.ledger.Sound) : (state.holders.map Holder.sessionId).Nodup := by
  rw [← Multiset.coe_nodup, holders_tokens, sound.tokens_eq]
  exact sound.ids_nodup

/-- A session has one holder. -/
theorem holder_unique (sound : state.ledger.Sound) {one other : Holder}
    (isOne : one ∈ state.holders) (isOther : other ∈ state.holders)
    (same : one.sessionId = other.sessionId) : one = other :=
  List.inj_on_of_nodup_map (holders_nodup sound) isOne isOther same

theorem exists_session (sound : state.ledger.Sound) (member : holder ∈ state.holders) :
    ∃ session, state.getSession holder.sessionId = some session := by
  apply live_of_token sound
  rw [← holders_tokens]
  exact List.mem_map_of_mem member

/-- Where a holder comes from in a step: it was there, with its session as it is, or somebody has
handed the session over to it. -/
inductive Arrives (settings : Settings) (state : State) (action : Action) (next : State) : Holder → Prop
  | kept {holder : Holder} (member : holder ∈ state.holders)
      (same : next.getSession holder.sessionId = state.getSession holder.sessionId) :
      Arrives settings state action next holder
  | socket {socket : ClientSocket} : Arrives settings state action next (.socket socket)
  | accepted : Arrives settings state action next (.task (.asyncDetector state.sessions.sessionId))
  | admitted {sessionId : Nat} {rest : List Message} {localTime : Option LocalTime} {now : UInt64}
      {registered : Bool × Bool} {before session : Session}
      (isCommand : action = .command localTime now registered)
      (pipe : state.pipe = .hostDetectResult sessionId true :: rest)
      (found : state.getSession sessionId = some before)
      (noRefusal : (SocketManager.authorize settings localTime before).refusal = none)
      (verdict : session =
        SocketManager.setVerdictName (SocketManager.authorize settings localTime before) before)
      (named : next.getSession sessionId = some session)
      (allowed : isAllowed settings.blacklists settings.policies session.userName session.hostUrl = true) :
      Arrives settings state action next (.task (.asyncConnector sessionId))
  | blocked {sessionId : Nat} :
      Arrives settings state action next (.message (.hostConnectResult sessionId (-1) false))
  | taken {task : Task} {rest : List Task} (queue : state.queue = task :: rest)
      (same : next.getSession task.sessionId = state.getSession task.sessionId) :
      Arrives settings state action next (.worker task.worker)
  | worked {index : Nat} {input : Input} {worker : Worker} {shared : State} {pc : Pc}
      (isWork : action = .work index input) (at_ : state.workers[index]? = some worker)
      (owing : worker.replied = false) (stepped : worker.step input state = some (shared, some pc))
      (sessions : next.sessions = shared.sessions) :
      Arrives settings state action next (.worker { worker with pc })
  | replied {index : Nat} {input : Input} {worker : Worker} {shared : State} {after : Option Pc}
      {message : Message} (isWork : action = .work index input)
      (at_ : state.workers[index]? = some worker) (owing : worker.replied = false)
      (stepped : worker.step input state = some (shared, after))
      (addressed : message.sessionId = worker.sessionId) (pipe : shared.pipe = state.pipe ++ [message])
      (same : next.getSession message.sessionId = state.getSession message.sessionId) :
      Arrives settings state action next (.message message)

/-! ## The sessions of the others -/

theorem getSession_endSession_other {sessionId other : Nat} (different : other ≠ sessionId)
    (now : UInt64) :
    (state.endSession settings now sessionId).getSession other = state.getSession other := by
  simp only [getSession, endSession, SessionManager.endSession_list]
  exact lookup_remove_other different

theorem getSession_updateSession_other {sessionId other : Nat} (change : Session → Session)
    (unchanged : ∀ x, (change x).key = x.key) (different : other ≠ sessionId) :
    (state.updateSession sessionId change).getSession other = state.getSession other :=
  SessionManager.getSession_update_other unchanged different

theorem ids_distinct (sound : state.ledger.Sound) : state.sessions.ids.Nodup := by
  have nodup := sound.ids_nodup
  rwa [ids_coe, Multiset.coe_nodup] at nodup

theorem ids_updateSession {sessionId : Nat} {change : Session → Session}
    (unchanged : ∀ x, (change x).key = x.key) :
    (state.updateSession sessionId change).sessions.ids = state.sessions.ids :=
  map_adjust (fun x => congrArg Prod.fst (unchanged x))

theorem getSession_endSession_same (distinct : state.sessions.ids.Nodup) (sessionId : Nat)
    (now : UInt64) : (state.endSession settings now sessionId).getSession sessionId = none := by
  simp only [getSession, endSession, SessionManager.endSession_list, SessionManager.getSession]
  apply lookup_eq_none.mpr
  intro session member
  exact ((mem_remove distinct).mp member).2

/-! ## The main thread -/

theorem lt_of_getSession (sound : state.ledger.Sound) {sessionId : Nat} {session : Session}
    (found : state.getSession sessionId = some session) : sessionId < state.sessions.sessionId := by
  apply sound.ids_lt
  rw [ids_coe]
  exact SessionManager.mem_ids_iff.mpr ⟨session, found⟩

theorem accept_arrives (sound : state.ledger.Sound) {clientFd : Fd} (unused : clientFd ∉ state.openFds)
    {storage : SessionStorage} {now : UInt64} {clientIp : Bytes} {action : Action}
    (handled : SocketManager.handleServerSocketRead storage now clientFd clientIp state = some next)
    (member : holder ∈ next.holders) : Arrives settings state action next holder := by
  simp only [SocketManager.handleServerSocketRead, createSession_new sound unused,
    Option.some.injEq] at handled
  by_cases isNew : holder = .task (.asyncDetector state.sessions.sessionId)
  · rw [isNew]
    exact .accepted
  · have older : holder ∈ state.holders := by
      rw [← handled] at member
      rcases mem_holders_dispatch.mp member with older | last
      · exact older
      · exact absurd last isNew
    obtain ⟨session, found⟩ := exists_session sound older
    have different : holder.sessionId ≠ state.sessions.sessionId :=
      (lt_of_getSession sound found).ne
    refine .kept older ?_
    rw [← handled]
    refine (getSession_updateSession_other (fun session => session.setClientAddress clientIp)
      (fun _ => rfl) different).trans ?_
    have inList : lookup Session.sessionId holder.sessionId state.sessions.sessionList = some session :=
      found
    change lookup _ _ (_ ++ _) = _
    rw [lookup_append, inList, found]
    rfl

/-- The holders of the state without the first message. -/
theorem mem_holders_pipe {message : Message} {rest : List Message} (pipe : state.pipe = message :: rest)
    (member : holder ∈ ({ state with pipe := rest } : State).holders) : holder ∈ state.holders := by
  rw [mem_holders] at member ⊢
  cases holder with
  | task task => exact member
  | worker worker => exact member
  | message other =>
    rw [pipe]
    exact List.mem_cons_of_mem _ member
  | socket socket => exact member

/-- Whoever still has a session after a rejection has another one. -/
theorem reject_arrives {current : State} (nextSound : next.ledger.Sound)
    (distinct : current.sessions.ids.Nodup) {session : Session}
    (older : ∀ holder ∈ current.holders, holder ∈ state.holders)
    (others : ∀ other, other ≠ session.sessionId → current.getSession other = state.getSession other)
    {now : UInt64} {response : Bytes} {action : Action}
    (handled : SocketManager.reject settings now session response current = next)
    (member : holder ∈ next.holders) : Arrives settings state action next holder := by
  have inCurrent : holder ∈ current.holders := by
    rw [← handled] at member
    exact member
  have different : holder.sessionId ≠ session.sessionId := by
    intro same
    obtain ⟨live, found⟩ := exists_session nextSound member
    have stillDistinct :
        ((current.respond session.clientFd response).close session.clientFd).sessions.ids.Nodup := distinct
    rw [← handled, SocketManager.reject, same, getSession_endSession_same stillDistinct] at found
    cases found
  refine .kept (older holder inCurrent) ?_
  rw [← handled, ← others _ different]
  exact getSession_endSession_other different now

theorem connectProxy_arrives {sessionId : Nat} {rest : List Message} {localTime : Option LocalTime}
    {now : UInt64} {registered : Bool × Bool} {session : Session}
    (pipe : state.pipe = .hostDetectResult sessionId true :: rest)
    (found : state.getSession sessionId = some session)
    (noRefusal : (SocketManager.authorize settings localTime session).refusal = none)
    (nextSound : next.ledger.Sound)
    (handled : SocketManager.connectProxy settings sessionId
      (State.updateSession { state with pipe := rest } sessionId
        (SocketManager.setVerdictName (SocketManager.authorize settings localTime session))) = some next)
    (member : holder ∈ next.holders) :
    Arrives settings state (.command localTime now registered) next holder := by
  have unchanged := setVerdictName_key (SocketManager.authorize settings localTime session)
  have popped : State.getSession { state with pipe := rest } sessionId = some session := found
  have named := getSession_update_key unchanged popped
  have others : ∀ other, other ≠ sessionId →
      (State.updateSession { state with pipe := rest } sessionId
        (SocketManager.setVerdictName (SocketManager.authorize settings localTime session))).getSession
          other = state.getSession other :=
    fun other different => getSession_updateSession_other _ unchanged different
  have older : ∀ new : Holder, new ∈ next.holders → new.sessionId = sessionId → holder ≠ new →
      holder ∈ ({ state with pipe := rest } : State).holders →
      next.sessions = (State.updateSession { state with pipe := rest } sessionId
        (SocketManager.setVerdictName (SocketManager.authorize settings localTime session))).sessions →
      Arrives settings state (.command localTime now registered) next holder := by
    intro new isHolder same notNew inRest sessions
    have different : holder.sessionId ≠ sessionId := fun equal =>
      notNew (holder_unique nextSound member isHolder (equal.trans same.symm))
    refine .kept (mem_holders_pipe pipe inRest) ?_
    rw [getSession, sessions]
    exact others _ different
  simp only [SocketManager.connectProxy, named] at handled
  split at handled
  · cases handled
    by_cases isNew : holder = .message (.hostConnectResult sessionId (-1) false)
    · rw [isNew]
      exact .blocked
    · rcases mem_holders_writeMessage.mp member with inRest | last
      · exact older _ (mem_holders_writeMessage.mpr (.inr rfl)) rfl isNew inRest rfl
      · exact absurd last isNew
  · rename_i allowed
    cases handled
    by_cases isNew : holder = .task (.asyncConnector sessionId)
    · rw [isNew]
      exact .admitted rfl pipe found noRefusal rfl named (by simpa using allowed)
    · rcases mem_holders_dispatch.mp member with inRest | last
      · exact older _ (mem_holders_dispatch.mpr (.inr rfl)) rfl isNew inRest rfl
      · exact absurd last isNew

theorem message_arrives (nextSound : next.ledger.Sound) (sound : state.ledger.Sound) {message : Message}
    {rest : List Message} (pipe : state.pipe = message :: rest) {localTime : Option LocalTime}
    {now : UInt64} {registered : Bool × Bool} (both : registered = (true, true))
    (handled : SocketManager.handleMessage settings localTime now registered message
      { state with pipe := rest } = some next) (member : holder ∈ next.holders) :
    Arrives settings state (.command localTime now registered) next holder := by
  have distinct : ({ state with pipe := rest } : State).sessions.ids.Nodup :=
    show state.sessions.ids.Nodup from ids_distinct sound
  cases message with
  | hostDetectResult sessionId success =>
    simp only [SocketManager.handleMessage] at handled
    cases found : State.getSession { state with pipe := rest } sessionId with
    | none => simp [found] at handled
    | some session =>
      have named := SessionManager.getSession_sessionId found
      simp only [found] at handled
      cases success with
      | false =>
        exact reject_arrives nextSound distinct (fun _ => mem_holders_pipe pipe) (fun _ _ => rfl)
          (Option.some.inj handled) member
      | true =>
        have unchanged := setVerdictName_key (SocketManager.authorize settings localTime session)
        simp only [Bool.true_eq_false, if_false] at handled
        split at handled
        · have rejected := Option.some.inj handled
          refine reject_arrives nextSound ?_ ?_ ?_ rejected member
          · rw [ids_updateSession unchanged]
            exact distinct
          · exact fun _ inRest => mem_holders_pipe pipe inRest
          · intro other different
            rw [named] at different
            exact getSession_updateSession_other _ unchanged different
        · rename_i noRefusal
          exact connectProxy_arrives pipe found noRefusal nextSound handled member
  | hostConnectResult sessionId proxyFd success =>
    simp only [SocketManager.handleMessage] at handled
    cases found : State.getSession { state with pipe := rest } sessionId with
    | none => simp [found] at handled
    | some session =>
      simp only [found] at handled
      cases success with
      | false =>
        exact reject_arrives nextSound distinct (fun _ => mem_holders_pipe pipe) (fun _ _ => rfl)
          (Option.some.inj handled) member
      | true =>
        subst both
        cases handled
        rw [mem_holders] at member
        cases holder with
        | task task => exact .kept (mem_holders.mpr member) rfl
        | worker worker => exact .kept (mem_holders.mpr member) rfl
        | message other => exact .kept (mem_holders_pipe pipe (mem_holders.mpr member)) rfl
        | socket socket => exact .socket

/-- The client's socket of a pair has the session of both. -/
theorem exists_socket_holder (sound : state.ledger.Sound) {socket : ClientSocket}
    (member : .client socket ∈ state.sockets) :
    ∃ client, .socket client ∈ state.holders ∧ client.sessionId = socket.sessionId := by
  cases direction : socket.isClientToProxy with
  | true => exact ⟨socket, mem_holders.mpr ⟨member, direction⟩, rfl⟩
  | false =>
    obtain ⟨peer, isPeer, mirror, opposite⟩ := exists_peer sound member
    refine ⟨peer, mem_holders.mpr ⟨isPeer, ?_⟩, congrArg End.sessionId mirror⟩
    simp [opposite, direction]

/-- What an event may do that removes sockets and ends sessions. -/
structure Sheds (state next : State) : Prop where
  queue : next.queue = state.queue
  workers : next.workers = state.workers
  pipe : next.pipe = state.pipe
  ids : next.sessions.ids.Sublist state.sessions.ids
  live : state.sessions.ids.Nodup → ∀ sessionId session,
    next.getSession sessionId = some session → state.getSession sessionId = some session

theorem Sheds.refl (state : State) : Sheds state state :=
  ⟨rfl, rfl, rfl, List.Sublist.refl _, fun _ _ _ found => found⟩

theorem Sheds.trans {middle : State} (first : Sheds state middle) (second : Sheds middle next) :
    Sheds state next where
  queue := second.queue.trans first.queue
  workers := second.workers.trans first.workers
  pipe := second.pipe.trans first.pipe
  ids := second.ids.trans first.ids
  live distinct sessionId session found :=
    first.live distinct sessionId session
      (second.live (first.ids.nodup distinct) sessionId session found)

/-- A socket that is removed takes nothing but itself along. -/
theorem Sheds.removeSocket (fd : Fd) (state : State) :
    Sheds state (SocketManager.removeSocket fd state) := by
  unfold SocketManager.removeSocket
  split
  · exact .refl state
  · rename_i socket _
    cases socket with
    | server fd => exact ⟨rfl, rfl, rfl, List.Sublist.refl _, fun _ _ _ found => found⟩
    | command fd => exact ⟨rfl, rfl, rfl, List.Sublist.refl _, fun _ _ _ found => found⟩
    | client socket => exact ⟨rfl, rfl, rfl, List.Sublist.refl _, fun _ _ _ found => found⟩

theorem Sheds.endSession (now : UInt64) (sessionId : Nat) :
    Sheds state (state.endSession settings now sessionId) where
  queue := rfl
  workers := rfl
  pipe := rfl
  ids := by
    simp only [State.endSession, SessionManager.endSession_list, SessionManager.ids]
    exact (remove_sublist _).map _
  live distinct other session found := by
    by_cases same : other = sessionId
    · rw [same, getSession_endSession_same distinct] at found
      cases found
    · rwa [getSession_endSession_other same] at found

theorem sheds_arrives (sound : state.ledger.Sound) (nextSound : next.ledger.Sound)
    (sheds : Sheds state next) {action : Action} (member : holder ∈ next.holders) :
    Arrives settings state action next holder := by
  obtain ⟨session, found⟩ := exists_session nextSound member
  have same : next.getSession holder.sessionId = state.getSession holder.sessionId :=
    found.trans (sheds.live (ids_distinct sound) _ _ found).symm
  rw [mem_holders] at member
  cases holder with
  | task task => exact .kept (mem_holders.mpr (sheds.queue ▸ member)) same
  | worker worker => exact .kept (mem_holders.mpr (sheds.workers ▸ member)) same
  | message message => exact .kept (mem_holders.mpr (sheds.pipe ▸ member)) same
  | socket socket => exact .socket

theorem teardown_sheds (now : UInt64) (socket : ClientSocket) :
    Sheds state (SocketManager.teardown settings now socket state) :=
  ((Sheds.removeSocket _ _).trans (Sheds.removeSocket _ _)).trans (.endSession now _)

theorem evictOldest_sheds {now : UInt64}
    (evicted : SocketManager.evictOldest settings now state = some next) : Sheds state next := by
  unfold SocketManager.evictOldest at evicted
  split at evicted
  · cases evicted
    refine .trans ?_ ((Sheds.removeSocket _ _).trans (.endSession now _))
    exact ⟨rfl, rfl, rfl, List.Sublist.refl _, fun _ _ _ found => found⟩
  · cases evicted

theorem evictions_shed {pruned : State}
    (evictions : Relation.ReflTransGen (SocketManager.Evicts settings) state pruned) : Sheds state pruned := by
  induction evictions with
  | refl => exact .refl _
  | tail _ eviction inductionHypothesis =>
    obtain ⟨now, evicted⟩ := eviction
    exact inductionHypothesis.trans (evictOldest_sheds evicted)

theorem timeout_sheds {now : Nat → UInt64} {logTime : UInt64}
    (handled : SocketManager.handleTimeout settings now logTime state = some next) : Sheds state next := by
  obtain ⟨pruned, evictions, rfl | rfl⟩ := SocketManager.handleTimeout_evicts handled
  · exact evictions_shed evictions
  · have sheds := evictions_shed evictions
    exact ⟨sheds.queue, sheds.workers, sheds.pipe, sheds.ids, sheds.live⟩

theorem countBytes_key (socket : ClientSocket) (numRead numWritten : Nat) (session : Session) :
    (SocketManager.countBytes socket numRead numWritten session).key = session.key := by
  unfold SocketManager.countBytes
  split <;> rfl

theorem relay_arrives (nextSound : next.ledger.Sound) (sound : state.ledger.Sound)
    {socket : ClientSocket} (isSocket : .client socket ∈ state.sockets) {now : UInt64}
    {memory : ClientSocket.Memory} {reads : List ReadResult} {writes : List WriteResult} {action : Action}
    (handled : SocketManager.handleClientSocketRead settings now memory reads writes socket state =
      some next) (member : holder ∈ next.holders) : Arrives settings state action next holder := by
  cases SocketManager.relayEnds_of_handled handled with
  | teardown outcome => exact sheds_arrives sound nextSound (teardown_sheds now socket) member
  | relayed outcome found =>
    have apart : (∀ socket, holder ≠ .socket socket) → holder ∈ state.holders →
        holder.sessionId ≠ socket.sessionId := by
      intro notSocket older same
      obtain ⟨client, isHolder, sameId⟩ := exists_socket_holder sound isSocket
      exact notSocket client (holder_unique sound older isHolder (same.trans sameId.symm))
    have unchanged := countBytes_key socket
    rw [mem_holders] at member
    cases holder with
    | task task =>
      have older : .task task ∈ state.holders := mem_holders.mpr member
      exact .kept older (getSession_updateSession_other _ (unchanged _ _) (apart (fun _ => by simp) older))
    | worker worker =>
      have older : .worker worker ∈ state.holders := mem_holders.mpr member
      exact .kept older (getSession_updateSession_other _ (unchanged _ _) (apart (fun _ => by simp) older))
    | message message =>
      have older : .message message ∈ state.holders := mem_holders.mpr member
      exact .kept older (getSession_updateSession_other _ (unchanged _ _) (apart (fun _ => by simp) older))
    | socket socket => exact .socket

/-! ## The workers -/

theorem take_arrives {action : Action} (taken : state.take = some next) (member : holder ∈ next.holders) :
    Arrives settings state action next holder := by
  unfold take at taken
  cases queue : state.queue with
  | nil => simp [queue] at taken
  | cons task rest =>
    simp only [queue] at taken
    split at taken
    · have updated := Option.some.inj taken
      have sessions : next.sessions = state.sessions := by rw [← updated]
      have same : ∀ sessionId, next.getSession sessionId = state.getSession sessionId := by
        intro sessionId
        rw [getSession, sessions, getSession]
      rw [← updated, mem_holders] at member
      cases holder with
      | task other =>
        refine .kept (mem_holders.mpr ?_) (same _)
        rw [queue]
        exact List.mem_cons_of_mem _ member
      | worker worker =>
        obtain ⟨isWorker, owing⟩ := member
        rcases List.mem_append.mp isWorker with older | last
        · exact .kept (mem_holders.mpr ⟨older, owing⟩) (same _)
        · rw [List.mem_singleton.mp last]
          exact .taken queue (same _)
      | message message => exact .kept (mem_holders.mpr member) (same _)
      | socket socket => exact .socket
    · cases taken

/-- A worker's step leaves the other sessions alone. -/
theorem getSession_step_other {worker : Worker} {input : Input} {shared : State} {after : Option Pc}
    (stepped : worker.step input state = some (shared, after)) {other : Nat}
    (different : other ≠ worker.sessionId) : shared.getSession other = state.getSession other := by
  have steps := Worker.steps_of_step stepped
  obtain ⟨sessionId, pc⟩ := worker
  cases steps with
  | setHost => exact getSession_updateSession_other _ (fun _ => rfl) different
  | setPort => exact getSession_updateSession_other _ (fun _ => rfl) different
  | setRequest => exact getSession_updateSession_other _ (fun _ => rfl) different
  | setTransparent => exact getSession_updateSession_other _ (fun _ => rfl) different
  | _ => rfl

/-- Replying, and what follows, leaves all sessions alone. -/
theorem sessions_of_done {worker : Worker} {input : Input} {shared : State} {after : Option Pc}
    (stepped : worker.step input state = some (shared, after))
    (done : after = none ∨ after = some .clearCache) : shared.sessions = state.sessions := by
  have steps := Worker.steps_of_step stepped
  obtain ⟨sessionId, pc⟩ := worker
  cases steps with
  | setHost => simp at done
  | setPort => simp at done
  | setRequest => simp at done
  | setTransparent => simp at done
  | _ => rfl

theorem mem_holders_frame {shared : State} (frame : SameFrame state shared) {workers : List Worker}
    (new : Holder → Prop)
    (olderWorkers : ∀ worker ∈ workers, worker.replied = false →
      worker ∈ state.workers ∨ new (.worker worker))
    (olderMessages : ∀ message ∈ shared.pipe, message ∈ state.pipe ∨ new (.message message))
    (member : holder ∈ ({ shared with workers } : State).holders) :
    holder ∈ state.holders ∨ new holder := by
  rw [mem_holders] at member ⊢
  cases holder with
  | task task => exact .inl (frame.queue ▸ member)
  | worker worker =>
    obtain ⟨isWorker, owing⟩ := member
    exact (olderWorkers worker isWorker owing).imp_left (fun older => ⟨older, owing⟩)
  | message message => exact olderMessages message member
  | socket socket => exact .inl (frame.sockets ▸ member)

/-- Whoever is not handed the session of a step has another one. -/
theorem pass_arrives (nextSound : next.ledger.Sound) {action : Action} {sessionId : Nat} {new : Holder}
    (isNew : new ∈ next.holders) (named : new.sessionId = sessionId)
    (others : ∀ other, other ≠ sessionId → next.getSession other = state.getSession other)
    (arrives : Arrives settings state action next new) (member : holder ∈ next.holders)
    (older : holder ∈ state.holders ∨ holder = new) : Arrives settings state action next holder := by
  by_cases same : holder = new
  · rw [same]
    exact arrives
  · have different : holder.sessionId ≠ sessionId := fun equal =>
      same (holder_unique nextSound member isNew (equal.trans named.symm))
    exact .kept (older.resolve_right same) (others _ different)

/-- A worker that goes on to `pc` keeps its session. -/
theorem work_arrives_move (nextSound : next.ledger.Sound) {index : Nat} {input : Input} {worker : Worker}
    {shared : State} {pc : Pc} (at_ : state.workers[index]? = some worker)
    (owing : worker.replied = false) (stepped : worker.step input state = some (shared, some pc))
    (stillOwing : pc ≠ .clearCache) (pipe : shared.pipe = state.pipe)
    (moved : { shared with workers := shared.workers.set index { worker with pc } } = next)
    (member : holder ∈ next.holders) : Arrives settings state (.work index input) next holder := by
  have frame := step_frame stepped
  have movedOwing : ({ worker with pc } : Worker).replied = false := by
    simpa [Worker.replied] using stillOwing
  have inside : index < shared.workers.length := by
    rw [frame.workers]
    exact (List.getElem?_eq_some_iff.mp at_).1
  have isNew : .worker { worker with pc } ∈ next.holders := by
    rw [← moved]
    exact mem_holders.mpr ⟨List.mem_set inside _, movedOwing⟩
  have sessions : next.sessions = shared.sessions := by rw [← moved]
  have arrives : Arrives settings state (.work index input) next (.worker { worker with pc }) :=
    .worked rfl at_ owing stepped sessions
  refine pass_arrives nextSound isNew rfl ?_ arrives member ?_
  · intro other different
    rw [getSession, sessions]
    exact getSession_step_other stepped different
  · rw [← moved] at member
    refine mem_holders_frame frame (fun holder => holder = .worker { worker with pc }) ?_ ?_ member
    · intro other isWorker _
      rcases List.mem_or_eq_of_mem_set isWorker with older | same
      · exact .inl (frame.workers ▸ older)
      · exact .inr (congrArg _ same)
    · exact fun message isMessage => .inl (pipe ▸ isMessage)

/-- The reply of a worker takes its session over. -/
theorem work_arrives_reply (nextSound : next.ledger.Sound) {index : Nat} {input : Input} {worker : Worker}
    {shared : State} {after : Option Pc} {message : Message} (at_ : state.workers[index]? = some worker)
    (stepped : worker.step input state = some (shared, after)) (owing : worker.replied = false)
    (addressed : message.sessionId = worker.sessionId)
    (done : after = none ∨ after = some .clearCache) (pipe : shared.pipe = state.pipe ++ [message])
    {workers : List Worker} (olderWorkers : ∀ w ∈ workers, w.replied = false → w ∈ state.workers)
    (replied : { shared with workers } = next) (member : holder ∈ next.holders) :
    Arrives settings state (.work index input) next holder := by
  have unchanged := sessions_of_done stepped done
  have sessions : next.sessions = state.sessions := by
    rw [← replied]
    exact unchanged
  have same : ∀ other, next.getSession other = state.getSession other := by
    intro other
    rw [getSession, sessions, getSession]
  have isNew : .message message ∈ next.holders := by
    rw [← replied]
    apply mem_holders.mpr
    change message ∈ shared.pipe
    rw [pipe]
    exact List.mem_append_right _ (List.mem_singleton_self _)
  have arrives : Arrives settings state (.work index input) next (.message message) :=
    .replied rfl at_ owing stepped addressed pipe (same _)
  refine pass_arrives nextSound isNew addressed (fun other _ => same other) arrives member ?_
  rw [← replied] at member
  refine mem_holders_frame (step_frame stepped) (fun holder => holder = .message message) ?_ ?_ member
  · exact fun w isWorker settled => .inl (olderWorkers w isWorker settled)
  · intro other isMessage
    rw [pipe] at isMessage
    rcases List.mem_append.mp isMessage with older | last
    · exact .inl older
    · exact .inr (congrArg _ (List.mem_singleton.mp last))

theorem work_arrives (nextSound : next.ledger.Sound) {index : Nat} {input : Input}
    (worked : state.work index input = some next) (member : holder ∈ next.holders) :
    Arrives settings state (.work index input) next holder := by
  obtain ⟨worker, shared, after, at_, stepped, replaced⟩ := exists_of_work worked
  have workers := (step_frame stepped).workers
  cases step_handling stepped with
  | move owing stillOwing held pipe openFds =>
    exact work_arrives_move nextSound at_ owing stepped stillOwing pipe replaced member
  | openSocket owing held unused pipe openFds =>
    exact work_arrives_move nextSound at_ owing stepped (by simp) pipe replaced member
  | reply owing addressed held done pipe openFds =>
    rcases done with rfl | rfl
    · refine work_arrives_reply nextSound at_ stepped owing addressed (.inl rfl) pipe ?_ replaced member
      exact fun w isWorker _ => workers ▸ List.mem_of_mem_eraseIdx isWorker
    · refine work_arrives_reply nextSound at_ stepped owing addressed (.inr rfl) pipe ?_ replaced member
      intro w isWorker settled
      rcases List.mem_or_eq_of_mem_set isWorker with older | same
      · exact workers ▸ older
      · rw [same] at settled
        cases settled
  | leave settled held pipe openFds =>
    have unchanged := sessions_of_done stepped (.inl rfl)
    have sessions : next.sessions = state.sessions := by
      rw [← replaced]
      exact unchanged
    have older : holder ∈ state.holders ∨ False := by
      rw [← replaced] at member
      refine mem_holders_frame (step_frame stepped) (fun _ => False) ?_ ?_ member
      · exact fun w isWorker _ => .inl (workers ▸ List.mem_of_mem_eraseIdx isWorker)
      · exact fun message isMessage => .inl (pipe ▸ isMessage)
    refine .kept (older.resolve_right id) ?_
    rw [getSession, sessions, getSession]

/-! ## Every step -/

theorem step_arrives (sound : state.ledger.Sound) {action : Action} (registers : Registers state action)
    (stepped : state.step settings action = some next) (member : holder ∈ next.holders) :
    Arrives settings state action next holder := by
  have nextSound := Ledger.steps_sound (step_ledger sound registers stepped) sound
  cases action with
  | accept storage now clientFd clientIp =>
    simp only [step] at stepped
    split at stepped
    · cases stepped
    · rename_i unused
      exact accept_arrives sound unused stepped member
  | command localTime now registered =>
    simp only [step, SocketManager.handleCommandSocketRead] at stepped
    split at stepped
    · cases stepped
    · rename_i pipe
      exact message_arrives nextSound sound pipe registers stepped member
  | relay fd now memory reads writes =>
    simp only [step] at stepped
    split at stepped
    · rename_i found
      exact relay_arrives nextSound sound (mem_of_lookup found) stepped member
    · cases stepped
  | timeout now logTime => exact sheds_arrives sound nextSound (timeout_sheds stepped) member
  | take => exact take_arrives stepped member
  | work index input => exact work_arrives nextSound stepped member

end State

end NermalProxy
