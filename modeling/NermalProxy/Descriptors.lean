import Mathlib.Algebra.Order.Group.Multiset
import Mathlib.Tactic.Abel
import NermalProxy.HandBack
import NermalProxy.Steps

/-! # Who closes a descriptor

Every descriptor that is opened for a session has one owner until it is closed: the
session for its client's descriptor; for the origin's descriptor a worker, then a
message, then a relay socket.  A step exchanges some pairs of session and descriptor:
those it opens come in, those it closes go. -/

namespace NermalProxy

open NermalProxy.CString NermalProxy.KeyedList NermalProxy.Config NermalProxy.Transition

/-- The descriptor a worker holds, with the session it is for. -/
def Worker.holding (worker : Worker) : Option (Nat × Fd) :=
  worker.held.map (fun fd => (worker.sessionId, fd))

def Message.holding (message : Message) : Option (Nat × Fd) :=
  message.held.map (fun fd => (message.sessionId, fd))

/-- The descriptor that `::socket` returns to a worker. -/
def Worker.opens (worker : Worker) (input : Input) : Option Fd :=
  match worker.pc, input with
  | .socket _, .socket sockFd => sockFd
  | _, _ => none

namespace State

variable {state next : State} {settings : Settings}

/-- The owned descriptors, each with the session it is for. -/
def owners (state : State) : Multiset (Nat × Fd) :=
  state.ledger.sessions + state.ledger.serverEnds.map (fun e => (e.sessionId, e.fd)) +
    ((state.workers : Multiset Worker).filterMap Worker.holding +
      (state.pipe : Multiset Message).filterMap Message.holding)

/-- What a step opens, with the session it is for. -/
def opens (state : State) : Action → List (Nat × Fd)
  | .accept _ _ clientFd _ => [(state.sessions.sessionId, clientFd)]
  | .work index input =>
    match state.workers[index]? with
    | some worker => (worker.opens input).toList.map (fun fd => (worker.sessionId, fd))
    | none => []
  | _ => []

/-- One state becomes the other by opening and closing these descriptors. -/
structure Exchanges (state next : State) (opening closing : List (Nat × Fd)) : Prop where
  closed : next.closed = state.closed ++ closing.map Prod.snd
  openFds : (next.openFds : Multiset Fd) + (closing.map Prod.snd : List Fd) =
    (opening.map Prod.snd : List Fd) + state.openFds
  owners : next.owners + (closing : Multiset (Nat × Fd)) =
    (opening : Multiset (Nat × Fd)) + state.owners

theorem Exchanges.refl (state : State) : Exchanges state state [] [] :=
  ⟨by simp, by simp, by simp⟩

/-- Closing after closing. -/
theorem Exchanges.trans {middle : State} {first second : List (Nat × Fd)}
    (one : Exchanges state middle [] first) (other : Exchanges middle next [] second) :
    Exchanges state next [] (first ++ second) where
  closed := by rw [other.closed, one.closed, List.map_append, List.append_assoc]
  openFds := by
    have before := one.openFds
    have after := other.openFds
    simp only [List.map_nil, Multiset.coe_nil, Multiset.zero_add] at before after ⊢
    rw [List.map_append, ← Multiset.coe_add,
      Multiset.add_comm ((first.map Prod.snd : List Fd) : Multiset Fd), ← Multiset.add_assoc, after,
        before]
  owners := by
    have before := one.owners
    have after := other.owners
    simp only [Multiset.coe_nil, Multiset.zero_add] at before after ⊢
    rw [← Multiset.coe_add, Multiset.add_comm (first : Multiset (Nat × Fd)), ← Multiset.add_assoc, after,
      before]

theorem filterMap_cons_toList {α β : Type*} (f : α → Option β) (x : α) (rest : Multiset α) :
    (x ::ₘ rest).filterMap f = ((f x).toList : Multiset β) + rest.filterMap f := by
  rw [Multiset.filterMap_cons]
  cases f x <;> rfl

/-- The owners without what the ledger does not tell apart. -/
theorem owners_map_snd : state.owners.map Prod.snd + state.ledger.fixed = state.ledger.owned := by
  have workers : ∀ worker : Worker, worker.holding.map Prod.snd = worker.held := by
    intro worker
    simp [Worker.holding, Function.comp_def]
  have messages : ∀ message : Message, message.holding.map Prod.snd = message.held := by
    intro message
    simp [Message.holding, Function.comp_def]
  simp only [owners, Ledger.owned, Multiset.map_add, Multiset.map_filterMap, Multiset.map_map, workers,
    messages]
  rfl

theorem owners_nodup (sound : state.ledger.Sound) : (state.owners.map Prod.snd).Nodup := by
  refine Multiset.nodup_of_le ?_ sound.owned_nodup
  rw [← owners_map_snd]
  exact Multiset.le_add_right _ _

theorem open_of_owners (sound : state.ledger.Sound) {owner : Nat × Fd} (member : owner ∈ state.owners) :
    owner.2 ∈ state.openFds := by
  apply sound.owned_open
  rw [← owners_map_snd]
  exact Multiset.mem_add.mpr (.inl (Multiset.mem_map_of_mem Prod.snd member))

/-! ## What the operations exchange -/

theorem owners_pop {message : Message} {rest : List Message} (pipe : state.pipe = message :: rest) :
    state.owners = (message.holding.toList : Multiset (Nat × Fd)) +
      ({ state with pipe := rest } : State).owners := by
  have books := ledger_pipe pipe
  have sessions : state.ledger.sessions = ({ state with pipe := rest } : State).ledger.sessions := by
    rw [books]
  have serverEnds : state.ledger.serverEnds =
      ({ state with pipe := rest } : State).ledger.serverEnds := by
    rw [books]
  simp only [owners, sessions, serverEnds, pipe]
  rw [← Multiset.cons_coe, filterMap_cons_toList]
  abel

theorem Exchanges.of_pop {message : Message} {rest : List Message} (pipe : state.pipe = message :: rest)
    (noHeld : message.held = none) : Exchanges state { state with pipe := rest } [] [] where
  closed := by simp
  openFds := by simp
  owners := by
    have popped := owners_pop pipe
    simp only [Message.holding, noHeld] at popped
    simpa using popped.symm

theorem owners_updateSession {sessionId : Nat} {change : Session → Session}
    (unchanged : ∀ x, (change x).key = x.key) :
    (state.updateSession sessionId change).owners = state.owners := by
  simp only [owners, ledger_updateSession unchanged]
  rfl

theorem Exchanges.of_update (state : State) (sessionId : Nat) {change : Session → Session}
    (unchanged : ∀ x, (change x).key = x.key) :
    Exchanges state (state.updateSession sessionId change) [] [] where
  closed := by simp [updateSession]
  openFds := by simp [updateSession]
  owners := by simp [owners_updateSession unchanged]

/-- A session that ends gives its descriptor up. -/
theorem owners_endSession {sessionId : Nat} {session : Session}
    (found : state.getSession sessionId = some session) (settings : Settings) (now : UInt64) :
    state.owners = session.key ::ₘ (state.endSession settings now sessionId).owners := by
  have ended := sessions_eq_cons found settings now
  have serverEnds : (state.endSession settings now sessionId).ledger.serverEnds =
      state.ledger.serverEnds := by
    rw [ledger_endSession]
  have work : (state.endSession settings now sessionId).workers = state.workers ∧
      (state.endSession settings now sessionId).pipe = state.pipe := ⟨rfl, rfl⟩
  simp only [owners, serverEnds, work, ended, Multiset.cons_add]

theorem mem_owners_getSession {sessionId : Nat} {session : Session}
    (found : state.getSession sessionId = some session) : session.key ∈ state.owners := by
  have key := List.mem_map_of_mem (f := Session.key) (SessionManager.mem_of_getSession found)
  have inSessions : session.key ∈ state.ledger.sessions := key
  simp only [owners, Multiset.mem_add]
  exact .inl (.inl inSessions)

/-- A rejection closes the client's descriptor. -/
theorem Exchanges.of_reject {session found : Session}
    (areOpen : ∀ owner ∈ state.owners, owner.2 ∈ state.openFds)
    (search : state.getSession session.sessionId = some found) (same : session.key = found.key)
    (now : UInt64) (response : Bytes) :
    Exchanges state (SocketManager.reject settings now session response state) [] [session.key] where
  closed := by simp [SocketManager.reject, endSession, close, respond, Session.key]
  openFds := by
    have isOpen : session.clientFd ∈ state.openFds := by
      have owner := areOpen _ (mem_owners_getSession search)
      rw [← same] at owner
      exact owner
    have perm := (List.perm_cons_erase isOpen).symm
    simp only [SocketManager.reject, endSession, close, respond, Session.key, List.map_cons, List.map_nil,
      Multiset.coe_nil, Multiset.zero_add, Multiset.coe_add]
    exact Multiset.coe_eq_coe.mpr ((List.perm_append_singleton _ _).trans perm)
  owners := by
    have ended := owners_endSession (show ((state.respond session.clientFd response).close
      session.clientFd).getSession session.sessionId = some found from search) settings now
    rw [← same] at ended
    have unchanged : ((state.respond session.clientFd response).close session.clientFd).owners =
        state.owners := by
      simp only [State.owners, ledger_close, ledger_respond]
      rfl
    rw [unchanged] at ended
    simp only [SocketManager.reject, Multiset.coe_nil, Multiset.zero_add, ended]
    rw [Multiset.coe_singleton, Multiset.add_comm, Multiset.singleton_add]

/-- The descriptors of a pair, in either order. -/
theorem pair_owners (socket : ClientSocket) :
    (([(socket.sessionId, socket.socketFd), (socket.sessionId, socket.peerFd)] : List (Nat × Fd)) :
      Multiset (Nat × Fd)) =
      (socket.sessionId, socket.clientEnd.fd) ::ₘ {(socket.sessionId, socket.clientEnd.peerFd)} := by
  unfold ClientSocket.clientEnd
  split
  · rfl
  · exact Multiset.cons_swap _ _ 0

/-- A pair of sockets that goes gives up two descriptors, its session's and the origin's. -/
theorem owners_unlink (sound : state.ledger.Sound) {socket peer : ClientSocket} {rest : List Socket}
    (perm : state.sockets.Perm (.client socket :: rest))
    (found : lookup Socket.fd socket.peerFd rest = some (.client peer))
    (mirror : peer.link = socket.link.mirror) (opposite : peer.isClientToProxy = !socket.isClientToProxy)
    (settings : Settings) (now : UInt64) :
    state.owners =
      (([(socket.sessionId, socket.socketFd), (socket.sessionId, socket.peerFd)] : List (Nat × Fd)) :
        Multiset (Nat × Fd)) +
      (State.endSession settings now { state with sockets := remove Socket.fd socket.peerFd rest }
        socket.sessionId).owners := by
  have pair := perm.trans ((perm_cons_remove found).cons _)
  have books := ledger_pair pair mirror opposite
  have client : state.ledger.clientEnds = socket.clientEnd ::ₘ
      ({ state with sockets := remove Socket.fd socket.peerFd rest } : State).ledger.clientEnds :=
    congrArg Ledger.clientEnds books
  obtain ⟨session, search, key⟩ :=
    getSession_pair sound (by rw [client]; exact Multiset.mem_cons_self _ _)
  have ended := owners_endSession (show State.getSession
    { state with sockets := remove Socket.fd socket.peerFd rest } socket.sessionId =
      some session from search)
    settings now
  rw [key] at ended
  have sameId : socket.clientEnd.mirror.sessionId = socket.sessionId := clientEnd_sessionId socket
  have server : state.ledger.serverEnds = socket.clientEnd.mirror ::ₘ
      ({ state with sockets := remove Socket.fd socket.peerFd rest } : State).ledger.serverEnds :=
    congrArg Ledger.serverEnds books
  have before : state.owners = (socket.sessionId, socket.clientEnd.peerFd) ::ₘ
      ({ state with sockets := remove Socket.fd socket.peerFd rest } : State).owners := by
    simp only [owners, server, Multiset.map_cons, sameId, Multiset.cons_add, Multiset.add_cons]
    rfl
  rw [before, ended, pair_owners, ← Multiset.singleton_add, ← Multiset.singleton_add,
    ← Multiset.singleton_add]
  abel

theorem erase_pair {openFds : List Fd} {one other : Fd} (isOpen : one ∈ openFds)
    (alsoOpen : other ∈ openFds) (differ : one ≠ other) :
    (((openFds.erase one).erase other : List Fd) : Multiset Fd) + ([one, other] : List Fd) = openFds := by
  have inRest : other ∈ openFds.erase one := (List.mem_erase_of_ne (Ne.symm differ)).mpr alsoOpen
  have first := Multiset.coe_eq_coe.mpr (List.perm_cons_erase isOpen)
  have second := Multiset.coe_eq_coe.mpr (List.perm_cons_erase inRest)
  rw [← Multiset.cons_coe] at first second
  rw [first, second, ← Multiset.cons_coe, ← Multiset.cons_coe]
  simp only [Multiset.coe_nil, Multiset.add_cons, Multiset.add_zero]

theorem Exchanges.of_unlink (sound : state.ledger.Sound) {socket : ClientSocket} {rest : List Socket}
    (perm : state.sockets.Perm (.client socket :: rest)) (now : UInt64) :
    Exchanges state
      ((SocketManager.removeSocket socket.peerFd
        (SocketManager.destroy (.client socket) { state with sockets := rest })).endSession settings now
          socket.sessionId) []
      [(socket.sessionId, socket.socketFd), (socket.sessionId, socket.peerFd)] := by
  obtain ⟨peer, found, mirror, opposite⟩ := lookup_peer sound perm
  have before := owners_unlink sound perm found mirror opposite settings now
  have distinct := owners_nodup sound
  rw [before] at distinct
  have differ : socket.socketFd ≠ socket.peerFd := by
    simp only [Multiset.map_add, Multiset.map_coe] at distinct
    have pair := (Multiset.nodup_add.mp distinct).1
    simpa using pair
  have areOpen : ∀ owner ∈ [(socket.sessionId, socket.socketFd), (socket.sessionId, socket.peerFd)],
      owner.2 ∈ state.openFds := by
    intro owner member
    apply open_of_owners sound
    rw [before]
    exact Multiset.mem_add.mpr (.inl member)
  rw [removeSocket_peer found]
  constructor
  · simp [endSession, close]
  · simp only [List.map_nil, Multiset.coe_nil, Multiset.zero_add]
    exact erase_pair (areOpen (socket.sessionId, socket.socketFd) (by simp))
      (areOpen (socket.sessionId, socket.peerFd) (by simp)) differ
  · rw [before, Multiset.coe_nil, Multiset.zero_add, Multiset.add_comm]
    rfl

/-- A timeout closes the pairs it evicts. -/
theorem evictions_exchange {pruned : State} (sound : state.ledger.Sound)
    (evictions : Relation.ReflTransGen (SocketManager.Evicts settings) state pruned) :
    ∃ closing, Exchanges state pruned [] closing := by
  induction evictions with
  | refl => exact ⟨[], .refl state⟩
  | tail earlier eviction inductionHypothesis =>
    obtain ⟨now, evicted⟩ := eviction
    obtain ⟨closing, exchanged⟩ := inductionHypothesis
    have soundSoFar := Ledger.steps_sound (evictions_ledger sound earlier) sound
    unfold SocketManager.evictOldest at evicted
    split at evicted
    · rename_i first
      cases evicted
      exact ⟨_, exchanged.trans (.of_unlink soundSoFar (perm_cons_eraseP first) now)⟩
    · cases evicted

/-- The descriptor that comes with the message goes to the socket towards the origin. -/
theorem Exchanges.of_register {sessionId : Nat} {proxyFd : Fd} {rest : List Message}
    (pipe : state.pipe = .hostConnectResult sessionId proxyFd true :: rest) (clientFd : Fd) :
    Exchanges state
      (SocketManager.addSocket true (.client (.make proxyFd clientFd sessionId false))
        (SocketManager.addSocket true (.client (.make clientFd proxyFd sessionId true))
          { state with pipe := rest })) [] [] where
  closed := by simp [SocketManager.addSocket]
  openFds := by simp [SocketManager.addSocket]
  owners := by
    have popped := owners_pop pipe
    have holding : (Message.hostConnectResult sessionId proxyFd true).holding =
        some (sessionId, proxyFd) := rfl
    rw [holding] at popped
    rw [popped]
    simp only [State.owners, ledger_addServer, ledger_addClient, Multiset.map_cons, Multiset.coe_nil,
      Multiset.zero_add, Multiset.add_zero, Option.toList_some, Multiset.coe_singleton]
    rw [Multiset.add_cons, Multiset.cons_add, Multiset.singleton_add]
    rfl

theorem Exchanges.of_accept (sound : state.ledger.Sound) {clientFd : Fd}
    (unused : clientFd ∉ state.openFds) {storage : SessionStorage} {now : UInt64} {clientIp : Bytes}
    {sessions : SessionManager} {session : Session}
    (created : state.sessions.createSession storage clientFd now = (sessions, some session)) :
    Exchanges state
      ((State.updateSession { state with sessions, openFds := clientFd :: state.openFds }
        session.sessionId (fun session => session.setClientAddress clientIp)).dispatch
        (.asyncDetector session.sessionId)) [(state.sessions.sessionId, clientFd)] [] where
  closed := by simp [dispatch, updateSession]
  openFds := by simp [dispatch, updateSession]
  owners := by
    have new := createSession_new sound unused storage now
    rw [created] at new
    have keys : sessions.keys = state.sessions.keys ++ [(state.sessions.sessionId, clientFd)] := by
      have made := congrArg Prod.fst created
      simp only [SessionManager.createSession] at made
      rw [← made]
      simp [SessionManager.keys, Session.make, Session.key]
    simp only [State.owners, ledger, dispatch, updateSession,
      SessionManager.update_keys
        (fun _ => rfl : ∀ x : Session, (x.setClientAddress clientIp).key = x.key), keys,
      coe_snoc, Multiset.cons_add, Multiset.coe_nil, Multiset.add_zero, Multiset.coe_singleton,
      Multiset.singleton_add]

/-! ## Workers -/

/-- What a worker's step opens it holds then, or has put into the message it writes. -/
theorem work_exchange {worker : Worker} {input : Input} {after : Option Pc}
    (stepped : worker.step input state = some (next, after))
    (finds : ∀ sockFd, worker.pc ≠ .connect sockFd []) :
    ∃ message : Option Message, next.pipe = state.pipe ++ message.toList ∧ next.closed = state.closed ∧
      next.openFds = (worker.opens input).toList ++ state.openFds ∧
      (∀ written ∈ message, written.sessionId = worker.sessionId) ∧
      (after.bind Pc.held).toList ++ (message.bind Message.held).toList =
        (worker.opens input).toList ++ worker.held.toList := by
  have steps := Worker.steps_of_step stepped
  obtain ⟨sessionId, pc⟩ := worker
  cases steps with
  | detectReply =>
    exact ⟨some (.hostDetectResult sessionId _), rfl, rfl, rfl, by simp [Message.sessionId], rfl⟩
  | exhausted => exact absurd rfl (finds _)
  | abort | giveUp =>
    exact ⟨some (.hostConnectResult sessionId (-1) false), rfl, rfl, rfl,
      by simp [Message.sessionId], rfl⟩
  | connectReply =>
    exact ⟨some (.hostConnectResult sessionId _ true), rfl, rfl, rfl, by simp [Message.sessionId], rfl⟩
  | _ => exact ⟨none, (List.append_nil _).symm, rfl, rfl, by simp, rfl⟩

/-- What a worker holds then and what it has sent, for what it has opened and what it held. -/
theorem exchange_pair {after sent opened held sessions sockets others messages : Multiset (Nat × Fd)}
    (balance : after + sent = opened + held) :
    sessions + sockets + (after + others + (messages + sent)) =
      opened + (sessions + sockets + (held + others + messages)) :=
  calc
    sessions + sockets + (after + others + (messages + sent)) =
        (after + sent) + (sessions + sockets + others + messages) := by abel
    _ = (opened + held) + (sessions + sockets + others + messages) := by rw [balance]
    _ = opened + (sessions + sockets + (held + others + messages)) := by abel

theorem Exchanges.of_work {shared : State} {index : Nat} {worker : Worker} {input : Input}
    {after : Option Pc} (at_ : state.workers[index]? = some worker)
    (stepped : worker.step input state = some (shared, after))
    (finds : ∀ sockFd, worker.pc ≠ .connect sockFd []) {workers : List Worker}
    (holdings : (workers : Multiset Worker).filterMap Worker.holding =
      ((after.bind Pc.held).toList.map (fun fd => (worker.sessionId, fd)) : List (Nat × Fd)) +
        (state.workers.eraseIdx index : Multiset Worker).filterMap Worker.holding) :
    Exchanges state { shared with workers } (state.opens (.work index input)) [] := by
  have frame := step_frame stepped
  obtain ⟨message, pipe, closed, openFds, addressed, balance⟩ := work_exchange stepped finds
  have opened : state.opens (.work index input) =
      (worker.opens input).toList.map (fun fd => (worker.sessionId, fd)) := by
    simp only [opens, at_]
  constructor
  · simpa using closed
  · simp only [opened, openFds, List.map_map, List.map_nil, Multiset.coe_nil, Multiset.add_zero]
    simp [Function.comp_def]
  · have held : worker.holding.toList = worker.held.toList.map (fun fd => (worker.sessionId, fd)) := by
      cases isHeld : worker.held with
      | none => simp [Worker.holding, isHeld]
      | some fd => simp [Worker.holding, isHeld]
    have sent : (message.toList : Multiset Message).filterMap Message.holding =
        ((message.bind Message.held).toList.map (fun fd => (worker.sessionId, fd)) : List (Nat × Fd)) := by
      cases message with
      | none => rfl
      | some message =>
        have sameId : message.sessionId = worker.sessionId := addressed message rfl
        cases isHeld : message.held with
        | none =>
          rw [Multiset.filterMap_coe]
          simp [Message.holding, isHeld]
        | some fd =>
          rw [Multiset.filterMap_coe]
          simp [Message.holding, isHeld, sameId]
    have pairs := congrArg (fun fds => ((fds.map (fun fd => (worker.sessionId, fd)) : List (Nat × Fd)) :
      Multiset (Nat × Fd))) balance
    simp only [List.map_append, ← Multiset.coe_add] at pairs
    have before := coe_eraseIdx at_
    simp only [State.owners, ledger, before, filterMap_cons_toList, held, holdings, pipe, opened,
      frame.keys, frame.sockets, ← Multiset.coe_add, Multiset.filterMap_add, sent, Multiset.coe_nil,
      Multiset.add_zero]
    exact exchange_pair pairs

theorem Exchanges.of_take {task : Task} {queue : List Task} :
    Exchanges state { state with queue, workers := state.workers ++ [task.worker] } [] [] where
  closed := by simp
  openFds := by simp
  owners := by
    have holding : task.worker.holding = none := by cases task <;> rfl
    simp only [State.owners, coe_snoc, Multiset.filterMap_cons_none _ _ holding, Multiset.coe_nil,
      Multiset.add_zero, Multiset.zero_add]
    rfl

/-! ## Every step -/

theorem Exchanges.of_write (state : State) {message : Message} (noHeld : message.held = none) :
    Exchanges state (state.writeMessage message) [] [] where
  closed := by simp [writeMessage]
  openFds := by simp [writeMessage]
  owners := by
    have holding : message.holding = none := by simp [Message.holding, noHeld]
    simp only [State.owners, writeMessage, coe_snoc, Multiset.filterMap_cons_none _ _ holding,
      Multiset.coe_nil, Multiset.add_zero, Multiset.zero_add]
    rfl

theorem Exchanges.of_dispatch (state : State) (task : Task) :
    Exchanges state (state.dispatch task) [] [] :=
  ⟨by simp [dispatch], by simp [dispatch], by simp [State.owners, dispatch, ledger]⟩

theorem Exchanges.of_teardown (sound : state.ledger.Sound) {socket : ClientSocket}
    (search : lookup Socket.fd socket.socketFd state.sockets = some (.client socket)) (now : UInt64) :
    Exchanges state (SocketManager.teardown settings now socket state) []
      [(socket.sessionId, socket.socketFd), (socket.sessionId, socket.peerFd)] := by
  simp only [SocketManager.teardown, SocketManager.removeSocket, search]
  exact .of_unlink sound (perm_cons_remove search) now

/-- An event that ends with both sockets in place exchanges nothing. -/
theorem Exchanges.of_relayed {socket after : ClientSocket}
    (search : lookup Socket.fd socket.socketFd state.sockets = some (.client socket))
    (same : ClientSocket.SameSocket socket after) :
    Exchanges state { state with
      sockets := adjust Socket.fd socket.socketFd (fun _ => .client after) state.sockets } [] [] where
  closed := by simp
  openFds := by simp
  owners := by
    simp only [State.owners, relayed_ledger search same, Multiset.coe_nil, Multiset.add_zero,
      Multiset.zero_add]

theorem reject_exchange (sound : state.ledger.Sound) {message : Message} {rest : List Message}
    (pipe : state.pipe = message :: rest) (noHeld : message.held = none) {current : State}
    (popped : Exchanges { state with pipe := rest } current [] []) {session found : Session}
    (search : current.getSession session.sessionId = some found) (same : session.key = found.key)
    (now : UInt64) (response : Bytes) :
    Exchanges state (SocketManager.reject settings now session response current) [] [session.key] := by
  have before := (Exchanges.of_pop pipe noHeld).trans popped
  have areOpen : ∀ owner ∈ current.owners, owner.2 ∈ current.openFds := by
    intro owner member
    have sameOwners := before.owners
    have sameFds := before.openFds
    simp only [List.append_nil, List.map_nil, Multiset.coe_nil, Multiset.add_zero,
      Multiset.zero_add] at sameOwners sameFds
    rw [sameOwners] at member
    have isOpen := open_of_owners sound member
    rw [← Multiset.mem_coe, sameFds]
    exact isOpen
  exact before.trans (.of_reject areOpen search same now response)

theorem finds_worker {index : Nat} {input : Input} {worker : Worker}
    (finds : FindsConnection state (.work index input)) (at_ : state.workers[index]? = some worker) :
    ∀ sockFd, worker.pc ≠ .connect sockFd [] := by
  intro sockFd exhausted
  apply finds sockFd
  rw [at_, Option.map_some, exhausted]

/-- What a step opens comes in, and what it closes goes. -/
theorem step_exchanges (sound : state.ledger.Sound) {action : Action} (registers : Registers state action)
    (finds : FindsConnection state action) (stepped : state.step settings action = some next) :
    ∃ closing, Exchanges state next (state.opens action) closing ∧
      (closing = [] ∨ state.opens action = []) := by
  cases steps_of_step stepped with
  | accept unused created => exact ⟨[], .of_accept sound unused created, .inl rfl⟩
  | @undetected _ _ _ _ _ session pipe found =>
    have sameId := SessionManager.getSession_sessionId found
    exact ⟨[session.key], reject_exchange sound pipe rfl (.refl _) (sameId ▸ found) rfl _ _, .inr rfl⟩
  | @unconnected _ _ _ _ _ _ session pipe found =>
    have sameId := SessionManager.getSession_sessionId found
    exact ⟨[session.key], reject_exchange sound pipe rfl (.refl _) (sameId ▸ found) rfl _ _, .inr rfl⟩
  | @refused localTime _ _ sessionId rest session response pipe found refusal =>
    have sameId := SessionManager.getSession_sessionId found
    subst sameId
    have unchanged := setVerdictName_key (SocketManager.authorize settings localTime session)
    exact ⟨[session.key], reject_exchange sound pipe rfl (.of_update _ _ unchanged)
      (getSession_update_key unchanged found) (unchanged session).symm _ _, .inr rfl⟩
  | @blocked localTime _ _ sessionId rest session pipe found =>
    have unchanged := setVerdictName_key (SocketManager.authorize settings localTime session)
    have named := (Exchanges.of_pop pipe rfl).trans (.of_update _ sessionId unchanged)
    exact ⟨[], named.trans (.of_write _ rfl), .inl rfl⟩
  | @admitted localTime _ _ sessionId rest session pipe found =>
    have unchanged := setVerdictName_key (SocketManager.authorize settings localTime session)
    have named := (Exchanges.of_pop pipe rfl).trans (.of_update _ sessionId unchanged)
    exact ⟨[], named.trans (.of_dispatch _ _), .inl rfl⟩
  | connected pipe found =>
    cases registers
    exact ⟨[], .of_register pipe _, .inl rfl⟩
  | @teardown fd now _ _ _ socket search =>
    obtain rfl := Socket.socketFd_of_lookup search
    exact ⟨_, .of_teardown sound search now, .inr rfl⟩
  | @relayed fd _ _ _ _ socket _ _ _ _ search same found =>
    obtain rfl := Socket.socketFd_of_lookup search
    exact ⟨[], (Exchanges.of_relayed search same).trans (.of_update _ _ (countBytes_key socket _ _)), .inl rfl⟩
  | timeout evictions =>
    obtain ⟨closing, exchanged⟩ := evictions_exchange sound evictions
    exact ⟨closing, exchanged, .inr rfl⟩
  | logged evictions =>
    obtain ⟨closing, exchanged⟩ := evictions_exchange sound evictions
    exact ⟨closing, ⟨exchanged.closed, exchanged.openFds, exchanged.owners⟩, .inr rfl⟩
  | take first => exact ⟨[], .of_take, .inl rfl⟩
  | @moved _ _ worker _ pc at_ worked =>
    refine ⟨[], .of_work at_ worked (finds_worker finds at_) ?_, .inl rfl⟩
    have held : ({ worker with pc } : Worker).holding.toList =
        ((some pc).bind Pc.held).toList.map (fun fd => (worker.sessionId, fd)) := by
      cases isHeld : pc.held with
      | none => simp [Worker.holding, Worker.held, isHeld]
      | some fd => simp [Worker.holding, Worker.held, isHeld]
    rw [(step_frame worked).workers, coe_set at_, filterMap_cons_toList, held]
  | done at_ worked =>
    refine ⟨[], .of_work at_ worked (finds_worker finds at_) ?_, .inl rfl⟩
    rw [(step_frame worked).workers, Option.bind_none, Option.toList_none, List.map_nil, Multiset.coe_nil,
      Multiset.zero_add]

/-- Only a descriptor that is not open is opened, and one at a time. -/
theorem opens_unused {action : Action} (stepped : state.step settings action = some next) :
    state.opens action = [] ∨
      ∃ sessionId, ∃ fd ∉ state.openFds, state.opens action = [(sessionId, fd)] := by
  cases action with
  | accept storage now clientFd clientIp =>
    simp only [step] at stepped
    split at stepped
    · cases stepped
    · rename_i unused
      exact .inr ⟨_, clientFd, unused, rfl⟩
  | work index input =>
    simp only [step, work] at stepped
    simp only [opens]
    split at stepped
    · cases stepped
    · rename_i worker at_
      rw [at_]
      cases opened : worker.opens input with
      | none => exact .inl (by simp [opened])
      | some fd =>
        refine .inr ⟨worker.sessionId, fd, ?_, by simp [opened]⟩
        intro isOpen
        unfold Worker.opens at opened
        split at opened
        · rename_i isSocket
          subst opened
          simp [Worker.step, isSocket, isOpen] at stepped
        · cases opened
  | _ => exact .inl rfl

/-! ## Whole runs -/

/-- The session has ended, and no task, worker or message of it is left. -/
structure Ended (state : State) (sessionId : Nat) : Prop where
  session : state.getSession sessionId = none
  queue : ∀ task ∈ state.queue, task.sessionId ≠ sessionId
  workers : ∀ worker ∈ state.workers, worker.sessionId ≠ sessionId
  pipe : ∀ message ∈ state.pipe, message.sessionId ≠ sessionId

instance (sessionId : Nat) : Decidable (state.Ended sessionId) :=
  decidable_of_iff (state.getSession sessionId = none ∧
    (∀ task ∈ state.queue, task.sessionId ≠ sessionId) ∧
      (∀ worker ∈ state.workers, worker.sessionId ≠ sessionId) ∧
      ∀ message ∈ state.pipe, message.sessionId ≠ sessionId)
    ⟨fun ⟨session, queue, workers, pipe⟩ => ⟨session, queue, workers, pipe⟩,
      fun ended => ⟨ended.session, ended.queue, ended.workers, ended.pipe⟩⟩

theorem Ended.not_owner {sessionId : Nat} (ended : state.Ended sessionId) (sound : state.ledger.Sound)
    (fd : Fd) :
    (sessionId, fd) ∉ state.owners := by
  intro owner
  simp only [owners, Multiset.mem_add] at owner
  rcases owner with (inSessions | inSockets) | inWorkers | inPipe
  · obtain ⟨session, found, -⟩ := getSession_of_key sound inSessions
    rw [ended.session] at found
    cases found
  · obtain ⟨e, isEnd, same⟩ := Multiset.mem_map.mp inSockets
    obtain ⟨socket, member, rfl, -⟩ := mem_ends.mp isEnd
    obtain ⟨session, found⟩ := live_of_token sound (token_of_socket sound member)
    have sameId : socket.sessionId = sessionId := congrArg Prod.fst same
    rw [sameId, ended.session] at found
    cases found
  · obtain ⟨worker, member, holding⟩ := (Multiset.mem_filterMap _ _).mp inWorkers
    obtain ⟨held, -, same⟩ := Option.map_eq_some_iff.mp holding
    exact ended.workers worker member (congrArg Prod.fst same)
  · obtain ⟨message, member, holding⟩ := (Multiset.mem_filterMap _ _).mp inPipe
    obtain ⟨held, -, same⟩ := Option.map_eq_some_iff.mp holding
    exact ended.pipe message member (congrArg Prod.fst same)

/-- Whether this step of a run gives out the number. -/
def Reopens (fd : Fd) (entry : State × Action) : Prop := fd ∈ (entry.1.opens entry.2).map Prod.snd

instance (fd : Fd) : DecidablePred (Reopens fd) :=
  fun entry => inferInstanceAs (Decidable (fd ∈ (entry.1.opens entry.2).map Prod.snd))

/-- The state in which the number is next given out, or else the last one. -/
def untilReopened (fd : Fd) (after : History) (state : State) : State :=
  match after.find? (fun entry => Reopens fd entry) with
  | some (reopening, _) => reopening
  | none => state

/-- Since its opening the descriptor has been closed once; where its number has been given out again
since, that is counted until then. -/
def ClosedOnce (fd : Fd) (opening : State) (after : History) (state : State) : Prop :=
  (untilReopened fd after state).closed.count fd = opening.closed.count fd + 1

instance (fd : Fd) (opening : State) (after : History) (state : State) :
    Decidable (ClosedOnce fd opening after state) :=
  inferInstanceAs (Decidable ((untilReopened fd after state).closed.count fd =
    opening.closed.count fd + 1))

/-- What has become of a descriptor that was opened for a session. -/
inductive Fate (opening : State) (sessionId : Nat) (fd : Fd) (after : History) (state : State) : Prop
  | owned (kept : ∀ entry ∈ after, ¬ Reopens fd entry) (owner : (sessionId, fd) ∈ state.owners)
      (isOpen : state.openFds.count fd = 1) (closed : state.closed.count fd = opening.closed.count fd)
  | closed (kept : ∀ entry ∈ after, ¬ Reopens fd entry) (gone : state.openFds.count fd = 0)
      (once : state.closed.count fd = opening.closed.count fd + 1)
  | reopened {entry : State × Action} (first : after.find? (fun entry => Reopens fd entry) = some entry)
      (once : entry.1.closed.count fd = opening.closed.count fd + 1)

theorem Exchanges.count_closed {opening closing : List (Nat × Fd)}
    (exchanged : Exchanges state next opening closing) (fd : Fd) :
    next.closed.count fd = state.closed.count fd + (closing.map Prod.snd).count fd := by
  rw [exchanged.closed, List.count_append]

theorem Exchanges.count_open {opening closing : List (Nat × Fd)}
    (exchanged : Exchanges state next opening closing) (fd : Fd) :
    next.openFds.count fd + (closing.map Prod.snd).count fd =
      (opening.map Prod.snd).count fd + state.openFds.count fd := by
  have counts := congrArg (Multiset.count fd) exchanged.openFds
  simpa only [Multiset.count_add, Multiset.coe_count] using counts

theorem not_reopens_of_open {action : Action} (stepped : state.step settings action = some next) {fd : Fd}
    (isOpen : fd ∈ state.openFds) : ¬ Reopens fd (state, action) := by
  intro reopens
  simp only [Reopens] at reopens
  rcases opens_unused stepped with none | ⟨sessionId, other, unused, one⟩
  · simp [none] at reopens
  · simp only [one, List.map_cons, List.map_nil, List.mem_singleton] at reopens
    exact unused (reopens ▸ isOpen)

/-- The descriptor that a step opens. -/
theorem Fate.start (sound : state.ledger.Sound) {action : Action} (registers : Registers state action)
    (finds : FindsConnection state action) (stepped : state.step settings action = some next)
    {sessionId : Nat} {fd : Fd} (opened : (sessionId, fd) ∈ state.opens action) :
    Fate state sessionId fd [] next := by
  obtain ⟨closing, exchanged, apart⟩ := step_exchanges sound registers finds stepped
  rcases opens_unused stepped with none | ⟨owner, other, unused, one⟩
  · simp [none] at opened
  · rw [one, List.mem_singleton] at opened
    cases opened
    have closesNone : closing = [] := by
      rcases apart with closesNone | opensNone
      · exact closesNone
      · simp [one] at opensNone
    subst closesNone
    rw [one] at exchanged
    refine .owned (by simp) ?_ ?_ ?_
    · have owners := exchanged.owners
      rw [Multiset.coe_nil, Multiset.add_zero] at owners
      rw [owners]
      exact Multiset.mem_add.mpr (.inl (List.mem_cons_self ..))
    · have count := exchanged.count_open fd
      have absent := List.count_eq_zero.mpr unused
      simp only [List.map_nil, List.count_nil, List.map_cons, List.count_singleton_self] at count
      omega
    · exact exchanged.count_closed fd

/-- A descriptor that a step closes has its only owner among the pairs that go. -/
theorem Exchanges.closes_owner (sound : state.ledger.Sound) {opening closing : List (Nat × Fd)}
    (exchanged : Exchanges state next opening closing) {sessionId : Nat} {fd : Fd}
    (owner : (sessionId, fd) ∈ state.owners) (fresh : fd ∉ opening.map Prod.snd)
    (closes : fd ∈ closing.map Prod.snd) : (sessionId, fd) ∈ closing := by
  obtain ⟨⟨other, closed⟩, member, same⟩ := List.mem_map.mp closes
  change closed = fd at same
  subst same
  have otherOwner : (other, closed) ∈ state.owners := by
    have inBoth : (other, closed) ∈ next.owners + (closing : Multiset (Nat × Fd)) :=
      Multiset.mem_add.mpr (.inr member)
    rw [exchanged.owners] at inBoth
    rcases Multiset.mem_add.mp inBoth with opened | older
    · exact absurd (List.mem_map_of_mem (f := Prod.snd) (Multiset.mem_coe.mp opened)) fresh
    · exact older
  have same := Multiset.inj_on_of_nodup_map (owners_nodup sound) _ owner _ otherOwner rfl
  rw [same]
  exact member

theorem forall_snoc {α : Type*} {property : α → Prop} {list : List α} {last : α}
    (all : ∀ x ∈ list, property x) (holds : property last) : ∀ x ∈ list ++ [last], property x := by
  intro x member
  rcases List.mem_append.mp member with older | same
  · exact all x older
  · rwa [List.mem_singleton.mp same]

theorem find_of_kept {fd : Fd} {after : History} (kept : ∀ entry ∈ after, ¬ Reopens fd entry) :
    after.find? (fun entry => Reopens fd entry) = none :=
  List.find?_eq_none.mpr (by simpa using kept)

theorem Fate.step_owned {opening : State} {sessionId : Nat} {fd : Fd} {after : History} {action : Action}
    {closing : List (Nat × Fd)} (sound : state.ledger.Sound)
    (exchanged : Exchanges state next (state.opens action) closing)
    (stays : ¬ Reopens fd (state, action)) (kept : ∀ entry ∈ after, ¬ Reopens fd entry)
    (owner : (sessionId, fd) ∈ state.owners) (isOpen : state.openFds.count fd = 1)
    (closed : state.closed.count fd = opening.closed.count fd) :
    Fate opening sessionId fd (after ++ [(state, action)]) next := by
  have keptLonger := forall_snoc kept stays
  have countClosed := exchanged.count_closed fd
  have countOpen := exchanged.count_open fd
  have noOpening : ((state.opens action).map Prod.snd).count fd = 0 := List.count_eq_zero.mpr stays
  by_cases gives : (sessionId, fd) ∈ closing
  · have closes : 0 < (closing.map Prod.snd).count fd :=
      List.count_pos_iff.mpr (List.mem_map_of_mem (f := Prod.snd) gives)
    exact .closed keptLonger (by omega) (by omega)
  · have notClosed : (closing.map Prod.snd).count fd = 0 :=
      List.count_eq_zero.mpr (fun closes => gives (exchanged.closes_owner sound owner stays closes))
    refine .owned keptLonger ?_ (by omega) (by omega)
    have before : (sessionId, fd) ∈ (state.opens action : Multiset (Nat × Fd)) + state.owners :=
      Multiset.mem_add.mpr (.inr owner)
    rw [← exchanged.owners] at before
    rcases Multiset.mem_add.mp before with still | given
    · exact still
    · exact absurd given gives

theorem Fate.step {opening : State} {sessionId : Nat} {fd : Fd} {after : History} {action : Action}
    (fate : Fate opening sessionId fd after state) (sound : state.ledger.Sound)
    (registers : Registers state action) (finds : FindsConnection state action)
    (stepped : state.step settings action = some next) :
    Fate opening sessionId fd (after ++ [(state, action)]) next := by
  obtain ⟨closing, exchanged, -⟩ := step_exchanges sound registers finds stepped
  cases fate with
  | owned kept owner isOpen closed =>
    have stays := not_reopens_of_open stepped (open_of_owners sound owner)
    exact Fate.step_owned sound exchanged stays kept owner isOpen closed
  | closed kept gone once =>
    by_cases reopens : Reopens fd (state, action)
    · have first : (after ++ [(state, action)]).find? (fun entry => Reopens fd entry) =
          some (state, action) := by
        rw [List.find?_append, find_of_kept kept, Option.none_or, List.find?_singleton]
        simp [reopens]
      exact .reopened first once
    · have countClosed := exchanged.count_closed fd
      have countOpen := exchanged.count_open fd
      have noOpening : ((state.opens action).map Prod.snd).count fd = 0 := List.count_eq_zero.mpr reopens
      exact .closed (forall_snoc kept reopens) (by omega) (by omega)
  | reopened first once =>
    refine .reopened ?_ once
    rw [List.find?_append, first, Option.some_or]

theorem Fate.closedOnce {opening : State} {sessionId : Nat} {fd : Fd} {after : History}
    (fate : Fate opening sessionId fd after state) (given : (sessionId, fd) ∉ state.owners) :
    ClosedOnce fd opening after state := by
  unfold ClosedOnce untilReopened
  cases fate with
  | owned _ owner _ _ => exact absurd owner given
  | closed kept _ once =>
    rw [find_of_kept kept]
    exact once
  | reopened first once =>
    rw [first]
    exact once

/-! ## Closing what is one's own -/

/-- Whose a descriptor is, among the sessions and the registered sockets: that of a session, or of
none for the listening socket and the pipe. -/
inductive Owns (state : State) (fd : Fd) : Option Nat → Prop
  | session {session : Session} (live : session ∈ state.sessions.sessionList) (on : session.clientFd = fd) :
      Owns state fd (some session.sessionId)
  | socket {socket : ClientSocket} (registered : .client socket ∈ state.sockets) (on : socket.socketFd = fd) :
      Owns state fd (some socket.sessionId)
  | fixed {socket : Socket} (registered : socket ∈ state.sockets) (on : socket.fixedFd = some fd) :
      Owns state fd none

/-- What a session or one of its sockets has is among the books' owners. -/
theorem Owns.owner (sound : state.ledger.Sound) {fd : Fd} {sessionId : Nat}
    (owns : state.Owns fd (some sessionId)) : (sessionId, fd) ∈ state.owners := by
  cases owns with
  | session live on =>
    rename_i session
    have inSessions : session.key ∈ state.ledger.sessions := List.mem_map_of_mem live
    rw [Session.key, on] at inSessions
    exact Multiset.mem_add.mpr (.inl (Multiset.mem_add.mpr (.inl inSessions)))
  | socket registered on =>
    rename_i socket
    subst on
    cases direction : socket.isClientToProxy with
    | true =>
      have linked := sound.linked socket.link (mem_ends.mpr ⟨socket, registered, rfl, direction⟩)
      exact Multiset.mem_add.mpr (.inl (Multiset.mem_add.mpr (.inl linked)))
    | false =>
      have isEnd : socket.link ∈ state.ledger.serverEnds :=
        mem_ends.mpr ⟨socket, registered, rfl, direction⟩
      have isOwner := Multiset.mem_map_of_mem (fun e : End => (e.sessionId, e.fd)) isEnd
      exact Multiset.mem_add.mpr (.inl (Multiset.mem_add.mpr (.inr isOwner)))

theorem Owns.mem_fixed {fd : Fd} (owns : state.Owns fd none) : fd ∈ state.ledger.fixed := by
  cases owns with
  | fixed registered on => exact (Multiset.mem_filterMap _ _).mpr ⟨_, Multiset.mem_coe.mpr registered, on⟩

theorem not_fixed_of_owner (sound : state.ledger.Sound) {sessionId : Nat} {fd : Fd}
    (owner : (sessionId, fd) ∈ state.owners) : fd ∉ state.ledger.fixed := by
  have nodup := sound.owned_nodup
  rw [← owners_map_snd] at nodup
  exact Multiset.disjoint_left.mp (Multiset.nodup_add.mp nodup).2.2 (Multiset.mem_map_of_mem Prod.snd owner)

theorem Owns.unique (sound : state.ledger.Sound) {sessionId : Nat} {fd : Fd}
    (owner : (sessionId, fd) ∈ state.owners) {whose : Option Nat} (owns : state.Owns fd whose) :
    whose = some sessionId := by
  cases whose with
  | none => exact absurd owns.mem_fixed (not_fixed_of_owner sound owner)
  | some other =>
    have same := Multiset.inj_on_of_nodup_map (owners_nodup sound) _ (owns.owner sound) _ owner rfl
    exact congrArg some (congrArg Prod.fst same)

/-- What the step closes belongs to nobody but the session it is closed for, and to nobody then. -/
def ClosesOwn (state next : State) : Prop :=
  ∃ closing : List (Nat × Fd), next.closed = state.closed ++ closing.map Prod.snd ∧
    (closing.map Prod.snd).Nodup ∧
    ∀ pair ∈ closing, (∀ whose, state.Owns pair.2 whose → whose = some pair.1) ∧
      ∀ whose, ¬ next.Owns pair.2 whose

theorem step_closesOwn (sound : state.ledger.Sound) {action : Action} (registers : Registers state action)
    (finds : FindsConnection state action) (stepped : state.step settings action = some next) :
    ClosesOwn state next := by
  obtain ⟨closing, exchanged, apart⟩ := step_exchanges sound registers finds stepped
  refine ⟨closing, exchanged.closed, ?_⟩
  rcases apart with rfl | opensNone
  · simp
  · have owners : state.owners = next.owners + (closing : Multiset (Nat × Fd)) := by
      rw [exchanged.owners, opensNone, Multiset.coe_nil, Multiset.zero_add]
    have nodup := owners_nodup sound
    rw [owners, Multiset.map_add, Multiset.nodup_add] at nodup
    obtain ⟨-, closingNodup, disjoint⟩ := nodup
    refine ⟨by simpa using closingNodup, fun pair member => ?_⟩
    have owner : pair ∈ state.owners := by
      rw [owners]
      exact Multiset.mem_add.mpr (.inr member)
    refine ⟨fun whose owns => owns.unique sound owner, fun whose owns => ?_⟩
    have steps := step_ledger sound registers stepped
    cases whose with
    | none =>
      have isFixed := owns.mem_fixed
      rw [Ledger.steps_fixed steps] at isFixed
      exact not_fixed_of_owner sound owner isFixed
    | some other =>
      have stays := Multiset.mem_map_of_mem Prod.snd (owns.owner (Ledger.steps_sound steps sound))
      have goes := Multiset.mem_map_of_mem Prod.snd (Multiset.mem_coe.mpr member)
      exact Multiset.disjoint_left.mp disjoint stays goes

/-- While no connector runs out of addresses, everything that was opened for a session is closed
exactly once, and nothing is closed that belongs to another session or socket. -/
theorem closed_once {history : History}
    (run : Run (proxySystem settings)
      (fun state action => Registers state action ∧ FindsConnection state action) history state) :
    (∀ before opening action after, history = before ++ (opening, action) :: after →
      ∀ sessionId fd, (sessionId, fd) ∈ opening.opens action → state.Ended sessionId →
        ClosedOnce fd opening after state) ∧
    (state.sockets.map Socket.fd).Nodup ∧
    ∀ action next, Registers state action → FindsConnection state action →
      state.step settings action = some next → ClosesOwn state next := by
  have soundOf : ∀ {history : History} {state : State}, Run (proxySystem settings)
      (fun state action => Registers state action ∧ FindsConnection state action) history state →
      state.ledger.Sound := fun run => run_sound (run.weaken (fun _ _ permitted => permitted.1))
  have sound := soundOf run
  refine ⟨?_, fds_nodup sound, fun action next registers finds stepped =>
    step_closesOwn sound registers finds stepped⟩
  rintro before opening action after rfl sessionId fd opened ended
  have fate : Fate opening sessionId fd after state := by
    refine run.since (Fate opening sessionId fd) ?_ ?_
    · intro next earlier permitted steps
      exact Fate.start (soundOf earlier) permitted.1 permitted.2 steps opened
    · intro after state action next earlier fate permitted steps
      exact fate.step (soundOf earlier) permitted.1 permitted.2 steps
  exact fate.closedOnce (ended.not_owner sound fd)

/-- The events until a first client that is relayed has hung up. -/
def hangUp : List Action :=
  connect ++ [.command none 10 (true, true), .relay 5 11 (fun _ => 0) [.endOfStream] [],
    .relay 5 12 (fun _ => 0) [] []]

/-- A client that is relayed hangs up: both descriptors of its session have been closed. -/
theorem closed_once_hangup : ∃ (opening : State) (after : History) (state : State),
    opening.opens (.work 0 (.socket (some 6))) = [(0, 6)] ∧ state.closed = [5, 6] ∧
      ClosedOnce 6 opening after state := by
  have executed : ∃ history state opening action,
      runActions (State.step unrestricted) [] (initial 3 4 [3, 4] 0) hangUp = some (history, state) ∧
      (∀ entry ∈ history, Registers entry.1 entry.2 ∧ FindsConnection entry.1 entry.2) ∧
      history[15]? = some (opening, action) ∧ action = .work 0 (.socket (some 6)) ∧
      opening.opens action = [(0, 6)] ∧ state.Ended 0 ∧ state.closed = [5, 6] :=
    ⟨_, _, _, _, rfl, by decide, rfl, rfl, by decide, by decide, by decide⟩
  obtain ⟨history, state, opening, action, executed, permitted, at_, rfl, opened, ended, closed⟩ :=
    executed
  have run : Run (proxySystem unrestricted)
      (fun state action => Registers state action ∧ FindsConnection state action) history state :=
    (run_of_executed (List.forall_mem_append.mpr ⟨registers_connect, by simp [Registers]⟩) executed).recorded
      permitted
  have once := (closed_once run).1 _ opening _ _ (split_history at_) 0 6 (by simp [opened]) ended
  exact ⟨opening, _, state, opened, closed, once⟩

/-- The origin refuses the connection: when the client has been told and nothing of its session is
left, the connector's socket has never been closed. -/
theorem socket_never_closed :
    ¬ ∀ settings history state, Run (proxySystem settings) Registers history state →
      ∀ before opening action after, history = before ++ (opening, action) :: after →
        ∀ sessionId fd, (sessionId, fd) ∈ opening.opens action → state.Ended sessionId →
          ClosedOnce fd opening after state := by
  intro claim
  have executed : ∃ history state opening action,
      runActions (State.step unrestricted) [] (initial 3 4 [3, 4] 0) (refuse ++ [.work 0 (.freed [])]) =
        some (history, state) ∧
      history[15]? = some (opening, action) ∧ opening.opens action = [(0, 6)] ∧ state.Ended 0 ∧
      ¬ ClosedOnce 6 opening (history.drop 16) state :=
    ⟨_, _, _, _, rfl, rfl, by decide, by decide, by decide⟩
  obtain ⟨history, state, opening, action, executed, at_, opened, ended, leaked⟩ := executed
  have run := run_of_executed (List.forall_mem_append.mpr ⟨registers_refuse, by simp [Registers]⟩) executed
  have once := claim unrestricted history state run _ opening action _ (split_history at_) 0 6
    (by simp [opened]) ended
  exact leaked once

end State

end NermalProxy
