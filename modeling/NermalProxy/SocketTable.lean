import NermalProxy.Registration

/-! # The registered sockets

What a step does to `m_sockets`: relay sockets come and go in pairs, all of one session; the
listening socket and the pipe stay. -/

namespace NermalProxy

open NermalProxy.CString NermalProxy.KeyedList NermalProxy.Config NermalProxy.Transition

/-- What identifies a registered socket: all but whether it is active. -/
def Socket.identity : Socket → Socket
  | .client socket => .client { socket with isActive := false }
  | socket => socket

theorem Socket.fd_of_identity {one other : Socket} (same : one.identity = other.identity) :
    one.fd = other.fd := by
  have byIdentity : ∀ socket : Socket, socket.fd = socket.identity.fd := by
    intro socket
    cases socket <;> rfl
  rw [byIdentity one, same, ← byIdentity other]

theorem identity_of_sameSocket {socket after : ClientSocket}
    (same : ClientSocket.SameSocket socket after) :
    (Socket.client after).identity = (Socket.client socket).identity := by
  rw [same]
  rfl

/-- Not a relay socket. -/
def Socket.listener? : Socket → Option Socket
  | .client _ => none
  | socket => some socket

/-- The relay socket of a session. -/
def Socket.ofSession? (sessionId : Nat) : Socket → Option ClientSocket
  | .client socket => if socket.sessionId = sessionId then some socket else none
  | _ => none

/-! ## Parts of a list that an operation does not reach -/

section Lists

variable {α β κ : Type*} [DecidableEq κ] {part : α → Option β}

theorem filterMap_eraseP {p : α → Bool} {list : List α} {x : α} (found : list.find? p = some x)
    (outside : part x = none) : (list.eraseP p).filterMap part = list.filterMap part := by
  induction list with
  | nil => rfl
  | cons y list inductionHypothesis =>
    by_cases here : p y = true
    · rw [List.find?_cons_of_pos here] at found
      cases found
      rw [List.eraseP_cons_of_pos here, List.filterMap_cons_none outside]
    · rw [List.find?_cons_of_neg here] at found
      rw [List.eraseP_cons_of_neg here, List.filterMap_cons, List.filterMap_cons,
        inductionHypothesis found]

theorem filterMap_adjust {key : α → κ} {k : κ} {change : α → α} {list : List α} {x : α}
    (found : lookup key k list = some x) (same : part (change x) = part x) :
    (adjust key k change list).filterMap part = list.filterMap part := by
  induction list with
  | nil => rfl
  | cons y list inductionHypothesis =>
    rw [lookup_cons] at found
    simp only [adjust]
    by_cases here : key y = k
    · rw [if_pos here] at found
      cases found
      rw [if_pos here, List.filterMap_cons, List.filterMap_cons, same]
    · rw [if_neg here] at found
      rw [if_neg here, List.filterMap_cons, List.filterMap_cons, inductionHypothesis found]

end Lists

namespace State

variable {state next : State} {settings : Settings}

/-- The listening socket and the pipe. -/
def listeners (state : State) : List Socket := state.sockets.filterMap Socket.listener?

theorem socketsOf_eq (state : State) (sessionId : Nat) :
    state.socketsOf sessionId = state.sockets.filterMap (Socket.ofSession? sessionId) := by
  unfold socketsOf
  induction state.sockets with
  | nil => rfl
  | cons socket sockets inductionHypothesis =>
    cases socket with
    | server fd => exact inductionHypothesis
    | command fd => exact inductionHypothesis
    | client socket =>
      rw [List.filterMap_cons_some (show Socket.client? (.client socket) = some socket from rfl)]
      by_cases same : socket.sessionId = sessionId
      · rw [List.filterMap_cons_some (show Socket.ofSession? sessionId (.client socket) = some socket from
          if_pos same), List.filter_cons_of_pos (by simpa using same), inductionHypothesis]
      · rw [List.filterMap_cons_none
            (show Socket.ofSession? sessionId (.client socket) = none from if_neg same),
          List.filter_cons_of_neg (by simpa using same), inductionHypothesis]

/-! ## Removing a pair -/

theorem unlink_filterMap {β : Type*} {part : Socket → Option β} (sound : state.ledger.Sound)
    {p : Socket → Bool} {socket : ClientSocket} (first : state.sockets.find? p = some (.client socket))
    (outside : ∀ other : ClientSocket, other.sessionId = socket.sessionId → part (.client other) = none)
    (now : UInt64) :
    ((SocketManager.removeSocket socket.peerFd
      (SocketManager.destroy (.client socket) { state with sockets := state.sockets.eraseP p })).endSession
        settings now socket.sessionId).sockets.filterMap part = state.sockets.filterMap part := by
  obtain ⟨peer, found, mirror, -⟩ := lookup_peer sound (perm_cons_eraseP first)
  have samePeer : peer.sessionId = socket.sessionId := congrArg End.sessionId mirror
  rw [removeSocket_peer found]
  exact (filterMap_eraseP found (outside peer samePeer)).trans (filterMap_eraseP first (outside socket rfl))

theorem unlink_older (sound : state.ledger.Sound) {p : Socket → Bool} {socket : ClientSocket}
    (first : state.sockets.find? p = some (.client socket)) (now : UInt64) {registered : Socket}
    (member : registered ∈ ((SocketManager.removeSocket socket.peerFd
      (SocketManager.destroy (.client socket) { state with sockets := state.sockets.eraseP p })).endSession
        settings now socket.sessionId).sockets) :
    registered ∈ state.sockets := by
  obtain ⟨peer, found, -, -⟩ := lookup_peer sound (perm_cons_eraseP first)
  rw [removeSocket_peer found] at member
  exact List.mem_of_mem_eraseP (mem_of_mem_remove member)

theorem teardown_eq {socket : ClientSocket}
    (search : lookup Socket.fd socket.socketFd state.sockets = some (.client socket)) (now : UInt64) :
    SocketManager.teardown settings now socket state =
      (SocketManager.removeSocket socket.peerFd (SocketManager.destroy (.client socket)
        { state with sockets := remove Socket.fd socket.socketFd state.sockets })).endSession settings now
          socket.sessionId := by
  simp only [SocketManager.teardown, SocketManager.removeSocket, search]

/-- What a turn of the pruning loop does. -/
theorem evicts_unlink (evicts : SocketManager.Evicts settings state next) :
    ∃ socket now, state.sockets.find? SocketManager.isClient = some (.client socket) ∧
      next = (SocketManager.removeSocket socket.peerFd (SocketManager.destroy (.client socket)
        { state with sockets := state.sockets.eraseP SocketManager.isClient })).endSession settings now
          socket.sessionId := by
  obtain ⟨now, evicted⟩ := evicts
  unfold SocketManager.evictOldest at evicted
  split at evicted
  · rename_i first
    cases evicted
    exact ⟨_, now, first, rfl⟩
  · cases evicted

theorem evictions_listeners {pruned : State} (sound : state.ledger.Sound)
    (evictions : Relation.ReflTransGen (SocketManager.Evicts settings) state pruned) :
    pruned.listeners = state.listeners := by
  induction evictions with
  | refl => rfl
  | tail earlier eviction inductionHypothesis =>
    obtain ⟨socket, now, first, rfl⟩ := evicts_unlink eviction
    have soundSoFar := Ledger.steps_sound (evictions_ledger sound earlier) sound
    exact (unlink_filterMap soundSoFar first (fun _ _ => rfl) now).trans inductionHypothesis

theorem evictions_older {pruned : State} (sound : state.ledger.Sound)
    (evictions : Relation.ReflTransGen (SocketManager.Evicts settings) state pruned) :
    ∀ socket ∈ pruned.sockets, socket ∈ state.sockets := by
  induction evictions with
  | refl => exact fun _ member => member
  | tail earlier eviction inductionHypothesis =>
    intro registered member
    obtain ⟨socket, now, first, rfl⟩ := evicts_unlink eviction
    have soundSoFar := Ledger.steps_sound (evictions_ledger sound earlier) sound
    exact inductionHypothesis registered (unlink_older soundSoFar first now member)

/-! ## Every step -/

theorem step_listeners (sound : state.ledger.Sound) {action : Action} (registers : Registers state action)
    (stepped : state.step settings action = some next) : next.listeners = state.listeners := by
  cases steps_of_step stepped with
  | connected pipe found =>
    cases registers
    simp [listeners, SocketManager.addSocket_sockets, Socket.listener?]
  | teardown search =>
    obtain rfl := Socket.socketFd_of_lookup search
    rw [teardown_eq search]
    exact unlink_filterMap sound search (fun _ _ => rfl) _
  | relayed search same found =>
    obtain rfl := Socket.socketFd_of_lookup search
    exact filterMap_adjust search rfl
  | timeout evictions => exact evictions_listeners sound evictions
  | logged evictions =>
    have same := evictions_listeners sound evictions
    exact same
  | moved at_ worked => exact congrArg (List.filterMap Socket.listener?) (step_frame worked).sockets
  | done at_ worked => exact congrArg (List.filterMap Socket.listener?) (step_frame worked).sockets
  | _ => rfl

/-- What is registered after a step was so before, or a message has had its pair registered. -/
theorem step_older (sound : state.ledger.Sound) {action : Action}
    (stepped : state.step settings action = some next) {socket : Socket}
    (member : socket ∈ next.sockets) :
    (∃ before ∈ state.sockets, before.identity = socket.identity) ∨
      ∃ localTime now registered sessionId proxyFd rest session,
        action = .command localTime now registered ∧
        state.pipe = .hostConnectResult sessionId proxyFd true :: rest ∧
        state.getSession sessionId = some session ∧
        (socket.fd = session.clientFd ∨ socket.fd = proxyFd) := by
  have kept : socket ∈ state.sockets → ∃ before ∈ state.sockets, before.identity = socket.identity :=
    fun older => ⟨socket, older, rfl⟩
  cases steps_of_step stepped with
  | @connected localTime now registered sessionId proxyFd rest session pipe found =>
    rw [SocketManager.addSocket_sockets, SocketManager.addSocket_sockets] at member
    rcases List.mem_append.mp member with earlier | proxy
    · rcases List.mem_append.mp earlier with older | client
      · exact .inl (kept older)
      · split at client
        · rw [List.mem_singleton.mp client]
          exact .inr ⟨localTime, now, registered, sessionId, proxyFd, rest, session, rfl, pipe,
            found, .inl rfl⟩
        · cases client
    · split at proxy
      · rw [List.mem_singleton.mp proxy]
        exact .inr ⟨localTime, now, registered, sessionId, proxyFd, rest, session, rfl, pipe, found,
          .inr rfl⟩
      · cases proxy
  | teardown search =>
    obtain rfl := Socket.socketFd_of_lookup search
    rw [teardown_eq search] at member
    exact .inl (kept (unlink_older sound search _ member))
  | @relayed _ _ _ _ _ one after _ _ _ search same found =>
    obtain rfl := Socket.socketFd_of_lookup search
    rcases List.mem_cons.mp ((perm_cons_adjust search).subset member) with rfl | older
    · exact .inl ⟨.client one, mem_of_lookup search, (identity_of_sameSocket same).symm⟩
    · exact .inl (kept (mem_of_mem_remove older))
  | timeout evictions => exact .inl (kept (evictions_older sound evictions socket member))
  | logged evictions => exact .inl (kept (evictions_older sound evictions socket member))
  | moved at_ worked => exact .inl (kept ((step_frame worked).sockets ▸ member))
  | done at_ worked => exact .inl (kept ((step_frame worked).sockets ▸ member))
  | _ => exact .inl (kept member)

theorem worker_pipe {worker : Worker} {input : Input} {after : Option Pc}
    (stepped : worker.step input state = some (next, after)) :
    ∃ more, next.pipe = state.pipe ++ more := by
  cases step_handling stepped with
  | move _ _ _ pipe _ => exact ⟨[], by simp [pipe]⟩
  | openSocket _ _ _ pipe _ => exact ⟨[], by simp [pipe]⟩
  | reply _ _ _ _ pipe _ => exact ⟨_, pipe⟩
  | leave _ _ pipe _ => exact ⟨[], by simp [pipe]⟩

/-- Only the main thread reads the pipe; everyone else appends to it. -/
theorem step_pipe {action : Action} (stepped : state.step settings action = some next) :
    (∃ localTime now registered, action = .command localTime now registered) ∨
      ∃ more, next.pipe = state.pipe ++ more := by
  have evicted : ∀ {pruned : State}, Relation.ReflTransGen (SocketManager.Evicts settings) state pruned →
      ∃ more, pruned.pipe = state.pipe ++ more :=
    fun evictions => ⟨[], by simp [(evictions_shed evictions).pipe]⟩
  cases steps_of_step stepped with
  | undetected | refused | blocked | admitted | unconnected | connected => exact .inl ⟨_, _, _, rfl⟩
  | teardown search => exact .inr ⟨[], by simp [(teardown_sheds _ _).pipe]⟩
  | timeout evictions => exact .inr (evicted evictions)
  | logged evictions =>
    obtain ⟨more, pipe⟩ := evicted evictions
    exact .inr ⟨more, pipe⟩
  | moved at_ worked | done at_ worked =>
    obtain ⟨more, pipe⟩ := worker_pipe worked
    exact .inr ⟨more, pipe⟩
  | _ => exact .inr ⟨[], (List.append_nil _).symm⟩

end State

end NermalProxy
