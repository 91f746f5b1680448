import NermalProxy.Lifecycle

/-! # Where a session is

Read off the ledger: in every reachable state each session is with one task, in one
message or on one pair of relay sockets, and no handler meets a null session pointer. -/

namespace NermalProxy

open NermalProxy.CString NermalProxy.KeyedList NermalProxy.Config NermalProxy.Transition

def Socket.client? : Socket → Option ClientSocket
  | .client socket => some socket
  | _ => none

namespace State

variable {state : State} {settings : Settings}

/-- The ids of the queued tasks and of the workers that have not replied yet. -/
def taskIds (state : State) : List Nat :=
  state.queue.map Task.sessionId ++ state.workers.filterMap Worker.owes

def messageIds (state : State) : List Nat := state.pipe.map Message.sessionId

def socketsOf (state : State) (sessionId : Nat) : List ClientSocket :=
  (state.sockets.filterMap Socket.client?).filter (fun socket => socket.sessionId = sessionId)

/-- The three situations of a live session. -/
inductive Situation (state : State) (session : Session) : Prop
  | inTask (task : state.taskIds.count session.sessionId = 1)
      (noMessage : state.messageIds.count session.sessionId = 0)
      (noSocket : state.socketsOf session.sessionId = [])
  | inMessage (noTask : state.taskIds.count session.sessionId = 0)
      (message : state.messageIds.count session.sessionId = 1)
      (noSocket : state.socketsOf session.sessionId = [])
  | relaying (noTask : state.taskIds.count session.sessionId = 0)
      (noMessage : state.messageIds.count session.sessionId = 0) {one other : ClientSocket}
      (sockets : state.socketsOf session.sessionId = [one, other])
      (crossed : one.socketFd = other.peerFd ∧ other.socketFd = one.peerFd)
      (opposite : one.isClientToProxy ≠ other.isClientToProxy)
      (onClient : one.socketFd = session.clientFd ∨ other.socketFd = session.clientFd)

/-! ## Counting -/

theorem mem_socketsOf {sessionId : Nat} {socket : ClientSocket} :
    socket ∈ state.socketsOf sessionId ↔
      .client socket ∈ state.sockets ∧ socket.sessionId = sessionId := by
  unfold socketsOf
  rw [List.mem_filter, List.mem_filterMap]
  constructor
  · rintro ⟨⟨found, member, isClient⟩, same⟩
    cases found with
    | server fd => cases isClient
    | command fd => cases isClient
    | client found =>
      cases isClient
      exact ⟨member, by simpa using same⟩
  · rintro ⟨member, same⟩
    exact ⟨⟨_, member, rfl⟩, by simpa using same⟩

/-- The sockets of a session in one direction. -/
theorem length_socketsOf (state : State) (sessionId : Nat) (direction : Bool) :
    ((state.socketsOf sessionId).filter (fun socket => socket.isClientToProxy = direction)).length =
      (((state.sockets : Multiset Socket).filterMap (Socket.end? direction)).map
        End.sessionId).count sessionId := by
  unfold socketsOf
  rw [Multiset.filterMap_coe, Multiset.map_coe, Multiset.coe_count, List.filter_filter]
  induction state.sockets with
  | nil => rfl
  | cons socket sockets inductionHypothesis =>
    cases socket with
    | server fd => exact inductionHypothesis
    | command fd => exact inductionHypothesis
    | client socket =>
      rw [List.filterMap_cons_some (show Socket.client? (.client socket) = some socket from rfl)]
      by_cases facing : socket.isClientToProxy = direction
      · rw [List.filterMap_cons_some (show Socket.end? direction (.client socket) = some socket.link by
          simp [Socket.end?, facing])]
        by_cases same : socket.sessionId = sessionId
        · simp [same, facing, inductionHypothesis, ClientSocket.link]
        · have different : ¬ socket.link.sessionId = sessionId := same
          simp [same, different, inductionHypothesis]
      · rw [List.filterMap_cons_none (show Socket.end? direction (.client socket) = none by
          simp [Socket.end?, facing])]
        by_cases same : socket.sessionId = sessionId
        · simp [same, facing, inductionHypothesis]
        · simp [same, inductionHypothesis]

theorem tokens_count (sessionId : Nat) :
    state.ledger.tokens.count sessionId =
      state.taskIds.count sessionId + state.messageIds.count sessionId +
      (state.ledger.clientEnds.map End.sessionId).count sessionId := by
  simp only [Ledger.tokens, ledger, taskIds, messageIds, Multiset.count_add, Multiset.map_coe,
    Multiset.filterMap_coe, Multiset.coe_count, List.count_append]

theorem ids_coe : state.ledger.ids = (state.sessions.ids : Multiset Nat) := by
  simp only [Ledger.ids, ledger, SessionManager.keys, Multiset.map_coe, List.map_map]
  rfl

/-- A live session has one token. -/
theorem live_count (sound : state.ledger.Sound) {session : Session}
    (live : session ∈ state.sessions.sessionList) :
    state.taskIds.count session.sessionId + state.messageIds.count session.sessionId +
      (state.ledger.clientEnds.map End.sessionId).count session.sessionId = 1 := by
  rw [← tokens_count, sound.tokens_eq]
  apply Multiset.count_eq_one_of_mem sound.ids_nodup
  rw [ids_coe]
  exact List.mem_map_of_mem live

/-- A token names a live session. -/
theorem live_of_token (sound : state.ledger.Sound) {sessionId : Nat}
    (token : sessionId ∈ state.ledger.tokens) :
    ∃ session, state.getSession sessionId = some session := by
  rw [sound.tokens_eq, ids_coe] at token
  exact SessionManager.mem_ids_iff.mp token

theorem token_of_taskIds {sessionId : Nat} (member : sessionId ∈ state.taskIds) :
    sessionId ∈ state.ledger.tokens := by
  rw [← Multiset.count_pos, tokens_count]
  have := List.count_pos_iff.mpr member
  omega

theorem token_of_messageIds {sessionId : Nat} (member : sessionId ∈ state.messageIds) :
    sessionId ∈ state.ledger.tokens := by
  rw [← Multiset.count_pos, tokens_count]
  have := List.count_pos_iff.mpr member
  omega

theorem serverEnds_sessionIds (sound : state.ledger.Sound) :
    state.ledger.serverEnds.map End.sessionId = state.ledger.clientEnds.map End.sessionId := by
  rw [← sound.mirrored, Multiset.map_map]
  rfl

theorem token_of_socket (sound : state.ledger.Sound) {socket : ClientSocket}
    (member : .client socket ∈ state.sockets) : socket.sessionId ∈ state.ledger.tokens := by
  have inEnds : socket.sessionId ∈ state.ledger.clientEnds.map End.sessionId := by
    cases direction : socket.isClientToProxy with
    | true =>
      exact Multiset.mem_map_of_mem End.sessionId (mem_ends.mpr ⟨socket, member, rfl, direction⟩)
    | false =>
      rw [← serverEnds_sessionIds sound]
      exact Multiset.mem_map_of_mem End.sessionId (mem_ends.mpr ⟨socket, member, rfl, direction⟩)
  exact Multiset.mem_add.mpr (.inr inEnds)

/-- The client's descriptor of a pair is that of its session. -/
theorem clientEnd_fd (sound : state.ledger.Sound) {session : Session}
    (live : session ∈ state.sessions.sessionList) {e : End} (isEnd : e ∈ state.ledger.clientEnds)
    (same : e.sessionId = session.sessionId) : e.fd = session.clientFd := by
  have linked := sound.linked e isEnd
  have key : session.key ∈ state.ledger.sessions := List.mem_map_of_mem live
  have equal := Multiset.inj_on_of_nodup_map sound.ids_nodup _ linked _ key same
  exact congrArg Prod.snd equal

theorem pair_of_directions {sockets : List ClientSocket}
    (one : (sockets.filter (fun socket => socket.isClientToProxy = true)).length = 1)
    (other : (sockets.filter (fun socket => socket.isClientToProxy = false)).length = 1) :
    ∃ first second, sockets = [first, second] ∧ first.isClientToProxy ≠ second.isClientToProxy := by
  have two : sockets.length = 2 := by
    have split := List.length_eq_length_filter_add (l := sockets)
      (fun socket => decide (socket.isClientToProxy = true))
    have negated : sockets.filter (fun socket => !decide (socket.isClientToProxy = true)) =
        sockets.filter (fun socket => socket.isClientToProxy = false) := by
      apply List.filter_congr
      intro socket _
      cases socket.isClientToProxy <;> rfl
    rw [negated] at split
    omega
  obtain ⟨first, second, rfl⟩ := List.length_eq_two.mp two
  refine ⟨first, second, rfl, fun same => ?_⟩
  cases direction : second.isClientToProxy with
  | true => simp [same, direction] at one
  | false => simp [same, direction] at one

theorem no_sockets {sockets : List ClientSocket}
    (one : (sockets.filter (fun socket => socket.isClientToProxy = true)).length = 0)
    (other : (sockets.filter (fun socket => socket.isClientToProxy = false)).length = 0) :
    sockets = [] := by
  rw [List.length_eq_zero_iff, List.filter_eq_nil_iff] at one other
  apply List.eq_nil_iff_forall_not_mem.mpr
  intro socket member
  cases direction : socket.isClientToProxy with
  | true => exact one socket member (by simpa using direction)
  | false => exact other socket member (by simpa using direction)

theorem situation (sound : state.ledger.Sound) {session : Session}
    (live : session ∈ state.sessions.sessionList) : Situation state session := by
  have one := live_count sound live
  have towardsClient := length_socketsOf state session.sessionId true
  have towardsServer := length_socketsOf state session.sessionId false
  change _ = (state.ledger.clientEnds.map End.sessionId).count session.sessionId at towardsClient
  change _ = (state.ledger.serverEnds.map End.sessionId).count session.sessionId at towardsServer
  rw [serverEnds_sessionIds sound] at towardsServer
  by_cases paired : (state.ledger.clientEnds.map End.sessionId).count session.sessionId = 0
  · rw [paired] at towardsClient towardsServer
    have noSocket := no_sockets towardsClient towardsServer
    by_cases working : state.taskIds.count session.sessionId = 0
    · exact .inMessage working (by omega) noSocket
    · exact .inTask (by omega) (by omega) noSocket
  · have isPair : (state.ledger.clientEnds.map End.sessionId).count session.sessionId = 1 := by omega
    rw [isPair] at towardsClient towardsServer
    obtain ⟨first, second, sockets, opposite⟩ := pair_of_directions towardsClient towardsServer
    have isFirst : first ∈ state.socketsOf session.sessionId := by simp [sockets]
    have isSecond : second ∈ state.socketsOf session.sessionId := by simp [sockets]
    rw [mem_socketsOf] at isFirst isSecond
    obtain ⟨peer, member, mirror, direction⟩ := exists_peer sound isFirst.1
    have samePeer : peer.sessionId = session.sessionId := (congrArg End.sessionId mirror).trans isFirst.2
    have isPeer := mem_socketsOf.mpr ⟨member, samePeer⟩
    rw [sockets, List.mem_cons, List.mem_singleton] at isPeer
    have peer_eq : peer = second := by
      rcases isPeer with rfl | rfl
      · cases facing : peer.isClientToProxy <;> simp [facing] at direction
      · rfl
    subst peer_eq
    refine .relaying (by omega) (by omega) sockets
      ⟨(congrArg End.peerFd mirror).symm, congrArg End.fd mirror⟩ opposite ?_
    cases facing : first.isClientToProxy with
    | true =>
      exact .inl (clientEnd_fd sound live (mem_ends.mpr ⟨first, isFirst.1, rfl, facing⟩) isFirst.2)
    | false =>
      have towards : peer.isClientToProxy = true := by simp [direction, facing]
      exact .inr (clientEnd_fd sound live (mem_ends.mpr ⟨peer, member, rfl, towards⟩) samePeer)

/-! ## No null pointers -/

theorem handleMessage_isSome {message : Message} {session : Session}
    (found : state.getSession message.sessionId = some session) (localTime : Option LocalTime)
    (now : UInt64) (registered : Bool × Bool) :
    (SocketManager.handleMessage settings localTime now registered message state).isSome = true := by
  cases message with
  | hostDetectResult sessionId success =>
    change state.getSession sessionId = some session at found
    cases success with
    | false => simp [SocketManager.handleMessage, found]
    | true =>
      have named := getSession_update_key
        (setVerdictName_key (SocketManager.authorize settings localTime session)) found
      simp only [SocketManager.handleMessage, found, Bool.true_eq_false, if_false]
      split
      · rfl
      · simp only [SocketManager.connectProxy, named]
        split <;> rfl
  | hostConnectResult sessionId proxyFd success =>
    change state.getSession sessionId = some session at found
    cases success <;> simp [SocketManager.handleMessage, found]

theorem handleClientSocketRead_isSome {socket : ClientSocket} {session : Session}
    (found : state.getSession socket.sessionId = some session) {now : UInt64}
    {memory : ClientSocket.Memory} {reads : List ReadResult} {writes : List WriteResult}
    (returned : ∀ transfer, Relay.relay socket memory reads writes ≠ .pending transfer) :
    (SocketManager.handleClientSocketRead settings now memory reads writes socket state).isSome =
      true := by
  unfold SocketManager.handleClientSocketRead
  cases outcome : Relay.relay socket memory reads writes with
  | pending transfer => exact absurd outcome (returned transfer)
  | teardown => rfl
  | relayed after numRead numWritten transfer => simp [found]

/-- In every reachable state each session is in exactly one situation, every task, message and
socket names a live session, and the lookups of the main thread succeed. -/
theorem session_lifecycle {history : History}
    (run : Run (proxySystem settings) Registers history state) :
    (∀ session ∈ state.sessions.sessionList, Situation state session) ∧
    (∀ sessionId, sessionId ∈ state.taskIds ∨ sessionId ∈ state.messageIds ∨
        (∃ socket, .client socket ∈ state.sockets ∧ socket.sessionId = sessionId) →
      ∃ session, state.getSession sessionId = some session) ∧
    (state.sessions.sessionList.map Session.sessionId).Nodup ∧
    (state.sessions.sessionList.map Session.clientFd).Nodup ∧
    (∀ clientFd ∉ state.openFds, ∀ storage now,
      (state.sessions.createSession storage clientFd now).2 =
        some (Session.make storage clientFd state.sessions.sessionId now)) ∧
    (∀ message rest, state.pipe = message :: rest → ∀ localTime now registered,
      (SocketManager.handleMessage settings localTime now registered message
        { state with pipe := rest }).isSome = true) ∧
    (∀ socket, .client socket ∈ state.sockets → ∀ now memory reads writes,
      (∀ transfer, Relay.relay socket memory reads writes ≠ .pending transfer) →
      (SocketManager.handleClientSocketRead settings now memory reads writes socket state).isSome =
        true) := by
  have sound := run_sound run
  refine ⟨fun session live => situation sound live, ?_, ?_, ?_, ?_, ?_, ?_⟩
  · rintro sessionId (inTask | inMessage | ⟨socket, member, rfl⟩)
    · exact live_of_token sound (token_of_taskIds inTask)
    · exact live_of_token sound (token_of_messageIds inMessage)
    · exact live_of_token sound (token_of_socket sound member)
  · have nodup := sound.ids_nodup
    rwa [ids_coe] at nodup
  · have nodup : (state.ledger.sessions.map Prod.snd).Nodup := by
      refine Multiset.nodup_of_le ?_ sound.owned_nodup
      simp only [Ledger.owned, Multiset.add_assoc]
      exact Multiset.le_add_right _ _
    simp only [ledger, SessionManager.keys, Multiset.map_coe, List.map_map] at nodup
    exact nodup
  · exact fun clientFd unused storage now => createSession_new sound unused storage now
  · intro message rest pipe localTime now registered
    have inPipe : message.sessionId ∈ state.messageIds := by simp [messageIds, pipe]
    obtain ⟨session, found⟩ := live_of_token sound (token_of_messageIds inPipe)
    have stillFound : ({ state with pipe := rest } : State).getSession message.sessionId =
        some session := found
    exact handleMessage_isSome stillFound localTime now registered
  · intro socket member now memory reads writes returned
    obtain ⟨session, found⟩ := live_of_token sound (token_of_socket sound member)
    exact handleClientSocketRead_isSome found returned

/-- After a first client has connected. -/
theorem session_lifecycle_accept :
    ∃ state : State, state.taskIds = [0] ∧
      ∀ session ∈ state.sessions.sessionList, Situation state session := by
  let action : Action := .accept ⟨false, 0, 0, 0⟩ 7 5 (bytes "10.0.0.2")
  have started : Run (proxySystem unrestricted) Registers [] (initial 3 4 [3, 4] 0) := .start initially
  have accepted : ∃ next, (initial 3 4 [3, 4] 0).step unrestricted action = some next ∧
      next.taskIds = [0] := ⟨_, rfl, by decide⟩
  obtain ⟨next, stepped, tasks⟩ := accepted
  have run : Run (proxySystem unrestricted) Registers [(initial 3 4 [3, 4] 0, action)] next :=
    started.snoc trivial stepped
  exact ⟨next, tasks, (session_lifecycle run).1⟩

end State

end NermalProxy
