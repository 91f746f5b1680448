import NermalProxy.Endpoints
import NermalProxy.Relay

/-! # The streams of a run

What the relay events of a run have moved, session by session.  However the events of the
sessions are mixed, each direction of each pair is a stream of its own: nothing is lost,
doubled or put into another one. -/

namespace NermalProxy

open NermalProxy.CString NermalProxy.KeyedList NermalProxy.Config NermalProxy.Transition
  NermalProxy.Relay

/-! ## Pairs and their sessions -/

namespace Ledger

variable {ledger next : Ledger} {pair : End}

/-- As long as the session of the pair lives, the pair is registered. -/
def Keeps (ledger : Ledger) (pair : End) : Prop :=
  pair.sessionId < ledger.nextId ∧ (pair.sessionId ∈ ledger.ids → pair ∈ ledger.clientEnds)

theorem Step.keeps (step : Step ledger next) (sound : ledger.Sound) (keeps : ledger.Keeps pair) :
    next.Keeps pair := by
  obtain ⟨old, registered⟩ := keeps
  cases step with
  | leak | hold => exact ⟨old, registered⟩
  | create unused =>
    refine ⟨Nat.lt_succ_of_lt old, fun live => registered ?_⟩
    have among : pair.sessionId ∈ ledger.nextId ::ₘ ledger.ids := by simpa [ids] using live
    rcases Multiset.mem_cons.mp among with new | older
    · exact absurd new old.ne
    · exact older
  | finish session token =>
    refine ⟨old, fun live => registered ?_⟩
    simp only [ids, session, Multiset.map_cons, Multiset.mem_cons]
    exact .inr live
  | link session token holds => exact ⟨old, fun live => Multiset.mem_cons_of_mem (registered live)⟩
  | @unlink gone sessions clientEnds serverEnds session client server =>
    refine ⟨old, fun live => ?_⟩
    have isId : pair.sessionId ∈ ledger.ids := by
      simp only [ids, session, Multiset.map_cons, Multiset.mem_cons]
      exact .inr live
    have distinct := sound.ids_nodup
    simp only [ids, session, Multiset.map_cons, Multiset.nodup_cons] at distinct
    have member := registered isId
    rw [client] at member
    rcases Multiset.mem_cons.mp member with rfl | other
    · exact absurd live distinct.1
    · exact other

theorem steps_keep (steps : Relation.ReflTransGen Step ledger next) (sound : ledger.Sound)
    (keeps : ledger.Keeps pair) : next.Keeps pair := by
  induction steps with
  | refl => exact keeps
  | tail earlier step inductionHypothesis => exact step.keeps (steps_sound earlier sound) inductionHypothesis

/-- A session has one pair at most. -/
theorem Sound.pair_unique (sound : ledger.Sound) {other : End} (isOne : pair ∈ ledger.clientEnds)
    (isOther : other ∈ ledger.clientEnds) (same : pair.sessionId = other.sessionId) : pair = other := by
  have distinct : (ledger.clientEnds.map End.sessionId).Nodup := by
    refine Multiset.nodup_of_le ?_ sound.ids_nodup
    rw [← sound.tokens_eq]
    exact Multiset.le_add_left _ _
  exact Multiset.inj_on_of_nodup_map distinct _ isOne _ isOther same

/-- Nobody else has the token of a session with a pair. -/
theorem Sound.not_loose (sound : ledger.Sound) (member : pair ∈ ledger.clientEnds) :
    pair.sessionId ∉ ledger.loose := by
  intro loose
  have distinct := sound.ids_nodup
  rw [← sound.tokens_eq, tokens, Multiset.nodup_add] at distinct
  exact Multiset.disjoint_left.mp distinct.2.2 loose (Multiset.mem_map_of_mem _ member)

end Ledger

namespace State

variable {state next : State} {settings : Settings} {history : History} {action : Action}

theorem clientEnd_mem (sound : state.ledger.Sound) {socket : ClientSocket}
    (member : .client socket ∈ state.sockets) : socket.clientEnd ∈ state.ledger.clientEnds := by
  obtain ⟨client, isHolder, isEnd⟩ := exists_client_end sound member
  obtain ⟨isSocket, direction⟩ := mem_holders.mp isHolder
  exact mem_ends.mpr ⟨client, isSocket, isEnd, direction⟩

/-- A session has one socket in each direction. -/
theorem socket_unique (sound : state.ledger.Sound) {one other : ClientSocket}
    (isOne : .client one ∈ state.sockets) (isOther : .client other ∈ state.sockets)
    (sameId : one.sessionId = other.sessionId) (sameDirection : one.isClientToProxy = other.isClientToProxy) :
    one.socketFd = other.socketFd := by
  have same : one.clientEnd = other.clientEnd := by
    apply sound.pair_unique (clientEnd_mem sound isOne) (clientEnd_mem sound isOther)
    rw [clientEnd_sessionId, clientEnd_sessionId, sameId]
  cases direction : one.isClientToProxy with
  | true =>
    rw [ClientSocket.clientEnd, ClientSocket.clientEnd, ← sameDirection, direction, if_pos rfl,
      if_pos rfl] at same
    exact congrArg End.fd same
  | false =>
    rw [ClientSocket.clientEnd, ClientSocket.clientEnd, ← sameDirection, direction] at same
    exact congrArg End.peerFd same

/-! ## What a run has moved -/

/-- What a relay event has read and sent on, and for which pair. -/
structure Move where
  pair : End
  isClientToProxy : Bool
  transfer : Transfer

def move : State × Action → Option Move
  | (state, .relay fd _ memory reads writes) =>
    match lookup Socket.fd fd state.sockets with
    | some (.client socket) =>
      match relay socket memory reads writes with
      | .relayed _ _ _ transfer => some ⟨socket.clientEnd, socket.isClientToProxy, transfer⟩
      | _ => none
    | _ => none
  | _ => none

def moves (history : History) : List Move := history.filterMap move

/-- The stream of one direction of a session. -/
def stream (sessionId : Nat) (isClientToProxy : Bool) (history : History) : List Transfer :=
  ((moves history).filter (fun move =>
    move.pair.sessionId = sessionId ∧ move.isClientToProxy = isClientToProxy)).map Move.transfer

/-- What the run has read for a socket, and sent on. -/
def flow (history : History) (socket : ClientSocket) : Flow :=
  ⟨socket, stream socket.sessionId socket.isClientToProxy history⟩

theorem moves_snoc (entry : State × Action) :
    moves (history ++ [entry]) = moves history ++ (move entry).toList := filterMap_snoc move history entry

theorem stream_snoc_other {sessionId : Nat} {isClientToProxy : Bool} {entry : State × Action}
    (other : ∀ moved ∈ move entry, ¬ (moved.pair.sessionId = sessionId ∧
      moved.isClientToProxy = isClientToProxy)) :
    stream sessionId isClientToProxy (history ++ [entry]) = stream sessionId isClientToProxy history := by
  unfold stream
  rw [moves_snoc]
  cases moved : move entry with
  | none => simp
  | some last =>
    have outside := other last (by simp [moved])
    simp [outside]

theorem stream_snoc_own {moved : Move} {entry : State × Action} (isMove : move entry = some moved) :
    stream moved.pair.sessionId moved.isClientToProxy (history ++ [entry]) =
      stream moved.pair.sessionId moved.isClientToProxy history ++ [moved.transfer] := by
  unfold stream
  rw [moves_snoc, isMove]
  simp

/-! ## One step -/

/-- No `::read` of a relay event fails, and `epoll_ctl` does not. -/
def ReadsSucceed (state : State) (action : Action) : Prop :=
  Registers state action ∧ ∀ fd now memory reads writes, action = .relay fd now memory reads writes →
    ∀ socket, lookup Socket.fd fd state.sockets = some (.client socket) → socket.isActive = true →
      ∀ errno, reads.head? ≠ some (.error errno)

/-- What a step moves, and whose sockets there are behind it. -/
inductive Moves (state : State) (action : Action) (next : State) : Prop
  | still (quiet : move (state, action) = none)
      (sockets : ∀ socket, .client socket ∈ next.sockets → .client socket ∈ state.sockets) :
      Moves state action next
  | paired {sessionId : Nat} {proxyFd : Fd} {rest : List Message} {session : Session}
      (quiet : move (state, action) = none)
      (pipe : state.pipe = .hostConnectResult sessionId proxyFd true :: rest)
      (found : state.getSession sessionId = some session)
      (sockets : ∀ socket, .client socket ∈ next.sockets →
        .client socket ∈ state.sockets ∨ socket.sessionId = sessionId) : Moves state action next
  | relayed {fd : Fd} {now : UInt64} {memory : ClientSocket.Memory} {reads : List ReadResult}
      {writes : List WriteResult} {socket after : ClientSocket} {numRead numWritten : Nat}
      {transfer : Transfer} (isRelay : action = .relay fd now memory reads writes)
      (search : lookup Socket.fd fd state.sockets = some (.client socket))
      (outcome : relay socket memory reads writes = .relayed after numRead numWritten transfer)
      (sockets : ∀ client, .client client ∈ next.sockets →
        client = after ∨ (.client client ∈ state.sockets ∧ client.socketFd ≠ socket.socketFd)) :
      Moves state action next

theorem step_moves (sound : state.ledger.Sound) (stepped : state.step settings action = some next) :
    Moves state action next := by
  cases action with
  | relay fd now memory reads writes =>
    have handled := stepped
    simp only [step] at handled
    split at handled
    · rename_i socket search
      obtain rfl := Socket.socketFd_of_lookup search
      cases SocketManager.relayEnds_of_handled handled with
      | teardown outcome =>
        refine .still (by simp [move, search, outcome]) (fun client member => ?_)
        rw [teardown_eq search] at member
        exact unlink_older sound search _ member
      | @relayed after numRead numWritten transfer session outcome found =>
        refine .relayed rfl search outcome (fun client member => ?_)
        rcases List.mem_cons.mp ((perm_cons_adjust search).subset member) with isAfter | older
        · exact .inl (Socket.client.inj isAfter)
        · obtain ⟨inSockets, other⟩ := (mem_remove (fds_nodup sound)).mp older
          exact .inr ⟨inSockets, other⟩
    · cases handled
  | command localTime now registered =>
    cases steps_of_step stepped with
    | connected pipe found =>
      refine .paired rfl pipe found (fun socket member => ?_)
      rw [SocketManager.addSocket_sockets, SocketManager.addSocket_sockets] at member
      rcases List.mem_append.mp member with earlier | proxy
      · rcases List.mem_append.mp earlier with older | client
        · exact .inl older
        · split at client
          · cases List.mem_singleton.mp client
            exact .inr rfl
          · cases client
      · split at proxy
        · cases List.mem_singleton.mp proxy
          exact .inr rfl
        · cases proxy
    | _ => exact .still rfl (fun _ member => member)
  | accept storage now clientFd clientIp =>
    cases steps_of_step stepped with
    | accept unused created => exact .still rfl (fun _ member => member)
  | timeout now logTime =>
    cases steps_of_step stepped with
    | timeout evictions | logged evictions =>
      exact .still rfl (fun _ member => evictions_older sound evictions _ member)
  | take =>
    cases steps_of_step stepped with
    | take first => exact .still rfl (fun _ member => member)
  | work index input =>
    cases steps_of_step stepped with
    | moved at_ worked | done at_ worked =>
      exact .still rfl (fun _ member => (step_frame worked).sockets ▸ member)

/-- What holds of the streams of a run. -/
structure Streams (history : History) (state : State) : Prop where
  kept : ∀ moved ∈ moves history, state.ledger.Keeps moved.pair
  same : ∀ one ∈ moves history, ∀ other ∈ moves history,
    one.pair.sessionId = other.pair.sessionId → one.pair = other.pair
  settled : ∀ socket, .client socket ∈ state.sockets → (flow history socket).Settled
  intact : ∀ socket, (flow history socket).Intact

theorem flow_quiet (quiet : move (state, action) = none) (socket : ClientSocket) :
    flow (history ++ [(state, action)]) socket = flow history socket := by
  unfold flow
  rw [stream_snoc_other (by simp [quiet])]

/-- Before its pair is registered nothing has been moved for a session. -/
theorem stream_fresh (sound : state.ledger.Sound) (streams : Streams history state) {sessionId : Nat}
    {proxyFd : Fd} {rest : List Message} {session : Session}
    (pipe : state.pipe = .hostConnectResult sessionId proxyFd true :: rest)
    (found : state.getSession sessionId = some session) (isClientToProxy : Bool) :
    stream sessionId isClientToProxy history = [] := by
  have live : sessionId ∈ state.ledger.ids := by
    rw [ids_coe]
    exact SessionManager.mem_ids_iff.mpr ⟨session, found⟩
  have loose : sessionId ∈ state.ledger.loose := by
    simp [ledger, pipe, Message.sessionId]
  unfold stream
  rw [List.map_eq_nil_iff, List.filter_eq_nil_iff]
  intro moved member
  simp only [decide_eq_true_eq, not_and]
  rintro rfl
  exact absurd loose (sound.not_loose ((streams.kept moved member).2 live))

/-- A step that moves nothing. -/
theorem quiet_streams (sound : state.ledger.Sound) (registers : Registers state action)
    (stepped : state.step settings action = some next) (streams : Streams history state)
    (quiet : move (state, action) = none)
    (settled : ∀ socket, .client socket ∈ next.sockets → (flow history socket).Settled) :
    Streams (history ++ [(state, action)]) next := by
  have unmoved : moves (history ++ [(state, action)]) = moves history := by simp [moves_snoc, quiet]
  refine ⟨?_, ?_, ?_, ?_⟩
  · rw [unmoved]
    exact fun moved member =>
      Ledger.steps_keep (step_ledger sound registers stepped) sound (streams.kept moved member)
  · rw [unmoved]
    exact streams.same
  · intro socket member
    rw [flow_quiet quiet]
    exact settled socket member
  · intro socket
    rw [flow_quiet quiet]
    exact streams.intact socket

/-- A relay event, which moves something for its own pair in its own direction. -/
theorem relayed_streams (sound : state.ledger.Sound) {fd : Fd} {now : UInt64} {memory : ClientSocket.Memory}
    {reads : List ReadResult} {writes : List WriteResult} {socket after : ClientSocket}
    {numRead numWritten : Nat} {transfer : Transfer}
    (permitted : ReadsSucceed state (.relay fd now memory reads writes))
    (stepped : state.step settings (.relay fd now memory reads writes) = some next)
    (streams : Streams history state)
    (search : lookup Socket.fd fd state.sockets = some (.client socket))
    (outcome : relay socket memory reads writes = .relayed after numRead numWritten transfer)
    (sockets : ∀ client, .client client ∈ next.sockets →
      client = after ∨ (.client client ∈ state.sockets ∧ client.socketFd ≠ socket.socketFd)) :
    Streams (history ++ [(state, .relay fd now memory reads writes)]) next := by
  have member := mem_of_lookup search
  have isMove : move (state, .relay fd now memory reads writes) =
      some ⟨socket.clientEnd, socket.isClientToProxy, transfer⟩ := by
    simp only [move, search, outcome]
  have isEnd := clientEnd_mem sound member
  have live : socket.clientEnd.sessionId ∈ state.ledger.ids := by
    rw [clientEnd_sessionId, ← sound.tokens_eq]
    exact token_of_socket sound member
  have grown : moves (history ++ [(state, .relay fd now memory reads writes)]) =
      moves history ++ [⟨socket.clientEnd, socket.isClientToProxy, transfer⟩] := by
    rw [moves_snoc, isMove, Option.toList_some]
  have steps := step_ledger sound permitted.1 stepped
  have sameSocket := relay_sameSocket outcome
  have sameId : after.sessionId = socket.sessionId := by rw [sameSocket]
  have sameDirection : after.isClientToProxy = socket.isClientToProxy := by rw [sameSocket]
  have own : stream socket.sessionId socket.isClientToProxy
      (history ++ [(state, .relay fd now memory reads writes)]) =
        stream socket.sessionId socket.isClientToProxy history ++ [transfer] := by
    have snoc := @stream_snoc_own history _ _ isMove
    rwa [clientEnd_sessionId] at snoc
  have settledOwn : Flow.Settled
      ⟨after, stream socket.sessionId socket.isClientToProxy history ++ [transfer]⟩ := by
    have settled := relay_settled (streams.settled socket member) memory writes
      (fun active => permitted.2 fd now memory reads writes rfl socket search active)
    rw [show relay (flow history socket).socket memory reads writes = _ from outcome] at settled
    exact settled
  have others : ∀ client : ClientSocket,
      ¬ (client.sessionId = socket.sessionId ∧ client.isClientToProxy = socket.isClientToProxy) →
        flow (history ++ [(state, .relay fd now memory reads writes)]) client = flow history client := by
    intro client different
    unfold flow
    rw [stream_snoc_other]
    rw [isMove]
    rintro moved ⟨⟩ ⟨equalId, equalDirection⟩
    rw [clientEnd_sessionId] at equalId
    exact different ⟨equalId.symm, equalDirection.symm⟩
  refine ⟨?_, ?_, ?_, ?_⟩
  · rw [grown]
    intro moved inMoves
    rcases List.mem_append.mp inMoves with older | new
    · exact Ledger.steps_keep steps sound (streams.kept moved older)
    · rw [List.mem_singleton.mp new]
      exact Ledger.steps_keep steps sound ⟨sound.ids_lt _ live, fun _ => isEnd⟩
  · have before : ∀ moved ∈ moves history, moved.pair.sessionId = socket.clientEnd.sessionId →
        moved.pair = socket.clientEnd := fun moved older same =>
      sound.pair_unique ((streams.kept moved older).2 (same ▸ live)) isEnd same
    rw [grown]
    simp only [List.mem_append, List.mem_singleton]
    rintro one (isOne | rfl) other (isOther | rfl) same
    · exact streams.same one isOne other isOther same
    · exact before one isOne same
    · exact (before other isOther same.symm).symm
    · rfl
  · intro client inNext
    rcases sockets client inNext with rfl | ⟨older, different⟩
    · unfold flow
      rw [sameId, sameDirection, own]
      exact settledOwn
    · rw [others client]
      · exact streams.settled client older
      · rintro ⟨equalId, equalDirection⟩
        exact different (socket_unique sound older member equalId equalDirection)
  · intro client
    by_cases isOwn : client.sessionId = socket.sessionId ∧ client.isClientToProxy = socket.isClientToProxy
    · unfold flow
      rw [isOwn.1, isOwn.2, own]
      exact settledOwn.intact
    · rw [others client isOwn]
      exact streams.intact client

theorem step_streams (sound : state.ledger.Sound) (permitted : ReadsSucceed state action)
    (stepped : state.step settings action = some next) (streams : Streams history state) :
    Streams (history ++ [(state, action)]) next := by
  cases step_moves sound stepped with
  | still quiet sockets =>
    exact quiet_streams sound permitted.1 stepped streams quiet
      (fun socket member => streams.settled socket (sockets socket member))
  | paired quiet pipe found sockets =>
    refine quiet_streams sound permitted.1 stepped streams quiet (fun socket member => ?_)
    rcases sockets socket member with older | rfl
    · exact streams.settled socket older
    · unfold flow
      rw [stream_fresh sound streams pipe found]
      exact ⟨⟨List.nil_prefix, by simp⟩, fun _ => rfl⟩
  | relayed isRelay search outcome sockets =>
    subst isRelay
    exact relayed_streams sound permitted stepped streams search outcome sockets

/-! ## Every run -/

theorem run_streams (run : Run (proxySystem settings) ReadsSucceed history state) :
    Streams history state := by
  refine run.historyInvariant Streams ?_ ?_
  · rintro state ⟨serverFd, commandFd, openFds, now, -, -, -, rfl⟩
    have nothing : ∀ socket : ClientSocket, (flow [] socket).Intact :=
      fun _ => ⟨List.nil_prefix, fun _ member => absurd member List.not_mem_nil⟩
    refine ⟨fun _ member => absurd member List.not_mem_nil, fun _ member => absurd member List.not_mem_nil,
      fun socket member => ?_, nothing⟩
    simp [initial] at member
  · intro history state action next earlier streams permitted stepped
    have sound := run_sound (earlier.weaken (fun _ _ permitted => permitted.1))
    exact step_streams sound permitted stepped streams

/-- In every run inside the arrays without a failing `::read`, however its events are mixed: what has been
sent on in one direction of a session is a prefix of what was read there, and all of it while the socket is active;
every event sends on only what it has read itself; and all that was moved for a session was moved
between the same two descriptors. -/
theorem streams_intact {logging : Logging} (run : Run (proxySystem settings) ReadsSucceed history state)
    (_inBounds : ∀ entry ∈ history, InBounds settings logging entry.1 entry.2) :
    (∀ sessionId isClientToProxy,
      (stream sessionId isClientToProxy history).flatMap Transfer.sent <+:
        (stream sessionId isClientToProxy history).flatMap Transfer.delivered) ∧
    (∀ socket, .client socket ∈ state.sockets → socket.isActive = true →
      (stream socket.sessionId socket.isClientToProxy history).flatMap Transfer.sent =
        (stream socket.sessionId socket.isClientToProxy history).flatMap Transfer.delivered) ∧
    (∀ moved ∈ moves history, moved.transfer.sent <+: moved.transfer.delivered) ∧
    ∀ one ∈ moves history, ∀ other ∈ moves history,
      one.pair.sessionId = other.pair.sessionId → one.pair = other.pair := by
  have streams := run_streams run
  refine ⟨fun sessionId isClientToProxy => ?_, fun socket member active => ?_, fun moved member => ?_,
    streams.same⟩
  · exact (streams.intact (.make 0 0 sessionId isClientToProxy)).1
  · exact (streams.settled socket member).complete active
  · have inStream : moved.transfer ∈ stream moved.pair.sessionId moved.isClientToProxy history :=
      List.mem_map_of_mem (List.mem_filter.mpr ⟨member, by simp⟩)
    exact (streams.intact (.make 0 0 moved.pair.sessionId moved.isClientToProxy)).2 _ inStream

/-- Two bytes of the first client, which the origin's socket takes one by one. -/
def sayHi : Action := .relay 5 11 (fun _ => 0) [.data (bytes "hi")] [.accepts 1, .accepts 1]

theorem readsSucceed_sayHi : ∀ action ∈ relayFirst ++ [sayHi], ∀ state, ReadsSucceed state action := by
  intro action inRun state
  rcases List.mem_append.mp inRun with before | last
  · refine ⟨registers_relayFirst action before state, ?_⟩
    rintro fd now memory reads writes rfl
    simp [relayFirst, connect, serve] at before
  · cases List.mem_singleton.mp last
    refine ⟨trivial, ?_⟩
    intro _ _ _ reads _ isEvent
    obtain ⟨-, -, -, rfl, -⟩ := Action.relay.inj isEvent
    simp

/-- The stream of the first client with these two bytes. -/
theorem streams_intact_hi : ∃ (history : History) (state : State),
    .client (.make 5 6 0 true) ∈ state.sockets ∧
    (stream 0 true history).flatMap Transfer.delivered = bytes "hi" ∧
    (stream 0 true history).flatMap Transfer.sent = bytes "hi" := by
  have executed : ∃ history state,
      runActions (State.step unrestricted) [] (initial 3 4 [3, 4] 0) (relayFirst ++ [sayHi]) =
        some (history, state) ∧ .client (.make 5 6 0 true) ∈ state.sockets ∧
      (stream 0 true history).flatMap Transfer.delivered = bytes "hi" ∧
      ∀ entry ∈ history, InBounds unrestricted ⟨.debug, 11⟩ entry.1 entry.2 :=
    ⟨_, _, rfl, by decide, by decide, by decide⟩
  obtain ⟨history, state, executed, member, delivered, inBounds⟩ := executed
  have run : Run (proxySystem unrestricted) ReadsSucceed history state :=
    run_of_runActions (.start initially) readsSucceed_sayHi executed
  have whole := (streams_intact run inBounds).2.1 _ member rfl
  exact ⟨history, state, member, delivered, whole.trans delivered⟩

end State

end NermalProxy
