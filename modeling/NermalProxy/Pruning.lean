import NermalProxy.Lifecycle

/-! # Pruning excess connections

A turn of `PruneExcessConnections` destroys the first client socket before it asks it for its
peer, and asks it for its session once more behind that.  As long as the freed memory still
holds what it held, whole sessions go, the first ones in the list first. -/

namespace NermalProxy

open NermalProxy.CString NermalProxy.KeyedList NermalProxy.Config

/-- The session of a relay socket. -/
def Socket.session? : Socket → Option Nat
  | .client socket => some socket.sessionId
  | _ => none

/-- At most two sockets are no relay sockets, and those that are come in pairs, one for a session. -/
structure Paired (sockets : List Socket) : Prop where
  distinct : (sockets.map Socket.fd).Nodup
  listeners : (sockets.filter (fun socket => !SocketManager.isClient socket)).length ≤ 2
  mirrored : ∀ socket, .client socket ∈ sockets → ∃ peer, .client peer ∈ sockets ∧
    peer.socketFd = socket.peerFd ∧ peer.peerFd = socket.socketFd ∧
    peer.sessionId = socket.sessionId ∧ socket.peerFd ≠ socket.socketFd
  single : ∀ socket other, .client socket ∈ sockets → .client other ∈ sockets →
    other.sessionId = socket.sessionId →
      other.socketFd = socket.socketFd ∨ other.socketFd = socket.peerFd

namespace SocketManager

inductive Call where
  | identity
  | getFd
  | getSessionId
  | getProxyFd
  deriving DecidableEq, Repr

/-- A call on a socket object, with the sockets that are in the list then. -/
structure Query where
  object : Socket
  call : Call
  present : List Socket

def asked (call : Call) (present objects : List Socket) : List Query :=
  objects.map (fun object => ⟨object, call, present⟩)

/-- A turn of the loop with the session it ends and its calls on socket objects; `freed` is what
`GetProxyFd` returns for an object that is destroyed. -/
def evictTraced (settings : Settings) (now : UInt64) (freed : ClientSocket → Fd) (state : State) :
    Option (State × Nat × List Query) :=
  match state.sockets.find? isClient with
  | some (.client socket) =>
    let client := Socket.client socket
    let first := asked .identity state.sockets (through isClient state.sockets) ++
      [⟨client, .getSessionId, state.sockets⟩, ⟨client, .getFd, state.sockets⟩]
    let alone := destroy client { state with sockets := state.sockets.eraseP isClient }
    -- the client is gone, and is asked for its peer
    let proxyFd := freed socket
    let after := removeSocket proxyFd alone
    let search := ⟨client, .getProxyFd, alone.sockets⟩ ::
      asked .getFd alone.sockets (through (fun peer => peer.fd = proxyFd) alone.sockets)
    let log : List Query :=
      match lookup Socket.fd proxyFd alone.sockets with
      | some peer => [⟨peer, .getFd, alone.sockets⟩, ⟨client, .getSessionId, after.sockets⟩]
      | none => []
    some (after.endSession settings now socket.sessionId, socket.sessionId, first ++ search ++ log)
  | _ => none

/-- The loop, with the sessions it ends and its calls. -/
def pruneTraced (settings : Settings) (now : Nat → UInt64) (freed : Nat → ClientSocket → Fd) :
    (turns : Nat) → State → Option (State × List Nat × List Query)
  | 0, state => if state.sockets.length > maxSockets then none else some (state, [], [])
  | turns + 1, state =>
    if state.sockets.length > maxSockets then
      match evictTraced settings (now turns) (freed turns) state with
      | none => none
      | some (next, sessionId, queries) =>
        (pruneTraced settings now freed turns next).map
          (fun run => (run.1, sessionId :: run.2.1, queries ++ run.2.2))
    else some (state, [], [])

section

variable {settings : Settings} {state next : State} {socket : ClientSocket}

/-- In freed memory that is not reused, the peer is still found. -/
theorem evictTraced_state (settings : Settings) (now : UInt64) (state : State) :
    (evictTraced settings now ClientSocket.peerFd state).map Prod.fst = evictOldest settings now state := by
  unfold evictTraced evictOldest
  cases found : state.sockets.find? isClient with
  | none => rfl
  | some socket => cases socket <;> rfl

theorem pruneTraced_state (settings : Settings) (now : Nat → UInt64) (turns : Nat) (state : State) :
    (pruneTraced settings now (fun _ => ClientSocket.peerFd) turns state).map Prod.fst =
      pruneLoop settings now turns state := by
  induction turns generalizing state with
  | zero =>
    simp only [pruneTraced, pruneLoop]
    split <;> rfl
  | succ turns inductionHypothesis =>
    simp only [pruneTraced, pruneLoop]
    rw [← evictTraced_state]
    split
    · cases evictTraced settings (now turns) ClientSocket.peerFd state with
      | none => rfl
      | some turn =>
        simp only [Option.map_map, Option.map_some, ← inductionHypothesis]
        rfl
    · rfl

/-! ## One turn over paired sockets -/

theorem exists_client {sockets : List Socket} (paired : Paired sockets)
    (many : sockets.length > maxSockets) :
    ∃ socket, sockets.find? isClient = some (.client socket) := by
  cases found : sockets.find? isClient with
  | none =>
    have none_ : ∀ socket ∈ sockets, (!isClient socket) = true := by simpa using found
    have few := paired.listeners
    rw [List.filter_eq_self.mpr none_] at few
    exact absurd many (by simp only [maxSockets]; omega)
  | some socket =>
    cases socket with
    | client socket => exact ⟨socket, rfl⟩
    | server fd => exact absurd (List.find?_some found) Bool.false_ne_true
    | command fd => exact absurd (List.find?_some found) Bool.false_ne_true

theorem Paired.eq_of_fd {sockets : List Socket} (paired : Paired sockets) {one other : Socket}
    (oneIn : one ∈ sockets) (otherIn : other ∈ sockets) (same : one.fd = other.fd) : one = other :=
  List.inj_on_of_nodup_map paired.distinct oneIn otherIn same

/-- Those with one of the two descriptors of a pair are those of its session. -/
theorem fd_iff_session {sockets : List Socket} (paired : Paired sockets)
    (member : .client socket ∈ sockets) {other : Socket} (otherIn : other ∈ sockets) :
    (other.fd = socket.socketFd ∨ other.fd = socket.peerFd) ↔ other.session? = some socket.sessionId := by
  obtain ⟨peer, peerIn, peerFd, -, peerSession, -⟩ := paired.mirrored socket member
  constructor
  · rintro (same | same)
    · rw [Paired.eq_of_fd paired otherIn member same]
      rfl
    · have isPeer : other = .client peer := Paired.eq_of_fd paired otherIn peerIn (same.trans peerFd.symm)
      rw [isPeer, Socket.session?, peerSession]
  · intro session
    cases other with
    | client other => exact paired.single socket other member otherIn (Option.some.inj session)
    | server fd => cases session
    | command fd => cases session

/-- The sockets of the other sessions. -/
def withoutSession (sessionId : Nat) (sockets : List Socket) : List Socket :=
  sockets.filter (fun socket => decide (socket.session? ≠ some sessionId))

theorem mem_withoutSession {sockets : List Socket} {sessionId : Nat} {other : Socket} :
    other ∈ withoutSession sessionId sockets ↔
      other ∈ sockets ∧ other.session? ≠ some sessionId := by
  simp [withoutSession]

theorem Paired.withoutSession {sockets : List Socket} (paired : Paired sockets) (sessionId : Nat) :
    Paired (withoutSession sessionId sockets) := by
  have part : (SocketManager.withoutSession sessionId sockets).Sublist sockets := List.filter_sublist
  refine ⟨paired.distinct.sublist (part.map _), ?_, ?_, ?_⟩
  · exact (part.filter _).length_le.trans paired.listeners
  · intro socket member
    obtain ⟨inList, other⟩ := mem_withoutSession.mp member
    obtain ⟨peer, peerIn, peerFd, mirror, same, different⟩ := paired.mirrored socket inList
    refine ⟨peer, mem_withoutSession.mpr ⟨peerIn, ?_⟩, peerFd, mirror, same, different⟩
    rw [Socket.session?, same]
    exact other
  · exact fun socket other member otherIn =>
      paired.single socket other (part.subset member) (part.subset otherIn)

theorem endSession_ids (settings : Settings) (now : UInt64) (state : State) (sessionId : Nat) :
    (state.endSession settings now sessionId).sessions.ids = state.sessions.ids.erase sessionId := by
  have list := SessionManager.endSession_list settings now sessionId state.sessions state.stats
  simp only [State.endSession, list, SessionManager.ids, map_remove]

/-- A turn removes the pair of the first client socket, and ends its session. -/
theorem evictOldest_pair (settings : Settings) (now : UInt64) (paired : Paired state.sockets)
    (first : state.sockets.find? isClient = some (.client socket)) :
    ∃ next, evictOldest settings now state = some next ∧
      next.sockets = withoutSession socket.sessionId state.sockets ∧
      next.sockets.length + 2 = state.sockets.length ∧
      next.sessions.ids = state.sessions.ids.erase socket.sessionId := by
  have member := List.mem_of_find?_eq_some first
  obtain ⟨peer, peerIn, peerFd, -, -, different⟩ := paired.mirrored socket member
  let alone := state.sockets.eraseP isClient
  have left : alone = state.sockets.filter (fun other => other.fd ≠ socket.socketFd) :=
    eraseP_eq_filter first paired.distinct
  have distinctLeft : (alone.map Socket.fd).Nodup :=
    paired.distinct.sublist ((List.eraseP_sublist).map _)
  have peerLeft : .client peer ∈ alone := by
    rw [left, List.mem_filter]
    refine ⟨peerIn, decide_eq_true ?_⟩
    change peer.socketFd ≠ socket.socketFd
    rw [peerFd]
    exact different
  have found : lookup Socket.fd socket.peerFd alone = some (.client peer) := by
    rw [← peerFd]
    exact lookup_of_mem distinctLeft peerLeft
  let pruned := (State.close { state with sockets := remove Socket.fd socket.peerFd alone } socket.socketFd
    ).close socket.peerFd
  have evicted : evictOldest settings now state =
      some (pruned.endSession settings now socket.sessionId) := by
    simp only [evictOldest, first]
    rw [State.removeSocket_peer found]
  refine ⟨_, evicted, ?_, ?_, endSession_ids ..⟩
  · change remove Socket.fd socket.peerFd alone = _
    rw [remove, eraseP_eq_filter found distinctLeft, left, List.filter_filter]
    refine List.filter_congr fun other otherIn => ?_
    have others := not_congr (fd_iff_session paired member otherIn)
    rw [not_or, and_comm, ← peerFd] at others
    rw [← Bool.decide_and, decide_eq_decide]
    exact others
  · have both := (perm_cons_eraseP first).trans ((perm_cons_remove found).cons _)
    exact both.length_eq.symm

/-! ## The whole loop -/

/-- The sessions of the relay sockets, by the first socket of each. -/
def sessionsInOrder (sockets : List Socket) : List Nat := (sockets.filterMap Socket.session?).eraseDups

/-- The sockets of none of these sessions. -/
def withoutSessions (sessions : List Nat) (sockets : List Socket) : List Socket :=
  sockets.filter (fun socket => socket.session?.all (fun sessionId => decide (sessionId ∉ sessions)))

/-- Few sockets are left; the pairs of these sessions are gone, which are the first ones of the list,
and they are the ones that have ended. -/
structure EvictsSessions (state final : State) (ended : List Nat) : Prop where
  few : final.sockets.length ≤ maxSockets
  first : ended <+: sessionsInOrder state.sockets
  pairs : final.sockets = withoutSessions ended state.sockets
  sessions : final.sessions.ids = state.sessions.ids.diff ended

theorem evictsSessions_none (few : state.sockets.length ≤ maxSockets) : EvictsSessions state state [] := by
  refine ⟨few, List.nil_prefix, ?_, rfl⟩
  symm
  rw [withoutSessions, List.filter_eq_self]
  intro socket _
  cases socket.session? <;> simp

theorem sessionsInOrder_first {sockets : List Socket}
    (first : sockets.find? isClient = some (.client socket)) :
    sessionsInOrder sockets =
      socket.sessionId :: sessionsInOrder (withoutSession socket.sessionId sockets) := by
  have rest : ∀ sockets : List Socket, (withoutSession socket.sessionId sockets).filterMap Socket.session? =
      (sockets.filterMap Socket.session?).filter (fun sessionId => !sessionId == socket.sessionId) := by
    intro sockets
    rw [withoutSession, List.filter_filterMap, List.filterMap_filter]
    refine List.filterMap_congr fun other _ => ?_
    cases session : other.session? with
    | none => simp
    | some sessionId => by_cases same : sessionId = socket.sessionId <;> simp [same, Option.filter]
  have starts : ∃ others, sockets.filterMap Socket.session? = socket.sessionId :: others := by
    induction sockets with
    | nil => cases first
    | cons other sockets inductionHypothesis =>
      cases other with
      | client other =>
        rw [List.find?_cons_of_pos rfl] at first
        cases first
        exact ⟨_, rfl⟩
      | server fd => exact inductionHypothesis first
      | command fd => exact inductionHypothesis first
  obtain ⟨others, starts⟩ := starts
  rw [sessionsInOrder, sessionsInOrder, rest, starts, List.eraseDups_cons, List.filter_cons_of_neg (by simp)]

theorem evictsSessions_cons (first : state.sockets.find? isClient = some (.client socket))
    (pair : next.sockets = withoutSession socket.sessionId state.sockets)
    (sessions : next.sessions.ids = state.sessions.ids.erase socket.sessionId) {final : State}
    {ended : List Nat} (evicts : EvictsSessions next final ended) :
    EvictsSessions state final (socket.sessionId :: ended) := by
  refine ⟨evicts.few, ?_, ?_, ?_⟩
  · rw [sessionsInOrder_first first, ← pair]
    exact (List.prefix_cons_inj _).mpr evicts.first
  · rw [evicts.pairs, pair, withoutSession, withoutSessions, withoutSessions, List.filter_filter]
    refine List.filter_congr fun other _ => ?_
    cases session : other.session? with
    | none => simp
    | some sessionId => by_cases same : sessionId = socket.sessionId <;> simp [same]
  · rw [evicts.sessions, sessions, List.diff_cons]

theorem pruneLoop_pairs (settings : Settings) (now : Nat → UInt64) {turns : Nat}
    (paired : Paired state.sockets) (enough : state.sockets.length ≤ turns) :
    ∃ final ended, pruneLoop settings now turns state = some final ∧
      EvictsSessions state final ended := by
  induction turns generalizing state with
  | zero =>
    have few : ¬ state.sockets.length > maxSockets := by simp only [maxSockets]; omega
    exact ⟨state, [], by rw [pruneLoop, if_neg few], evictsSessions_none (Nat.le_of_not_lt few)⟩
  | succ turns inductionHypothesis =>
    by_cases many : state.sockets.length > maxSockets
    · obtain ⟨socket, first⟩ := exists_client paired many
      obtain ⟨next, evicted, pair, shorter, sessions⟩ :=
        evictOldest_pair settings (now turns) paired first
      have stillPaired : Paired next.sockets := by
        rw [pair]
        exact Paired.withoutSession paired _
      obtain ⟨final, ended, pruned, evicts⟩ := inductionHypothesis stillPaired (by omega)
      refine ⟨final, socket.sessionId :: ended, ?_, evictsSessions_cons first pair sessions evicts⟩
      rw [pruneLoop, if_pos many, evicted]
      exact pruned
    · refine ⟨state, [], ?_, evictsSessions_none (Nat.le_of_not_lt many)⟩
      rw [pruneLoop, if_neg many]

/-- As long as freed memory keeps its contents, pruning evicts whole sessions. -/
theorem pruneExcessConnections_pairs (settings : Settings) (now : Nat → UInt64)
    (paired : Paired state.sockets) :
    ∃ final ended, pruneExcessConnections settings now state = some final ∧
      EvictsSessions state final ended :=
  pruneLoop_pairs settings now paired le_rfl

/-- The calls are on sockets that are still in the list. -/
def OnlyLive (queries : List Query) : Prop := ∀ query ∈ queries, query.object ∈ query.present

/-- Whatever the freed memory holds, the first turn asks it. -/
theorem not_onlyLive {now : Nat → UInt64} {freed : Nat → ClientSocket → Fd} {turns : Nat}
    {run : State × List Nat × List Query} (paired : Paired state.sockets)
    (many : state.sockets.length > maxSockets)
    (pruned : pruneTraced settings now freed turns state = some run) : ¬ OnlyLive run.2.2 := by
  intro live
  obtain ⟨socket, first⟩ := exists_client paired many
  cases turns with
  | zero =>
    rw [pruneTraced, if_pos many] at pruned
    cases pruned
  | succ turns =>
    rw [pruneTraced, if_pos many] at pruned
    simp only [evictTraced, first] at pruned
    obtain ⟨rest, -, rfl⟩ := Option.map_eq_some_iff.mp pruned
    have present := live ⟨.client socket, .getProxyFd, state.sockets.eraseP isClient⟩
      (by simp [destroy, State.close])
    rw [eraseP_eq_filter first paired.distinct] at present
    simp at present

/-- Pruning evicts whole sessions and asks live sockets only, exactly when it evicts none. -/
theorem prunesLive_iff (settings : Settings) (now : Nat → UInt64) (freed : Nat → ClientSocket → Fd)
    (paired : Paired state.sockets) :
    (∃ run, pruneTraced settings now freed state.sockets.length state = some run ∧
        EvictsSessions state run.1 run.2.1 ∧ OnlyLive run.2.2) ↔
      state.sockets.length ≤ 200 := by
  constructor
  · rintro ⟨run, pruned, -, live⟩
    by_contra many
    exact not_onlyLive paired (Nat.lt_of_not_le many) pruned live
  · intro few
    refine ⟨(state, [], []), ?_, evictsSessions_none few, by simp [OnlyLive]⟩
    have notMany : ¬ state.sockets.length > maxSockets := Nat.not_lt_of_le few
    cases state.sockets.length with
    | zero => rw [pruneTraced, if_neg notMany]
    | succ turns => rw [pruneTraced, if_neg notMany]

end

/-- The other place of the pair at a place. -/
def partner (place : Nat) : Nat := if place % 2 = 0 then place + 1 else place - 1

def crowdSocket (place : Nat) : ClientSocket where
  isActive := true
  isClientToProxy := place % 2 == 0
  socketFd := place
  peerFd := partner place
  sessionId := place / 2

/-- A proxy with as many pairs as one likes. -/
def crowd (pairs : Nat) : State :=
  { sessions := ⟨pairs, []⟩
    sockets := (List.range (2 * pairs)).map (fun place => .client (crowdSocket place))
    pipe := [], queue := [], workers := [], cache := [], stats := ⟨[], 0⟩, openFds := [], closed := []
    responses := [], resent := [] }

theorem mem_crowd {pairs : Nat} {socket : ClientSocket} :
    .client socket ∈ (crowd pairs).sockets ↔ ∃ place < 2 * pairs, crowdSocket place = socket := by
  simp [crowd]

theorem crowd_paired (pairs : Nat) : Paired (crowd pairs).sockets := by
  refine ⟨?_, ?_, ?_, ?_⟩
  · rw [crowd, List.map_map]
    apply List.nodup_range.map
    intro one other same
    exact Int.ofNat.inj same
  · rw [List.filter_eq_nil_iff.mpr]
    · exact Nat.zero_le 2
    · intro socket member
      obtain ⟨place, -, rfl⟩ := List.mem_map.mp member
      simp [isClient]
  · intro socket member
    obtain ⟨place, within, rfl⟩ := mem_crowd.mp member
    have inside : partner place < 2 * pairs := by unfold partner; split <;> omega
    have back : partner (partner place) = place := by unfold partner; split <;> split <;> omega
    have sameSession : partner place / 2 = place / 2 := by unfold partner; split <;> omega
    have different : partner place ≠ place := by unfold partner; split <;> omega
    exact ⟨crowdSocket (partner place), mem_crowd.mpr ⟨_, inside, rfl⟩, rfl, congrArg Int.ofNat back,
      sameSession, fun same => different (Int.ofNat.inj same)⟩
  · intro socket other member otherIn same
    obtain ⟨place, -, rfl⟩ := mem_crowd.mp member
    obtain ⟨otherPlace, -, rfl⟩ := mem_crowd.mp otherIn
    have halves : otherPlace / 2 = place / 2 := same
    have either : otherPlace = place ∨ otherPlace = partner place := by unfold partner; split <;> omega
    exact either.imp (congrArg Int.ofNat) (congrArg Int.ofNat)

/-- The two sockets of one pair may stay. -/
theorem prunesLive_iff_pair :
    ∃ run, pruneTraced ⟨8080, false, [], [], []⟩ (fun _ => 0) (fun _ _ => 0) 2 (crowd 1) = some run ∧
      EvictsSessions (crowd 1) run.1 run.2.1 ∧ OnlyLive run.2.2 :=
  (prunesLive_iff ⟨8080, false, [], [], []⟩ (fun _ => 0) (fun _ _ => 0) (crowd_paired 1)).mpr (by decide)

/-- With 101 pairs, the first client is asked for its peer when it is gone. -/
theorem destroyed_socket_asked :
    ¬ ∀ (settings : Settings) (now : Nat → UInt64) (freed : Nat → ClientSocket → Fd) (state : State),
      Paired state.sockets →
      ∃ run, pruneTraced settings now freed state.sockets.length state = some run ∧
        EvictsSessions state run.1 run.2.1 ∧ OnlyLive run.2.2 := by
  intro claim
  obtain ⟨run, pruned, -, live⟩ :=
    claim ⟨8080, false, [], [], []⟩ (fun _ => 0) (fun _ _ => 0) (crowd 101) (crowd_paired 101)
  have many : (crowd 101).sockets.length > maxSockets := by simp [crowd, maxSockets]
  exact not_onlyLive (crowd_paired 101) many pruned live

end SocketManager

end NermalProxy
