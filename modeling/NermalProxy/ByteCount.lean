import Mathlib.Algebra.GroupWithZero.Nat
import NermalProxy.SessionCalls

/-! # Byte counters

What `::write` accepted in the relay events of a run, against the counters of the
sessions.  The counters start with whatever their storage held; the direction towards
the origin counts what `Write` returns, the other one what `Read` returns. -/

namespace NermalProxy

open NermalProxy.CString NermalProxy.KeyedList NermalProxy.Config NermalProxy.Transition

namespace ClientSocket

/-- Results with which a loop over this many bytes gets all of them accepted. -/
def completes : Nat → List WriteResult → Bool
  | 0, _ => true
  | _ + 1, [] => false
  | bytesToWrite + 1, .accepts count :: results =>
    let numWritten := min count (bytesToWrite + 1)
    numWritten ≠ 0 && completes (bytesToWrite + 1 - numWritten) results
  | bytesToWrite + 1, .error errno :: results =>
    recoverable errno && completes (bytesToWrite + 1) results

@[simp] theorem completes_zero (results : List WriteResult) : completes 0 results = true := by
  cases results <;> rfl

/-- Results with which it fails before a byte is accepted. -/
def refuses : List WriteResult → Bool
  | [] => false
  | .accepts count :: _ => count = 0
  | .error errno :: results => if recoverable errno then refuses results else true

/-- A `Write` that returns has written and reports everything, or it reports nothing. -/
theorem writeLoop_returned (socket : ClientSocket) (memory : Memory) (results : List WriteResult) :
    ∀ offset bytesToWrite totalWritten returned,
      (writeLoop socket memory offset bytesToWrite totalWritten results).returned = some returned →
      (completes bytesToWrite results = true ∧ returned = totalWritten + bytesToWrite ∧
        (writeLoop socket memory offset bytesToWrite totalWritten results).sent.length = bytesToWrite) ∨
      (completes bytesToWrite results = false ∧ returned = 0 ∧
        (writeLoop socket memory offset bytesToWrite totalWritten results).sent.length < bytesToWrite ∧
        ((writeLoop socket memory offset bytesToWrite totalWritten results).sent.length = 0 ↔
          refuses results = true)) := by
  induction results with
  | nil =>
    intro offset bytesToWrite totalWritten returned done
    cases bytesToWrite with
    | zero =>
      cases done
      exact .inl ⟨rfl, rfl, rfl⟩
    | succ bytesToWrite => cases done
  | cons result results inductionHypothesis =>
    intro offset bytesToWrite totalWritten returned done
    cases bytesToWrite with
    | zero =>
      cases done
      exact .inl ⟨rfl, rfl, rfl⟩
    | succ bytesToWrite =>
      cases result with
      | accepts accepted =>
        by_cases none_ : min accepted (bytesToWrite + 1) = 0
        · have zero : accepted = 0 := by omega
          simp only [writeLoop, none_, if_true, Option.some.injEq] at done ⊢
          exact .inr ⟨by simp [completes, zero], done.symm, Nat.succ_pos _, by simp [refuses, zero]⟩
        · simp only [writeLoop, none_, if_false] at done ⊢
          have positive : ¬ accepted = 0 := by omega
          obtain ⟨whole, total, sent⟩ | ⟨part, zero, sent, -⟩ := inductionHypothesis _ _ _ _ done
          · refine .inl ⟨by simp [completes, positive, whole], by omega, ?_⟩
            simp only [List.length_append, segment_length, sent]
            omega
          · refine .inr ⟨by simp [completes, part], zero, ?_, ?_⟩
            · simp only [List.length_append, segment_length]
              omega
            · simp only [List.length_append, segment_length, refuses, decide_eq_true_eq]
              omega
      | error errno =>
        by_cases again : recoverable errno = true
        · simp only [writeLoop, again, if_true] at done ⊢
          simpa [completes, refuses, again] using inductionHypothesis _ _ _ _ done
        · simp only [writeLoop, again, Bool.false_eq_true, if_false, Option.some.injEq] at done ⊢
          exact .inr ⟨by simp [completes, again], done.symm, Nat.succ_pos _, by simp [refuses, again]⟩

end ClientSocket

namespace Relay

def Outcome.sent : Outcome → Bytes
  | .pending transfer => transfer.sent
  | .teardown => []
  | .relayed _ _ _ transfer => transfer.sent

/-- What a finished event has counted and sent. -/
theorem relayed_counts {socket after : ClientSocket} {memory : ClientSocket.Memory}
    {reads : List ReadResult} {writes : List WriteResult} {numRead numWritten : Nat}
    {transfer : Transfer}
    (relayed : relay socket memory reads writes = .relayed after numRead numWritten transfer) :
    socket.isActive = true ∧ reads.head?.map ReadResult.toSize = some numRead ∧
    ((ClientSocket.completes numRead writes = true ∧ numWritten = numRead ∧
        transfer.sent.length = numRead) ∨
      (ClientSocket.completes numRead writes = false ∧ numWritten = 0 ∧
        transfer.sent.length < numRead ∧
        (transfer.sent.length = 0 ↔ ClientSocket.refuses writes = true))) := by
  by_cases active : socket.isActive = true
  · cases reads with
    | nil => simp [relay_nil active] at relayed
    | cons result results =>
      by_cases empty : result.toSize = 0
      · rw [relay_endOfStream active empty] at relayed
        cases relayed
        exact ⟨active, by simp [empty], .inl ⟨ClientSocket.completes_zero writes, rfl, rfl⟩⟩
      · simp only [relay, ClientSocket.read_active active, empty, if_false, ClientSocket.write,
          active, Bool.not_true, Bool.false_eq_true] at relayed
        split at relayed
        · cases relayed
        · rename_i returned
          cases relayed
          have counts := ClientSocket.writeLoop_returned socket _ writes 0 _ 0 _ returned
          rw [Nat.zero_add] at counts
          exact ⟨active, rfl, counts⟩
  · rw [relay_inactive (by simpa using active)] at relayed
    cases relayed

end Relay

def Session.counters (session : Session) : Nat × UInt64 × UInt64 :=
  (session.sessionId, session.clientRxBytes, session.clientTxBytes)

def SessionManager.counters (manager : SessionManager) : List (Nat × UInt64 × UInt64) :=
  manager.sessionList.map Session.counters

/-- There is no new session, and no counter of one that stays has changed. -/
structure SessionManager.KeepsCounters (before after : SessionManager) : Prop where
  nextId : after.sessionId = before.sessionId
  counters : after.counters.Sublist before.counters

theorem AuditState.call_keepsCounters (state : AuditState) {call : SessionCall} (quiet : call.IsQuiet) :
    SessionManager.KeepsCounters state.sessions (state.call call).sessions := by
  cases call with
  | createSession storage clientFd now => cases quiet
  | update sessionId setter =>
    refine ⟨rfl, ?_⟩
    have same : (state.sessions.update sessionId (fun session => setter.apply session)).counters =
        state.sessions.counters := by
      apply map_adjust
      intro session
      cases setter with
      | addRxBytes count | addTxBytes count => cases quiet
      | _ => rfl
    simp only [AuditState.call, same, List.Sublist.refl]
  | endSession sessionId now =>
    simp only [AuditState.call, SessionManager.endSession_list]
    exact ⟨rfl, (remove_sublist _).map _⟩
  | logAndReset now => exact ⟨rfl, List.Sublist.refl _⟩

theorem AuditState.performs_keepsCounters {state next : AuditState}
    (performs : Performs SessionCall.IsQuiet state next) :
    SessionManager.KeepsCounters state.sessions next.sessions := by
  induction performs with
  | refl => exact ⟨rfl, List.Sublist.refl _⟩
  | @tail middle _ _ last inductionHypothesis =>
    obtain ⟨call, quiet, rfl⟩ := last
    have kept := middle.call_keepsCounters quiet
    exact ⟨kept.nextId.trans inductionHypothesis.nextId, kept.counters.trans inductionHypothesis.counters⟩

namespace State

variable {state next : State} {settings : Settings}

theorem quietly_keepsCounters (quietly : Quietly settings state next) :
    SessionManager.KeepsCounters state.sessions next.sessions :=
  AuditState.performs_keepsCounters quietly

/-! ## What a run has moved -/

/-- The bytes that `::write` accepted in the step from one direction of a session's relay. -/
def accepted (sessionId : Nat) (isClientToProxy : Bool) (state : State) : Action → Nat
  | .relay fd _ memory reads writes =>
    match lookup Socket.fd fd state.sockets with
    | some (.client socket) =>
      if socket.sessionId = sessionId ∧ socket.isClientToProxy = isClientToProxy then
        (Relay.relay socket memory reads writes).sent.length
      else 0
    | _ => 0
  | _ => 0

def totalAccepted (sessionId : Nat) (isClientToProxy : Bool) (history : History) : Nat :=
  (history.map (fun entry => entry.1.accepted sessionId isClientToProxy entry.2)).sum

/-- The counters are right, modulo 2^64. -/
def Accounted (history : History) (state : State) : Prop :=
  ∀ session ∈ state.sessions.sessionList,
    session.clientRxBytes = UInt64.ofNat (totalAccepted session.sessionId true history) ∧
    session.clientTxBytes = UInt64.ofNat (totalAccepted session.sessionId false history)

/-- A new session's storage is zero; and a relay event that reads something gets all of it accepted,
or, towards the origin, nothing of it. -/
def CountsRight (state : State) : Action → Prop
  | .accept storage _ _ _ => storage.clientRxBytes = 0 ∧ storage.clientTxBytes = 0
  | .relay fd _ _ reads writes =>
    ∀ socket, lookup Socket.fd fd state.sockets = some (.client socket) → socket.isActive = true →
      ∀ result, reads.head? = some result →
        ClientSocket.completes result.toSize writes = true ∨
        (socket.isClientToProxy = true ∧ ClientSocket.refuses writes = true)
  | _ => True

/-- `::read` never delivers more than fits into the buffer of the relay. -/
def Delivers (_ : State) : Action → Prop
  | .relay _ _ _ reads _ => ∀ bytes, .data bytes ∈ reads → bytes.length ≤ 32768
  | _ => True

/-! ## One step -/

inductive Counting (state : State) (action : Action) (next : State) : Prop
  | quiet (kept : SessionManager.KeepsCounters state.sessions next.sessions)
      (silent : ∀ id towards, state.accepted id towards action = 0)
      (right : CountsRight state action) : Counting state action next
  | created {storage : SessionStorage} {now : UInt64} {clientFd : Fd} {clientIp : Bytes}
      (isAccept : action = .accept storage now clientFd clientIp)
      (nextId : next.sessions.sessionId = state.sessions.sessionId + 1)
      (counters : next.sessions.counters = state.sessions.counters ++
        [(state.sessions.sessionId, storage.clientRxBytes, storage.clientTxBytes)]) :
      Counting state action next
  | relayed {fd : Fd} {now : UInt64} {memory : ClientSocket.Memory} {reads : List ReadResult}
      {writes : List WriteResult} {socket after : ClientSocket} {numRead numWritten : Nat}
      {transfer : Relay.Transfer} {session : Session}
      (isRelay : action = .relay fd now memory reads writes)
      (search : lookup Socket.fd fd state.sockets = some (.client socket))
      (outcome : Relay.relay socket memory reads writes = .relayed after numRead numWritten transfer)
      (found : state.getSession socket.sessionId = some session)
      (sessions : next.sessions = state.sessions.update socket.sessionId
        (SocketManager.countBytes socket numRead numWritten)) :
      Counting state action next

theorem step_counting {action : Action} (stepped : state.step settings action = some next) :
    Counting state action next := by
  cases step_calls stepped with
  | command quietly | timeout quietly | take quietly | work quietly =>
    exact .quiet (quietly_keepsCounters quietly) (fun _ _ => rfl) trivial
  | @accepted storage now clientFd clientIp sessionId calls =>
    have sessions : next.sessions = ((state.sessions.createSession storage clientFd now).1).update
        sessionId (fun session => session.setClientAddress clientIp) :=
      congrArg AuditState.sessions calls
    refine .created rfl (by rw [sessions]; rfl) ?_
    have same : ∀ manager : SessionManager, (manager.update sessionId
        (fun session => session.setClientAddress clientIp)).counters = manager.counters :=
      fun manager => map_adjust (fun _ => rfl)
    rw [sessions, same]
    simp [SessionManager.counters, SessionManager.createSession, Session.counters, Session.make]
  | teardown search outcome quietly =>
    refine .quiet (quietly_keepsCounters quietly) ?_ ?_
    · intro id towards
      simp [accepted, search, outcome, Relay.Outcome.sent]
    · intro other same active
      rw [search] at same
      cases same
      rw [Relay.inactive_of_teardown outcome] at active
      cases active
  | relayed search outcome found calls =>
    refine .relayed rfl search outcome found ?_
    simpa [AuditState.call, countSetter_apply, audit] using congrArg AuditState.sessions calls

/-! ## Whole runs -/

theorem accounted_iff {history : History} : Accounted history state ↔
    ∀ entry ∈ state.sessions.counters,
      entry.2.1 = UInt64.ofNat (totalAccepted entry.1 true history) ∧
      entry.2.2 = UInt64.ofNat (totalAccepted entry.1 false history) := by
  simp [Accounted, SessionManager.counters, Session.counters]

theorem totalAccepted_snoc (id : Nat) (towards : Bool) (history : History) (action : Action) :
    totalAccepted id towards (history ++ [(state, action)]) =
      totalAccepted id towards history + state.accepted id towards action := by
  simp [totalAccepted]

/-- Session ids are not given out twice, so nothing is booked on one before its time. -/
structure Numbered (history : History) (state : State) : Prop where
  distinct : (state.sessions.counters.map Prod.fst).Nodup
  below : ∀ entry ∈ state.sessions.counters, entry.1 < state.sessions.sessionId
  silent : ∀ id towards, state.sessions.sessionId ≤ id → totalAccepted id towards history = 0

/-- What is accepted in a relay event is booked on the session of its socket. -/
theorem accepted_relayed {fd : Fd} {now : UInt64} {memory : ClientSocket.Memory}
    {reads : List ReadResult} {writes : List WriteResult} {socket after : ClientSocket}
    {numRead numWritten : Nat} {transfer : Relay.Transfer}
    (search : lookup Socket.fd fd state.sockets = some (.client socket))
    (outcome : Relay.relay socket memory reads writes = .relayed after numRead numWritten transfer)
    (id : Nat) (towards : Bool) :
    state.accepted id towards (.relay fd now memory reads writes) =
      if socket.sessionId = id ∧ socket.isClientToProxy = towards then transfer.sent.length else 0 := by
  simp [accepted, search, outcome, Relay.Outcome.sent]

theorem counters_update {manager : SessionManager} {sessionId : Nat} {session : Session}
    (distinct : (manager.counters.map Prod.fst).Nodup)
    (found : manager.getSession sessionId = some session) {change : Session → Session}
    {entry : Nat × UInt64 × UInt64} :
    entry ∈ (manager.update sessionId change).counters ↔
      entry = (change session).counters ∨ (entry ∈ manager.counters ∧ entry.1 ≠ sessionId) := by
  have keys : (manager.sessionList.map Session.sessionId).Nodup := by
    simpa [SessionManager.counters, Function.comp_def, Session.counters] using distinct
  have updated : (manager.update sessionId change).sessionList.Perm
      (change session :: remove Session.sessionId sessionId manager.sessionList) :=
    perm_cons_adjust found
  simp only [SessionManager.counters, List.mem_map, updated.mem_iff, List.mem_cons, mem_remove keys]
  constructor
  · rintro ⟨other, rfl | ⟨older, different⟩, rfl⟩
    · exact .inl rfl
    · exact .inr ⟨⟨other, older, rfl⟩, different⟩
  · rintro (rfl | ⟨⟨other, older, rfl⟩, different⟩)
    · exact ⟨_, .inl rfl, rfl⟩
    · exact ⟨other, .inr ⟨older, different⟩, rfl⟩

theorem countBytes_counters (socket : ClientSocket) (numRead numWritten : Nat) (session : Session) :
    (SocketManager.countBytes socket numRead numWritten session).counters =
      (session.sessionId,
        if socket.isClientToProxy then session.clientRxBytes + UInt64.ofNat numWritten
        else session.clientRxBytes,
        if socket.isClientToProxy then session.clientTxBytes
        else session.clientTxBytes + UInt64.ofNat numRead) := by
  unfold SocketManager.countBytes
  split <;> rfl

theorem numbered_step {history : History} {action : Action} (numbered : Numbered history state)
    (counting : Counting state action next) : Numbered (history ++ [(state, action)]) next := by
  cases counting with
  | quiet kept silent right =>
    refine ⟨(kept.counters.map _).nodup numbered.distinct, ?_, ?_⟩
    · intro entry member
      rw [kept.nextId]
      exact numbered.below entry (kept.counters.subset member)
    · intro id towards late
      rw [kept.nextId] at late
      rw [totalAccepted_snoc, numbered.silent id towards late, silent]
  | created isAccept nextId counters =>
    subst isAccept
    refine ⟨?_, ?_, ?_⟩
    · rw [counters, List.map_append]
      refine List.Nodup.append numbered.distinct (List.nodup_singleton _) ?_
      simp only [List.map_cons, List.map_nil, List.disjoint_singleton]
      intro member
      obtain ⟨entry, older, same⟩ := List.mem_map.mp member
      have := numbered.below entry older
      omega
    · intro entry member
      rw [counters] at member
      rw [nextId]
      rcases List.mem_append.mp member with older | last
      · exact Nat.lt_succ_of_lt (numbered.below entry older)
      · rw [List.mem_singleton.mp last]
        exact Nat.lt_succ_self _
    · intro id towards late
      rw [nextId] at late
      rw [totalAccepted_snoc, numbered.silent id towards (by omega)]
      rfl
  | relayed isRelay search outcome found sessions =>
    subst isRelay
    have sameIds : next.sessions.counters.map Prod.fst = state.sessions.counters.map Prod.fst := by
      rw [sessions]
      simp only [SessionManager.counters, SessionManager.update, List.map_map]
      exact map_adjust (g := Session.sessionId) (fun x => congrArg Prod.fst (countBytes_key _ _ _ x))
    have nextId : next.sessions.sessionId = state.sessions.sessionId := by rw [sessions]; rfl
    refine ⟨sameIds ▸ numbered.distinct, ?_, ?_⟩
    · intro entry member
      have inIds : entry.1 ∈ state.sessions.counters.map Prod.fst := sameIds ▸ List.mem_map_of_mem member
      obtain ⟨older, isEntry, same⟩ := List.mem_map.mp inIds
      rw [nextId, ← same]
      exact numbered.below older isEntry
    · intro id towards late
      rw [nextId] at late
      have booked := numbered.below _
        (List.mem_map_of_mem (f := Session.counters) (SessionManager.mem_of_getSession found))
      have named := SessionManager.getSession_sessionId found
      rename_i socket _ _ _ _ _
      have different : ¬ (socket.sessionId = id ∧ socket.isClientToProxy = towards) := by
        rintro ⟨rfl, -⟩
        simp only [Session.counters, named] at booked
        omega
      rw [totalAccepted_snoc, numbered.silent id towards late, accepted_relayed search outcome,
        if_neg different]

/-- Whether an event counts what it sends, by its results. -/
theorem counted_iff {socket : ClientSocket} {numRead numWritten sent : Nat} {writes : List WriteResult}
    (bounded : numRead < UInt64.size)
    (counts : (ClientSocket.completes numRead writes = true ∧ numWritten = numRead ∧ sent = numRead) ∨
      (ClientSocket.completes numRead writes = false ∧ numWritten = 0 ∧ sent < numRead ∧
        (sent = 0 ↔ ClientSocket.refuses writes = true))) :
    UInt64.ofNat (if socket.isClientToProxy then numWritten else numRead) = UInt64.ofNat sent ↔
      ClientSocket.completes numRead writes = true ∨
        (socket.isClientToProxy = true ∧ ClientSocket.refuses writes = true) := by
  obtain ⟨whole, rfl, rfl⟩ | ⟨part, rfl, less, refused⟩ := counts
  · simp [whole]
  · have same : ∀ count, count < UInt64.size →
        (UInt64.ofNat count = UInt64.ofNat sent ↔ count = sent) := by
      intro count small
      constructor
      · intro equal
        have values := congrArg UInt64.toNat equal
        rwa [UInt64.toNat_ofNat_of_lt' small, UInt64.toNat_ofNat_of_lt' (less.trans bounded)] at values
      · rintro rfl
        rfl
    cases direction : socket.isClientToProxy with
    | true =>
      simp only [if_true, part, Bool.false_eq_true, false_or, true_and]
      rw [same 0 (by decide), ← refused, eq_comm]
    | false =>
      simp only [Bool.false_eq_true, if_false, part, false_and, or_false, iff_false]
      rw [same numRead bounded]
      omega

/-- Towards the right counters no bound on what is read is needed. -/
theorem counted_of_right {socket : ClientSocket} {numRead numWritten sent : Nat}
    {writes : List WriteResult}
    (counts : (ClientSocket.completes numRead writes = true ∧ numWritten = numRead ∧ sent = numRead) ∨
      (ClientSocket.completes numRead writes = false ∧ numWritten = 0 ∧ sent < numRead ∧
        (sent = 0 ↔ ClientSocket.refuses writes = true)))
    (right : ClientSocket.completes numRead writes = true ∨
      (socket.isClientToProxy = true ∧ ClientSocket.refuses writes = true)) :
    (if socket.isClientToProxy then numWritten else numRead) = sent := by
  obtain ⟨whole, rfl, rfl⟩ | ⟨part, rfl, less, refused⟩ := counts
  · simp
  · obtain ⟨towards, refuses⟩ := right.resolve_left (by simp [part])
    simp [towards, refused.mpr refuses]

theorem accounted_relayed {history : History} (numbered : Numbered history state)
    (accounted : Accounted history state) {fd : Fd} {now : UInt64} {memory : ClientSocket.Memory}
    {reads : List ReadResult} {writes : List WriteResult} {socket after : ClientSocket}
    {numRead numWritten : Nat} {transfer : Relay.Transfer} {session : Session}
    (search : lookup Socket.fd fd state.sockets = some (.client socket))
    (outcome : Relay.relay socket memory reads writes = .relayed after numRead numWritten transfer)
    (found : state.getSession socket.sessionId = some session)
    (sessions : next.sessions = state.sessions.update socket.sessionId
      (SocketManager.countBytes socket numRead numWritten)) :
    Accounted (history ++ [(state, .relay fd now memory reads writes)]) next ↔
      UInt64.ofNat (if socket.isClientToProxy then numWritten else numRead) =
        UInt64.ofNat transfer.sent.length := by
  have named := SessionManager.getSession_sessionId found
  have before := accounted session (SessionManager.mem_of_getSession found)
  rw [named] at before
  simp only [accounted_iff, sessions, counters_update numbered.distinct found, totalAccepted_snoc,
    accepted_relayed search outcome, countBytes_counters, named]
  constructor
  · intro all
    obtain ⟨rx, tx⟩ := all _ (.inl rfl)
    cases direction : socket.isClientToProxy with
    | true => simpa [direction, before.1, UInt64.ofNat_add] using rx
    | false => simpa [direction, before.2, UInt64.ofNat_add] using tx
  · rintro counted entry (rfl | ⟨older, different⟩)
    · cases direction : socket.isClientToProxy with
      | true => simpa [direction, before, UInt64.ofNat_add] using counted
      | false => simpa [direction, before, UInt64.ofNat_add] using counted
    · have others : ¬ socket.sessionId = entry.1 := fun same => different same.symm
      simpa [others] using accounted_iff.mp accounted entry older

theorem accounted_quiet {history : History} {action : Action} (accounted : Accounted history state)
    (kept : SessionManager.KeepsCounters state.sessions next.sessions)
    (silent : ∀ id towards, state.accepted id towards action = 0) :
    Accounted (history ++ [(state, action)]) next := by
  simp only [accounted_iff, totalAccepted_snoc, silent, Nat.add_zero] at accounted ⊢
  exact fun entry member => accounted entry (kept.counters.subset member)

theorem accounted_created {history : History} (numbered : Numbered history state)
    (accounted : Accounted history state) {storage : SessionStorage} {now : UInt64} {clientFd : Fd}
    {clientIp : Bytes} (counters : next.sessions.counters = state.sessions.counters ++
      [(state.sessions.sessionId, storage.clientRxBytes, storage.clientTxBytes)]) :
    Accounted (history ++ [(state, .accept storage now clientFd clientIp)]) next ↔
      storage.clientRxBytes = 0 ∧ storage.clientTxBytes = 0 := by
  have silent : ∀ id towards,
      state.accepted id towards (.accept storage now clientFd clientIp) = 0 := fun _ _ => rfl
  have fresh := fun towards => numbered.silent state.sessions.sessionId towards (Nat.le_refl _)
  simp only [accounted_iff, totalAccepted_snoc, silent, Nat.add_zero, counters] at accounted ⊢
  constructor
  · intro all
    simpa [fresh] using all _ (List.mem_append_right _ (List.mem_singleton_self _))
  · intro zero entry member
    rcases List.mem_append.mp member with older | last
    · exact accounted entry older
    · rw [List.mem_singleton.mp last]
      simpa [fresh] using zero

/-- The outcome of a relay event decides `CountsRight` with the results it came from. -/
theorem countsRight_iff {fd : Fd} {now : UInt64} {memory : ClientSocket.Memory}
    {reads : List ReadResult} {writes : List WriteResult} {socket : ClientSocket} {numRead : Nat}
    (search : lookup Socket.fd fd state.sockets = some (.client socket))
    (active : socket.isActive = true) (size : reads.head?.map ReadResult.toSize = some numRead) :
    state.CountsRight (.relay fd now memory reads writes) ↔
      ClientSocket.completes numRead writes = true ∨
        (socket.isClientToProxy = true ∧ ClientSocket.refuses writes = true) := by
  obtain ⟨result, head, rfl⟩ := Option.map_eq_some_iff.mp size
  simp only [CountsRight, search, head, Option.some.injEq, Socket.client.injEq]
  constructor
  · exact fun right => right socket rfl active result rfl
  · rintro right _ rfl _ _ rfl
    exact right

theorem toSize_bounded {reads : List ReadResult} {numRead : Nat}
    (delivers : ∀ bytes, .data bytes ∈ reads → bytes.length ≤ 32768)
    (size : reads.head?.map ReadResult.toSize = some numRead) : numRead < UInt64.size := by
  obtain ⟨result, head, rfl⟩ := Option.map_eq_some_iff.mp size
  have size64 : 32768 < UInt64.size := by decide
  cases result with
  | data bytes => exact (delivers bytes (List.mem_of_mem_head? head)).trans_lt size64
  | endOfStream => exact Nat.zero_lt_of_lt size64
  | error errno => exact Nat.sub_lt (Nat.zero_lt_of_lt size64) Nat.zero_lt_one

theorem accounted_step {history : History} {action : Action} (numbered : Numbered history state)
    (accounted : Accounted history state) (counting : Counting state action next)
    (right : CountsRight state action) : Accounted (history ++ [(state, action)]) next := by
  cases counting with
  | quiet kept silent _ => exact accounted_quiet accounted kept silent
  | created isAccept _ counters =>
    subst isAccept
    exact (accounted_created numbered accounted counters).mpr right
  | relayed isRelay search outcome found sessions =>
    subst isRelay
    obtain ⟨active, size, counts⟩ := Relay.relayed_counts outcome
    have counted := counted_of_right counts ((countsRight_iff search active size).mp right)
    exact (accounted_relayed numbered accounted search outcome found sessions).mpr
      (congrArg UInt64.ofNat counted)

/-- A step that does not count right makes a counter wrong. -/
theorem countsRight_of_accounted {history : History} {action : Action}
    (numbered : Numbered history state) (accounted : Accounted history state)
    (counting : Counting state action next) (delivers : Delivers state action)
    (after : Accounted (history ++ [(state, action)]) next) : CountsRight state action := by
  cases counting with
  | quiet _ _ right => exact right
  | created isAccept _ counters =>
    subst isAccept
    exact (accounted_created numbered accounted counters).mp after
  | relayed isRelay search outcome found sessions =>
    subst isRelay
    obtain ⟨active, size, counts⟩ := Relay.relayed_counts outcome
    have counted := (accounted_relayed numbered accounted search outcome found sessions).mp after
    exact (countsRight_iff search active size).mpr
      ((counted_iff (toSize_bounded delivers size) counts).mp counted)

/-- In every run whose steps count right, the counters of every session are what `::write` accepted
from its relay, in each direction; and the first step that does not count right ends that. -/
theorem byte_accounting {history : History}
    (run : Run (proxySystem settings) CountsRight history state) :
    Accounted history state ∧
    ∀ action next, state.step settings action = some next → Delivers state action →
      (Accounted (history ++ [(state, action)]) next ↔ CountsRight state action) := by
  have books : Numbered history state ∧ Accounted history state := by
    apply run.historyInvariant (fun history state => Numbered history state ∧ Accounted history state)
    · rintro state ⟨serverFd, commandFd, openFds, now, -, -, -, rfl⟩
      refine ⟨⟨List.nodup_nil, ?_, fun _ _ _ => rfl⟩, ?_⟩
      · intro entry member
        cases member
      · intro session member
        cases member
    · rintro history state action next - ⟨numbered, accounted⟩ right stepped
      have counting := step_counting stepped
      exact ⟨numbered_step numbered counting, accounted_step numbered accounted counting right⟩
  refine ⟨books.2, fun action next stepped delivers => ?_⟩
  have counting := step_counting stepped
  exact ⟨countsRight_of_accounted books.1 books.2 counting delivers,
    accounted_step books.1 books.2 counting⟩

/-- What follows in a connector once `::connect` has succeeded, and the registration of the pair. -/
def register : List Action :=
  [.work 0 (.write (.accepts 4096)), .work 0 .none, .work 0 .none, .command none 10 (true, true)]

/-- The events of a first client until five bytes of its tunnel have been read on this end. -/
def exchange (fd : Fd) (writes : List WriteResult) : List Action :=
  serve 5 6 (bytes "10.0.0.2") (bytes "CONNECT example.com:443 HTTP/1.1\r\n\r\n") none .connected ++
    register ++ [.relay fd 11 (fun _ => 0) [.data (bytes "hello")] writes]

/-- A tunnel through which the client sends five bytes. -/
theorem byte_accounting_hello : ∃ (history : History) (state : State),
    state.sessions.counters = [(0, 5, 0)] ∧ Accounted history state := by
  have executed : ∃ history state,
      runActions (State.step unrestricted) [] (initial 3 4 [3, 4] 0) (exchange 5 [.accepts 2, .accepts 3]) =
        some (history, state) ∧
      state.sessions.counters = [(0, 5, 0)] := ⟨_, _, rfl, by decide⟩
  obtain ⟨history, state, executed, counters⟩ := executed
  have started : Run (proxySystem unrestricted) CountsRight [] (initial 3 4 [3, 4] 0) := .start initially
  have right : ∀ action ∈ exchange 5 [.accepts 2, .accepts 3], ∀ state, CountsRight state action := by
    simp [exchange, serve, register, CountsRight, ReadResult.toSize, ClientSocket.completes, bytes]
  exact ⟨history, state, counters, (byte_accounting (run_of_runActions started right executed)).1⟩

/-- Five bytes arrive from the origin and the client takes two of them before it is gone: five are
counted. -/
theorem counted_before_written :
    ¬ ∀ settings history state, Run (proxySystem settings) Registers history state →
      Accounted history state := by
  intro claim
  have executed : ∃ history state,
      runActions (State.step unrestricted) [] (initial 3 4 [3, 4] 0) (exchange 6 [.accepts 2, .error 32]) =
        some (history, state) ∧
      state.sessions.counters = [(0, 0, 5)] ∧ totalAccepted 0 false history = 2 :=
    ⟨_, _, rfl, by decide, by decide⟩
  obtain ⟨history, state, executed, counters, sent⟩ := executed
  have registers : ∀ action ∈ exchange 6 [.accepts 2, .error 32], ∀ state, Registers state action := by
    rw [exchange, List.append_assoc, List.forall_mem_append]
    exact ⟨registers_serve, by simp [register, Registers]⟩
  have run := run_of_executed registers executed
  have accounted := accounted_iff.mp (claim unrestricted history state run) (0, 0, 5) (by simp [counters])
  rw [sent] at accounted
  exact absurd accounted.2 (by decide)

end State

end NermalProxy
