import NermalProxy.ClientSocket
import NermalProxy.Library.Transition

/-! # The relay of one socket pair

`relay` is what `HandleClientSocketRead` does with the bytes of one readiness event.
`Pair` is a registered pair of sockets under any sequence of such events: it keeps,
for each direction and each event, the bytes `::read` delivered and the bytes that
`::write` accepted on the peer descriptor.  The relay buffer is static and shared by
all sockets, so every event finds arbitrary bytes in it. -/

namespace NermalProxy.Relay

open NermalProxy.CString NermalProxy.Transition

/-- The bytes one event moved. -/
structure Transfer where
  delivered : Bytes
  sent : Bytes
  deriving DecidableEq, Repr

inductive Outcome where
  /-- One of the two calls has not returned. -/
  | pending (transfer : Transfer)
  /-- `Read` reported an error: both sockets go and the session ends. -/
  | teardown
  /-- The counts go to the session's byte counters. -/
  | relayed (socket : ClientSocket) (numRead numWritten : Nat) (transfer : Transfer)
  deriving DecidableEq, Repr

def relay (socket : ClientSocket) (memory : ClientSocket.Memory) (reads : List ReadResult)
    (writes : List WriteResult) : Outcome :=
  match socket.read memory reads with
  | none => .pending ⟨[], []⟩
  | some outcome =>
    if outcome.isError then .teardown
    else
      let written := outcome.socket.write outcome.memory outcome.numRead writes
      match written.returned with
      | none => .pending ⟨outcome.delivered, written.sent⟩
      | some numWritten =>
        .relayed written.socket outcome.numRead numWritten ⟨outcome.delivered, written.sent⟩

/-! ## One event -/

theorem relay_inactive {socket : ClientSocket} (inactive : socket.isActive = false)
    (memory : ClientSocket.Memory) (reads : List ReadResult) (writes : List WriteResult) :
    relay socket memory reads writes = .teardown := by
  simp [relay, ClientSocket.read_inactive inactive]

theorem relay_nil {socket : ClientSocket} (active : socket.isActive = true)
    (memory : ClientSocket.Memory) (writes : List WriteResult) :
    relay socket memory [] writes = .pending ⟨[], []⟩ := by
  simp [relay, ClientSocket.read, active, ClientSocket.readLoop]

/-- An active socket is not torn down. -/
theorem inactive_of_teardown {socket : ClientSocket} {memory : ClientSocket.Memory}
    {reads : List ReadResult} {writes : List WriteResult}
    (outcome : relay socket memory reads writes = .teardown) : socket.isActive = false := by
  cases active : socket.isActive with
  | false => rfl
  | true =>
    cases reads with
    | nil => simp [relay_nil active] at outcome
    | cons result results =>
      simp only [relay, ClientSocket.read_active active, Bool.false_eq_true, if_false] at outcome
      split at outcome <;> cases outcome

theorem relay_endOfStream {socket : ClientSocket} (active : socket.isActive = true)
    {result : ReadResult} (empty : result.toSize = 0) (memory : ClientSocket.Memory)
    (results : List ReadResult) (writes : List WriteResult) :
    relay socket memory (result :: results) writes =
      .relayed socket.onError 0 0 ⟨ClientSocket.delivered result, []⟩ := by
  have inactive : socket.onError.isActive = false := ClientSocket.onError_isActive socket
  simp [relay, ClientSocket.read_active active, empty, ClientSocket.write_inactive inactive]

/-- Bytes that `::read` delivered are sent on as one prefix of them, and all of them if the
socket stays active. -/
theorem relay_data {socket : ClientSocket} (active : socket.isActive = true) {bytes : Bytes}
    (nonempty : bytes ≠ []) (memory : ClientSocket.Memory) (results : List ReadResult)
    (writes : List WriteResult) :
    ∃ count ≤ bytes.length,
      relay socket memory (.data bytes :: results) writes = .pending ⟨bytes, bytes.take count⟩ ∨
      ∃ after numWritten,
        relay socket memory (.data bytes :: results) writes =
          .relayed after bytes.length numWritten ⟨bytes, bytes.take count⟩ ∧
        (after.isActive = true → count = bytes.length) := by
  have size : ¬ bytes.length = 0 := by simpa using nonempty
  obtain ⟨count, bound, sent, whole⟩ := ClientSocket.writeLoop_sent socket
    (ClientSocket.store (.data bytes) memory) writes 0 bytes.length 0
  rw [ClientSocket.segment_store bytes memory bound] at sent
  refine ⟨count, bound, ?_⟩
  simp only [relay, ClientSocket.read_active active, ReadResult.toSize, size, if_false,
    ClientSocket.write, active, Bool.not_true, Bool.false_eq_true, ClientSocket.delivered]
  cases returned : (ClientSocket.writeLoop socket (ClientSocket.store (.data bytes) memory) 0
      bytes.length 0 writes).returned with
  | none => exact .inl (by rw [sent])
  | some numWritten =>
    refine .inr ⟨_, numWritten, by rw [sent], ?_⟩
    intro stillActive
    exact whole (by simp [returned]) stillActive

/-- An event changes nothing of a socket but whether it is active. -/
theorem relay_sameSocket {socket after : ClientSocket} {memory : ClientSocket.Memory}
    {reads : List ReadResult} {writes : List WriteResult} {numRead numWritten : Nat}
    {transfer : Transfer}
    (relayed : relay socket memory reads writes = .relayed after numRead numWritten transfer) :
    ClientSocket.SameSocket socket after := by
  simp only [relay] at relayed
  split at relayed
  · cases relayed
  · rename_i read_
    split at relayed
    · cases relayed
    · split at relayed
      · cases relayed
      · cases relayed
        exact (ClientSocket.sameSocket_read read_).trans (ClientSocket.sameSocket_write _ _ _ _)

/-! ## A pair of sockets -/

/-- One direction: its socket and what each of its events moved, oldest first. -/
structure Flow where
  socket : ClientSocket
  log : List Transfer

def Flow.delivered (flow : Flow) : Bytes := flow.log.flatMap Transfer.delivered

def Flow.sent (flow : Flow) : Bytes := flow.log.flatMap Transfer.sent

inductive Status where
  | registered
  /-- The main thread is still inside a call. -/
  | blocked
  | removed
  deriving DecidableEq, Repr

structure Pair where
  client : Flow
  server : Flow
  status : Status

structure Event where
  onClient : Bool
  memory : ClientSocket.Memory
  reads : List ReadResult
  writes : List WriteResult

def Pair.flow (pair : Pair) (onClient : Bool) : Flow := if onClient then pair.client else pair.server

def Pair.setFlow (pair : Pair) (onClient : Bool) (flow : Flow) : Pair :=
  if onClient then { pair with client := flow } else { pair with server := flow }

def Pair.handle (pair : Pair) (event : Event) : Option Pair :=
  match pair.status with
  | .registered =>
    let flow := pair.flow event.onClient
    match relay flow.socket event.memory event.reads event.writes with
    | .pending transfer =>
      some { pair.setFlow event.onClient { flow with log := flow.log ++ [transfer] } with
        status := .blocked }
    | .teardown => some { pair with status := .removed }
    | .relayed socket _ _ transfer =>
      some (pair.setFlow event.onClient { socket, log := flow.log ++ [transfer] })
  | _ => none

/-- The two sockets that a successful `HOST_CONNECT_RESULT` registers. -/
def Pair.registered (clientFd proxyFd : Fd) (sessionId : Nat) : Pair where
  client := ⟨ClientSocket.make clientFd proxyFd sessionId true, []⟩
  server := ⟨ClientSocket.make proxyFd clientFd sessionId false, []⟩
  status := .registered

def pairSystem : System Pair Event :=
  System.ofFunction (fun pair => ∃ clientFd proxyFd sessionId,
    pair = Pair.registered clientFd proxyFd sessionId) Pair.handle

/-- What the peer gets is a prefix of what was read, and every event sends only bytes that were
read in that event. -/
def Flow.Intact (flow : Flow) : Prop :=
  flow.sent <+: flow.delivered ∧ ∀ transfer ∈ flow.log, transfer.sent <+: transfer.delivered

def Pair.Intact (pair : Pair) : Prop := pair.client.Intact ∧ pair.server.Intact

/-- The `::read` of the event does not return `-1`; an inactive socket makes no `::read`. -/
def ReadSucceeds (pair : Pair) (event : Event) : Prop :=
  (pair.flow event.onClient).socket.isActive = true →
    ∀ errno, event.reads.head? ≠ some (.error errno)

/-- While the socket is active nothing is outstanding. -/
structure Flow.Settled (flow : Flow) : Prop where
  intact : flow.Intact
  complete : flow.socket.isActive = true → flow.sent = flow.delivered

theorem Flow.Intact.snoc {flow : Flow} (intact : flow.Intact) (complete : flow.sent = flow.delivered)
    (socket : ClientSocket) {transfer : Transfer} (moved : transfer.sent <+: transfer.delivered) :
    Flow.Intact { socket, log := flow.log ++ [transfer] } := by
  constructor
  · simp only [Flow.sent, Flow.delivered] at complete
    simp only [Flow.sent, Flow.delivered, List.flatMap_append, List.flatMap_singleton, complete]
    exact (List.prefix_append_right_inj _).mpr moved
  · intro other member
    rcases List.mem_append.mp member with older | last
    · exact intact.2 other older
    · rw [List.mem_singleton.mp last]
      exact moved

theorem Flow.Settled.snoc {flow : Flow} (settled : flow.Settled) (active : flow.socket.isActive = true)
    {socket : ClientSocket} {transfer : Transfer} (moved : transfer.sent <+: transfer.delivered)
    (whole : socket.isActive = true → transfer.sent = transfer.delivered) :
    Flow.Settled { socket, log := flow.log ++ [transfer] } := by
  have complete := settled.complete active
  refine ⟨settled.intact.snoc complete socket moved, fun stillActive => ?_⟩
  simp only [Flow.sent, Flow.delivered] at complete
  simp [Flow.sent, Flow.delivered, complete, whole stillActive]

/-- What an event that is not a failed read makes of its direction. -/
theorem relay_settled {flow : Flow} (settled : flow.Settled) (memory : ClientSocket.Memory)
    {reads : List ReadResult} (writes : List WriteResult)
    (succeeds : flow.socket.isActive = true → ∀ errno, reads.head? ≠ some (.error errno)) :
    match relay flow.socket memory reads writes with
    | .pending transfer => Flow.Intact { flow with log := flow.log ++ [transfer] }
    | .teardown => True
    | .relayed socket _ _ transfer => Flow.Settled { socket, log := flow.log ++ [transfer] } := by
  by_cases active : flow.socket.isActive = true
  · cases reads with
    | nil =>
      rw [relay_nil active]
      exact settled.intact.snoc (settled.complete active) _ (List.nil_prefix)
    | cons result results =>
      by_cases empty : result.toSize = 0
      · rw [relay_endOfStream active empty]
        apply settled.snoc active List.nil_prefix
        intro contradictory
        simp at contradictory
      · cases result with
        | error errno => exact absurd rfl (succeeds active errno)
        | endOfStream => exact absurd rfl empty
        | data bytes =>
          have nonempty : bytes ≠ [] := by
            rintro rfl
            exact empty rfl
          obtain ⟨count, _, waiting | ⟨after, numWritten, done, whole⟩⟩ :=
            relay_data active nonempty memory results writes
          · rw [waiting]
            exact settled.intact.snoc (settled.complete active) _ (List.take_prefix _ _)
          · rw [done]
            apply settled.snoc active (List.take_prefix _ _)
            intro stillActive
            simp [whole stillActive]
  · rw [relay_inactive (by simpa using active)]
    trivial

def Pair.Settled (pair : Pair) : Prop := pair.client.Settled ∧ pair.server.Settled

theorem Pair.Settled.flow {pair : Pair} (settled : pair.Settled) (onClient : Bool) :
    (pair.flow onClient).Settled := by
  cases onClient
  · exact settled.2
  · exact settled.1

theorem Pair.Intact.setFlow {pair : Pair} {flow : Flow} (intact : pair.Intact) (new : flow.Intact)
    (onClient : Bool) : (pair.setFlow onClient flow).Intact := by
  cases onClient
  · exact ⟨intact.1, new⟩
  · exact ⟨new, intact.2⟩

theorem Pair.Settled.setFlow {pair : Pair} {flow : Flow} (settled : pair.Settled) (new : flow.Settled)
    (onClient : Bool) : (pair.setFlow onClient flow).Settled := by
  cases onClient
  · exact ⟨settled.1, new⟩
  · exact ⟨new, settled.2⟩

/-- Between events both directions are settled; a blocked or removed pair has no more events. -/
structure Invariant (pair : Pair) : Prop where
  intact : pair.Intact
  settled : pair.status = .registered → pair.Settled

theorem handle_invariant {pair next : Pair} {event : Event} (invariant : Invariant pair)
    (succeeds : ReadSucceeds pair event) (handled : pair.handle event = some next) :
    Invariant next := by
  unfold Pair.handle at handled
  cases status : pair.status with
  | blocked => simp [status] at handled
  | removed => simp [status] at handled
  | registered =>
    have settled := invariant.settled status
    have step := relay_settled (settled.flow event.onClient) event.memory
      event.writes succeeds
    simp only [status] at handled
    cases outcome : relay (pair.flow event.onClient).socket event.memory event.reads event.writes with
    | pending transfer =>
      simp only [outcome, Option.some.injEq] at handled step
      subst handled
      exact ⟨invariant.intact.setFlow step event.onClient, by simp⟩
    | teardown =>
      simp only [outcome, Option.some.injEq] at handled
      subst handled
      exact ⟨invariant.intact, by simp⟩
    | relayed socket numRead numWritten transfer =>
      simp only [outcome, Option.some.injEq] at handled step
      subst handled
      exact ⟨invariant.intact.setFlow step.intact event.onClient,
        fun _ => settled.setFlow step event.onClient⟩

theorem registered_invariant (clientFd proxyFd : Fd) (sessionId : Nat) :
    Invariant (Pair.registered clientFd proxyFd sessionId) := by
  have fresh : ∀ socket : ClientSocket, Flow.Settled ⟨socket, []⟩ := fun socket =>
    ⟨⟨List.nil_prefix, by simp⟩, fun _ => rfl⟩
  exact ⟨⟨(fresh _).intact, (fresh _).intact⟩, fun _ => ⟨fresh _, fresh _⟩⟩

/-- In every run without a failing `::read` the relay sends on exactly what it read. -/
theorem relay_integrity {history : List (Pair × Event)} {pair : Pair}
    (run : Run pairSystem ReadSucceeds history pair) : pair.Intact := by
  have invariant : Invariant pair := by
    apply run.invariant Invariant
    · rintro pair ⟨clientFd, proxyFd, sessionId, rfl⟩
      exact registered_invariant clientFd proxyFd sessionId
    · exact fun pair event next invariant succeeds handled =>
        handle_invariant invariant succeeds handled
  exact invariant.intact

/-- A pair on the descriptors 5 and 6, after one event on the client socket that relayed two bytes. -/
theorem relay_integrity_two_bytes :
    ∃ pair : Pair, pair.client.sent = bytes "hi" ∧ pair.server.sent = [] ∧ pair.Intact := by
  let event : Event := ⟨true, fun _ => 0, [.data (bytes "hi")], [.accepts 1, .accepts 1]⟩
  let after : Pair := ⟨⟨ClientSocket.make 5 6 0 true, [⟨bytes "hi", bytes "hi"⟩]⟩,
    ⟨ClientSocket.make 6 5 0 false, []⟩, .registered⟩
  have started : Run pairSystem ReadSucceeds [] (Pair.registered 5 6 0) := .start ⟨5, 6, 0, rfl⟩
  have succeeds : ReadSucceeds (Pair.registered 5 6 0) event := by
    rintro - errno
    simp [event]
  have run : Run pairSystem ReadSucceeds [(Pair.registered 5 6 0, event)] after :=
    started.snoc succeeds rfl
  exact ⟨after, by decide, by decide, relay_integrity run⟩

/-- A reset connection: `::read` returns `-1`, `Read` reports 2^64 - 1 bytes and no error, and the
next `::write` sends bytes that an earlier event left in the buffer. -/
theorem failed_read_sends_stale_bytes :
    ¬ ∀ history pair, Run pairSystem (fun _ _ => True) history pair → pair.Intact := by
  intro claim
  let event : Event := ⟨true, fun _ => 88, [.error 104], [.accepts 3, .error 32]⟩
  let after : Pair := ⟨⟨(ClientSocket.make 5 6 0 true).onError, [⟨[], bytes "XXX"⟩]⟩,
    ⟨ClientSocket.make 6 5 0 false, []⟩, .registered⟩
  have started : Run pairSystem (fun _ _ => True) [] (Pair.registered 5 6 0) := .start ⟨5, 6, 0, rfl⟩
  have run : Run pairSystem (fun _ _ => True) [(Pair.registered 5 6 0, event)] after :=
    started.snoc trivial rfl
  have sent : after.client.sent <+: after.client.delivered := (claim _ _ run).1.1
  exact absurd sent (by decide)

end NermalProxy.Relay
