import Mathlib.Data.List.Infix
import NermalProxy.SocketManager

/-! # What `Read` and `Write` report

`Write` compares a signed count and sends exactly the buffer.  `Read` compares an
unsigned one, so that no error of `::read` looks like one, and clears its error flag
behind the loop: a caller learns of nothing but bytes. -/

namespace NermalProxy

open NermalProxy.CString NermalProxy.Config

/-- No later `::write` of the call can make up for this result. -/
def WriteResult.isUnrecoverable : WriteResult → Bool
  | .accepts count => count == 0
  | .error errno => !recoverable errno

namespace ClientSocket

variable {socket : ClientSocket} {memory : Memory}

/-- Both calls return at once, with an error, whatever the kernel would answer: they use no
descriptor. -/
def MakesNoCalls (socket : ClientSocket) : Prop :=
  ∀ memory, (∀ reads, socket.read memory reads = some ⟨socket, memory, 0, true, []⟩) ∧
    ∀ count writes, socket.write memory count writes = ⟨socket, some 0, true, []⟩

theorem makesNoCalls_of_inactive (inactive : socket.isActive = false) : socket.MakesNoCalls :=
  fun memory => ⟨read_inactive inactive memory, write_inactive inactive memory⟩

/-! ## Write -/

/-- How the loop ends that has `left` bytes at `offset` to write and has written `total`, by the
results it has used. -/
inductive WriteEnds (socket : ClientSocket) (memory : Memory) (offset left total : Nat) :
    List WriteResult → WriteOutcome → Prop
  | whole {used : List WriteResult} (recovered : ∀ result ∈ used, result.isUnrecoverable = false) :
      WriteEnds socket memory offset left total used
        ⟨socket, some (total + left), false, segment memory offset left⟩
  | failed (before : List WriteResult) {bad : WriteResult} {count : Nat}
      (recovered : ∀ result ∈ before, result.isUnrecoverable = false)
      (unrecoverable : bad.isUnrecoverable = true) (within : count ≤ left) :
      WriteEnds socket memory offset left total (before ++ [bad])
        ⟨socket.onError, some 0, true, segment memory offset count⟩

/-- A partial write goes on behind what it has accepted. -/
theorem WriteEnds.accept {offset left total accepted : Nat} {used : List WriteResult}
    {outcome : WriteOutcome} {result : WriteResult} (fits : accepted ≤ left)
    (recovers : result.isUnrecoverable = false)
    (ends : WriteEnds socket memory (offset + accepted) (left - accepted) (total + accepted) used outcome) :
    WriteEnds socket memory offset left total (result :: used)
      { outcome with sent := segment memory offset accepted ++ outcome.sent } := by
  cases ends with
  | whole recovered =>
    have all : total + accepted + (left - accepted) = total + left := by omega
    rw [← segment_add, all, Nat.add_sub_cancel' fits]
    exact .whole (List.forall_mem_cons.mpr ⟨recovers, recovered⟩)
  | failed before recovered unrecoverable within =>
    rw [← segment_add]
    exact .failed (result :: _) (List.forall_mem_cons.mpr ⟨recovers, recovered⟩) unrecoverable
      (by omega)

theorem WriteEnds.retry {offset left total : Nat} {used : List WriteResult} {outcome : WriteOutcome}
    {result : WriteResult} (recovers : result.isUnrecoverable = false)
    (ends : WriteEnds socket memory offset left total used outcome) :
    WriteEnds socket memory offset left total (result :: used) outcome := by
  cases ends with
  | whole recovered => exact .whole (List.forall_mem_cons.mpr ⟨recovers, recovered⟩)
  | failed before recovered unrecoverable within =>
    exact .failed (result :: _) (List.forall_mem_cons.mpr ⟨recovers, recovered⟩) unrecoverable within

/-- A loop that ends has used some of the results, and would have ended with those alone. -/
theorem writeLoop_ends {results : List WriteResult} :
    ∀ {offset left total}, (writeLoop socket memory offset left total results).returned ≠ none →
      ∃ used, used <+: results ∧
        writeLoop socket memory offset left total used =
          writeLoop socket memory offset left total results ∧
        WriteEnds socket memory offset left total used
          (writeLoop socket memory offset left total results) := by
  induction results with
  | nil =>
    intro offset left total returned
    cases left with
    | zero => exact ⟨[], List.nil_prefix, rfl, .whole (by simp)⟩
    | succ left => exact absurd rfl returned
  | cons result results inductionHypothesis =>
    intro offset left total returned
    cases left with
    | zero => exact ⟨[], List.nil_prefix, by simp [writeLoop], .whole (by simp)⟩
    | succ left =>
      cases result with
      | accepts count =>
        by_cases none_ : min count (left + 1) = 0
        · have bad : (WriteResult.accepts count).isUnrecoverable = true := by
            have zero : count = 0 := by omega
            simp [WriteResult.isUnrecoverable, zero]
          refine ⟨[.accepts count], ⟨results, rfl⟩, by simp [writeLoop, none_], ?_⟩
          simp only [writeLoop, none_, if_true]
          exact .failed [] (by simp) bad (Nat.zero_le _)
        · have good : (WriteResult.accepts count).isUnrecoverable = false := by
            have positive : ¬ count = 0 := by omega
            simpa [WriteResult.isUnrecoverable] using positive
          simp only [writeLoop, none_, if_false] at returned ⊢
          obtain ⟨used, front, same, ends⟩ := inductionHypothesis returned
          refine ⟨.accepts count :: used, (List.prefix_cons_inj _).mpr front, ?_, ?_⟩
          · simp only [writeLoop, none_, if_false, same]
          · exact ends.accept (Nat.min_le_right _ _) good
      | error errno =>
        by_cases again : recoverable errno = true
        · have good : (WriteResult.error errno).isUnrecoverable = false := by
            simp [WriteResult.isUnrecoverable, again]
          simp only [writeLoop, again, if_true] at returned ⊢
          obtain ⟨used, front, same, ends⟩ := inductionHypothesis returned
          refine ⟨.error errno :: used, (List.prefix_cons_inj _).mpr front, ?_, ends.retry good⟩
          simp only [writeLoop, again, if_true, same]
        · have bad : (WriteResult.error errno).isUnrecoverable = true := by
            simpa [WriteResult.isUnrecoverable] using again
          refine ⟨[.error errno], ⟨results, rfl⟩, by simp [writeLoop, again], ?_⟩
          simp only [writeLoop, again, Bool.false_eq_true, if_false]
          exact .failed [] (by simp) bad (Nat.zero_le _)

/-- The call returns behind the last of these results, and not before. -/
def EndsWith (socket : ClientSocket) (memory : Memory) (count : Nat) (results : List WriteResult) :
    Prop :=
  (socket.write memory count results).returned ≠ none ∧
    ∀ fewer, fewer <+: results → fewer ≠ results → (socket.write memory count fewer).returned = none

theorem writeEnds_of_endsWith (active : socket.isActive = true) {count : Nat} {results : List WriteResult}
    (ends : EndsWith socket memory count results) :
    WriteEnds socket memory 0 count 0 results (socket.write memory count results) := by
  obtain ⟨returned, notBefore⟩ := ends
  simp only [write, active, Bool.not_true, Bool.false_eq_true, if_false] at returned notBefore ⊢
  obtain ⟨used, front, same, isEnd⟩ := writeLoop_ends returned
  by_cases all : used = results
  · rwa [all] at isEnd
  · have earlier := notBefore used front all
    rw [same] at earlier
    exact absurd earlier returned

/-- `Write` sends the buffer from its start on without a gap, and all of it unless a result is
unrecoverable; that one ends the call and makes the socket inactive for good. -/
theorem write_sends_buffer (active : socket.isActive = true) {count : Nat} {results : List WriteResult}
    (ends : EndsWith socket memory count results) :
    (socket.write memory count results).sent <+: segment memory 0 count ∧
    ((∀ result ∈ results, result.isUnrecoverable = false) →
      socket.write memory count results = ⟨socket, some count, false, segment memory 0 count⟩) ∧
    (∀ result ∈ results, result.isUnrecoverable = true →
      results.getLast? = some result ∧
      (socket.write memory count results).returned = some 0 ∧
      (socket.write memory count results).isError = true ∧
      (socket.write memory count results).socket = { socket with isActive := false } ∧
      (socket.write memory count results).socket.MakesNoCalls) := by
  have isEnd := writeEnds_of_endsWith active ends
  generalize socket.write memory count results = outcome at isEnd ⊢
  cases isEnd with
  | whole recovered =>
    rw [Nat.zero_add]
    refine ⟨List.prefix_refl _, fun _ => rfl, fun result member unrecoverable => ?_⟩
    rw [recovered result member] at unrecoverable
    cases unrecoverable
  | @failed before bad sent recovered unrecoverable within =>
    have inactive : socket.onError = { socket with isActive := false } := by simp [onError, active]
    refine ⟨?_, ?_, ?_⟩
    · rw [← Nat.add_sub_cancel' within, segment_add]
      exact List.prefix_append _ _
    · intro allRecovered
      rw [allRecovered bad (by simp)] at unrecoverable
      cases unrecoverable
    · intro result member isBad
      refine ⟨?_, rfl, rfl, inactive, makesNoCalls_of_inactive (onError_isActive socket)⟩
      rcases List.mem_append.mp member with older | last
      · rw [recovered result older] at isBad
        cases isBad
      · rw [List.mem_singleton.mp last, List.getLast?_append, List.getLast?_singleton]
        rfl

/-- Two bytes in one write of two, behind an interrupted one. -/
theorem write_sends_buffer_hi :
    ((make 5 6 0 true).write (store (.data (bytes "hi")) (fun _ => 0)) 2 [.error EINTR, .accepts 2]).sent =
      bytes "hi" ∧
    ∀ result ∈ [WriteResult.error EINTR, .accepts 2], result.isUnrecoverable = false := by
  have recovered : ∀ result ∈ [WriteResult.error EINTR, .accepts 2], result.isUnrecoverable = false := by
    decide
  have ends : EndsWith (make 5 6 0 true) (store (.data (bytes "hi")) (fun _ => 0)) 2
      [.error EINTR, .accepts 2] := by
    have notBefore : ∀ fewer ∈ [WriteResult.error EINTR, .accepts 2].inits,
        fewer ≠ [.error EINTR, .accepts 2] →
          ((make 5 6 0 true).write (store (.data (bytes "hi")) (fun _ => 0)) 2 fewer).returned = none := by
      decide
    exact ⟨by decide, fun fewer front => notBefore fewer ((List.mem_inits _ _).mpr front)⟩
  obtain ⟨-, whole, -⟩ := write_sends_buffer rfl ends
  rw [whole recovered]
  exact ⟨by decide, recovered⟩

/-! ## Read -/

/-- The first result that is not a recoverable error. -/
def decisive (reads : List ReadResult) : Option ReadResult :=
  reads.find? (fun result => !result.isRecoverable)

/-- What `Read` should return for the decisive result: the bytes, or an error. -/
def ReportsResult (socket : ClientSocket) (memory : Memory) : ReadResult → Option ReadOutcome → Prop
  | .data (c :: more), outcome =>
    outcome = some ⟨socket, store (.data (c :: more)) memory, (c :: more).length, false, c :: more⟩
  | _, outcome =>
    ∃ reported, outcome = some reported ∧ reported.isError = true ∧ reported.socket.isActive = false

/-- `Read` waits for the decisive result and reports it. -/
def ReportsReads (socket : ClientSocket) (memory : Memory) (reads : List ReadResult) : Prop :=
  match decisive reads with
  | none => socket.read memory reads = none
  | some result => ReportsResult socket memory result (socket.read memory reads)

/-- A decisive result without bytes. -/
def Fails (reads : List ReadResult) : Prop :=
  ∃ result, decisive reads = some result ∧ ∀ c more, result ≠ .data (c :: more)

/-- The event of a failed read removes both sockets and ends the session, and sends nothing. -/
def TearsDown (socket : ClientSocket) (memory : Memory) (reads : List ReadResult) : Prop :=
  Fails reads → ∀ settings now writes state,
    Relay.relay socket memory reads writes = .teardown ∧
    SocketManager.handleClientSocketRead settings now memory reads writes socket state =
      some (SocketManager.teardown settings now socket state)

/-- What an active socket's `Read` makes of any first result. -/
theorem read_reports_no_error (active : socket.isActive = true) (memory : Memory) (result : ReadResult)
    (results : List ReadResult) :
    ∃ outcome, socket.read memory (result :: results) = some outcome ∧ outcome.isError = false ∧
      outcome.delivered = delivered result := by
  rw [read_active active]
  exact ⟨_, rfl, rfl, rfl⟩

/-- An active socket's `Read` reports what there is to report just where the first `::read` delivers
bytes: end of stream and errors are reported as success, and recoverable errors not retried. -/
theorem reports_failure_iff (active : socket.isActive = true) (memory : Memory)
    (reads : List ReadResult) :
    ReportsReads socket memory reads ∧ TearsDown socket memory reads ↔
      reads = [] ∨ ∃ c more results, reads = .data (c :: more) :: results := by
  constructor
  · rintro ⟨reports, -⟩
    cases reads with
    | nil => exact .inl rfl
    | cons result results =>
      obtain ⟨outcome, read_, noError, same⟩ := read_reports_no_error active memory result results
      unfold ReportsReads at reports
      rw [read_] at reports
      cases found : decisive (result :: results) with
      | none =>
        rw [found] at reports
        cases reports
      | some final =>
        rw [found] at reports
        have error : ¬ ∃ reported, some outcome = some reported ∧ reported.isError = true ∧
            reported.socket.isActive = false := by
          rintro ⟨reported, same, isError, -⟩
          cases same
          rw [noError] at isError
          cases isError
        cases final with
        | endOfStream => exact absurd reports error
        | error errno => exact absurd reports error
        | data bytes =>
          cases bytes with
          | nil => exact absurd reports error
          | cons c more =>
            have bytes_ : outcome.delivered = c :: more := by
              rw [Option.some.inj reports]
            rw [same] at bytes_
            cases result with
            | data bytes =>
              simp only [delivered] at bytes_
              exact .inr ⟨c, more, results, by rw [bytes_]⟩
            | endOfStream => cases bytes_
            | error errno => cases bytes_
  · rintro (rfl | ⟨c, more, results, rfl⟩)
    · refine ⟨?_, ?_⟩
      · simp [ReportsReads, decisive, read, active, readLoop]
      · rintro ⟨result, found, -⟩
        cases found
    · have found : decisive (.data (c :: more) :: results) = some (.data (c :: more)) := rfl
      refine ⟨?_, ?_⟩
      · simp only [ReportsReads, found]
        change socket.read memory (.data (c :: more) :: results) = _
        rw [read_active active]
        simp [ReadResult.toSize, delivered]
      · rintro ⟨result, decisive_, noBytes⟩
        rw [found, Option.some.injEq] at decisive_
        exact absurd decisive_.symm (noBytes c more)

/-- A first read that delivers two bytes. -/
theorem reports_failure_iff_hi :
    ReportsReads (make 5 6 0 true) (fun _ => 0) [.data (bytes "hi")] :=
  ((reports_failure_iff rfl (fun _ => 0) [.data (bytes "hi")]).mpr (.inr ⟨104, [105], [], rfl⟩)).1

/-- The end of the stream is reported as a read of 0 bytes without an error. -/
theorem end_of_stream_unreported :
    ¬ ∀ (socket : ClientSocket) (memory : Memory) (reads : List ReadResult), socket.isActive = true →
      ReportsReads socket memory reads ∧ TearsDown socket memory reads := by
  intro claim
  obtain ⟨reported, read_, isError, -⟩ := (claim (make 5 6 0 true) (fun _ => 0) [.endOfStream] rfl).1
  cases read_
  cases isError

end ClientSocket

end NermalProxy
