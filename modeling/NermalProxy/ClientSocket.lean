import Mathlib.Data.List.Basic
import Mathlib.Data.List.Range
import NermalProxy.Library.CString

/-! # Relay sockets

`ClientSocket` reads from its own descriptor and writes to its peer's.  The kernel's
part is a list of results, one for each system call the loop may make; a list that
runs out means that the call has not returned yet. -/

namespace NermalProxy

open NermalProxy.CString

abbrev Fd := Int

def EINTR : Int := 4
def EAGAIN : Int := 11

def recoverable (errno : Int) : Bool := errno == EAGAIN || errno == EINTR

/-- What `::read` does; it never delivers more than it was asked for. -/
inductive ReadResult where
  | data (bytes : Bytes)
  | endOfStream
  | error (errno : Int)
  deriving DecidableEq, Repr

/-- What `::write` does: it accepts up to `count` bytes of what it is given, or fails. -/
inductive WriteResult where
  | accepts (count : Nat)
  | error (errno : Int)
  deriving DecidableEq, Repr

/-- `-1` as a `size_t`. -/
def sizeMax : Nat := UInt64.size - 1

/-- The result of `::read` after its conversion to `size_t`. -/
def ReadResult.toSize : ReadResult → Nat
  | .data bytes => bytes.length
  | .endOfStream => 0
  | .error _ => sizeMax

def ReadResult.isRecoverable : ReadResult → Bool
  | .error errno => recoverable errno
  | _ => false

/-- The part of the bytes it is given that a `::write` accepts. -/
def WriteResult.accepted (offered : Bytes) : WriteResult → Bytes
  | .accepts count => offered.take count
  | .error _ => []

theorem WriteResult.accepted_prefix (offered : Bytes) (result : WriteResult) :
    result.accepted offered <+: offered := by
  cases result with
  | accepts count => exact List.take_prefix count offered
  | error errno => exact List.nil_prefix

structure ClientSocket where
  isActive : Bool
  isClientToProxy : Bool
  socketFd : Fd
  peerFd : Fd
  sessionId : Nat
  deriving DecidableEq, Repr

namespace ClientSocket

/-- The constructor. -/
def make (socketFd proxyFd : Fd) (sessionId : Nat) (isClientToProxy : Bool) : ClientSocket :=
  { isActive := true, isClientToProxy, socketFd, peerFd := proxyFd, sessionId }

def onError (socket : ClientSocket) : ClientSocket :=
  if socket.isActive then { socket with isActive := false } else socket

/-- The buffer of the relay and the memory behind it, by offset from the buffer's start. -/
abbrev Memory := Nat → UInt8

/-- `::read` stores the bytes it delivers at the start of the buffer. -/
def store : ReadResult → Memory → Memory
  | .data bytes, memory => fun i => (bytes[i]?).getD (memory i)
  | _, memory => memory

/-- The bytes from `offset` on that a `::write` of `count` bytes sees. -/
def segment (memory : Memory) (offset count : Nat) : Bytes :=
  (List.range count).map (fun i => memory (offset + i))

structure ReadOutcome where
  socket : ClientSocket
  memory : Memory
  numRead : Nat
  isError : Bool
  delivered : Bytes

def delivered : ReadResult → Bytes
  | .data bytes => bytes
  | _ => []

/-- The loop of `Read`; `numRead` is a `size_t`, so only zero is `<= 0`. -/
def readLoop (socket : ClientSocket) (memory : Memory) : List ReadResult → Option ReadOutcome
  | [] => none
  | result :: results =>
    let numRead := result.toSize
    if numRead ≤ 0 then
      if numRead = sizeMax ∧ result.isRecoverable then readLoop socket memory results
      else some ⟨socket.onError, store result memory, numRead, true, delivered result⟩
    else some ⟨socket, store result memory, numRead, false, delivered result⟩

/-- `Read`; `none` while the call has not returned. -/
def read (socket : ClientSocket) (memory : Memory) (results : List ReadResult) :
    Option ReadOutcome :=
  if !socket.isActive then some ⟨socket, memory, 0, true, []⟩
  else
    match readLoop socket memory results with
    | none => none
    -- the assignment behind the loop overwrites the one in it
    | some outcome => some { outcome with isError := false }

structure WriteOutcome where
  socket : ClientSocket
  /-- The return value, once the call has returned. -/
  returned : Option Nat
  isError : Bool
  sent : Bytes

/-- The loop of `Write`, which has `bytesToWrite` bytes at `offset` left. -/
def writeLoop (socket : ClientSocket) (memory : Memory) :
    Nat → Nat → Nat → List WriteResult → WriteOutcome
  | _, 0, totalWritten, _ => ⟨socket, some totalWritten, false, []⟩
  | _, _ + 1, _, [] => ⟨socket, none, false, []⟩
  | offset, bytesToWrite + 1, totalWritten, .accepts count :: results =>
    let numWritten := min count (bytesToWrite + 1)
    -- nothing accepted is an error of its own
    if numWritten = 0 then ⟨socket.onError, some 0, true, []⟩
    else
      let rest := writeLoop socket memory (offset + numWritten) (bytesToWrite + 1 - numWritten)
        (totalWritten + numWritten) results
      { rest with sent := segment memory offset numWritten ++ rest.sent }
  | offset, bytesToWrite + 1, totalWritten, .error errno :: results =>
    if recoverable errno then writeLoop socket memory offset (bytesToWrite + 1) totalWritten results
    else ⟨socket.onError, some 0, true, []⟩

def write (socket : ClientSocket) (memory : Memory) (bytesToWrite : Nat)
    (results : List WriteResult) : WriteOutcome :=
  if !socket.isActive then ⟨socket, some 0, true, []⟩
  else writeLoop socket memory 0 bytesToWrite 0 results

/-! ## The buffer -/

@[simp] theorem segment_zero (memory : Memory) (offset : Nat) : segment memory offset 0 = [] := rfl

theorem segment_add (memory : Memory) (offset m n : Nat) :
    segment memory offset (m + n) = segment memory offset m ++ segment memory (offset + m) n := by
  simp only [segment, List.range_add, List.map_append, List.map_map]
  congr 1
  apply List.map_congr_left
  intro i _
  simp [Nat.add_assoc]

@[simp] theorem segment_length (memory : Memory) (offset count : Nat) :
    (segment memory offset count).length = count := by
  simp [segment]

/-- Within the bytes just read the buffer holds exactly them. -/
theorem segment_store (bytes : Bytes) (memory : Memory) {count : Nat} (within : count ≤ bytes.length) :
    segment (store (.data bytes) memory) 0 count = bytes.take count := by
  apply List.ext_getElem
  · simp [within]
  · intro i left right
    have inside : i < bytes.length := by simp at right; omega
    simp [segment, store, inside]

/-! ## What the two calls do -/

theorem read_inactive {socket : ClientSocket} (inactive : socket.isActive = false) (memory : Memory)
    (results : List ReadResult) : socket.read memory results = some ⟨socket, memory, 0, true, []⟩ := by
  simp [read, inactive]

/-- No result sends the loop round again: the recoverable errors are not `<= 0` as a `size_t`. -/
theorem readLoop_cons (socket : ClientSocket) (memory : Memory) (result : ReadResult)
    (results : List ReadResult) :
    readLoop socket memory (result :: results) =
      some ⟨if result.toSize = 0 then socket.onError else socket, store result memory,
        result.toSize, result.toSize = 0, delivered result⟩ := by
  have differ : ¬ (0 = sizeMax) := by decide
  by_cases zero : result.toSize = 0
  · simp [readLoop, zero, differ]
  · simp [readLoop, zero]

theorem read_active {socket : ClientSocket} (active : socket.isActive = true) (memory : Memory)
    (result : ReadResult) (results : List ReadResult) :
    socket.read memory (result :: results) =
      some ⟨if result.toSize = 0 then socket.onError else socket, store result memory,
        result.toSize, false, delivered result⟩ := by
  simp [read, active, readLoop_cons]

theorem write_inactive {socket : ClientSocket} (inactive : socket.isActive = false) (memory : Memory)
    (bytesToWrite : Nat) (results : List WriteResult) :
    socket.write memory bytesToWrite results = ⟨socket, some 0, true, []⟩ := by
  simp [write, inactive]

@[simp] theorem onError_isActive (socket : ClientSocket) : socket.onError.isActive = false := by
  unfold onError
  split
  · rfl
  · rename_i inactive
    simpa using inactive

/-- The accepted bytes are one segment from the write position on, and the whole of it when the
call returns with the socket still active. -/
theorem writeLoop_sent (socket : ClientSocket) (memory : Memory) (results : List WriteResult) :
    ∀ offset bytesToWrite totalWritten, ∃ count ≤ bytesToWrite,
      (writeLoop socket memory offset bytesToWrite totalWritten results).sent =
        segment memory offset count ∧
      ((writeLoop socket memory offset bytesToWrite totalWritten results).returned ≠ none →
        (writeLoop socket memory offset bytesToWrite totalWritten results).socket.isActive = true →
        count = bytesToWrite) := by
  induction results with
  | nil =>
    intro offset bytesToWrite totalWritten
    cases bytesToWrite with
    | zero => exact ⟨0, by simp, by simp [writeLoop]⟩
    | succ bytesToWrite => exact ⟨0, by simp, by simp [writeLoop]⟩
  | cons result results inductionHypothesis =>
    intro offset bytesToWrite totalWritten
    cases bytesToWrite with
    | zero => exact ⟨0, by simp, by simp [writeLoop]⟩
    | succ bytesToWrite =>
      cases result with
      | accepts accepted =>
        by_cases none_ : min accepted (bytesToWrite + 1) = 0
        · exact ⟨0, by simp, by simp [writeLoop, none_]⟩
        · obtain ⟨count, bound, sent, whole⟩ := inductionHypothesis
            (offset + min accepted (bytesToWrite + 1))
            (bytesToWrite + 1 - min accepted (bytesToWrite + 1))
            (totalWritten + min accepted (bytesToWrite + 1))
          refine ⟨min accepted (bytesToWrite + 1) + count, by omega, ?_, ?_⟩
          · simp only [writeLoop, none_, if_false, sent, segment_add]
          · intro returned active
            simp only [writeLoop, none_, if_false] at returned active
            have := whole returned active
            omega
      | error errno =>
        by_cases again : recoverable errno = true
        · simpa [writeLoop, again] using inductionHypothesis offset (bytesToWrite + 1) totalWritten
        · exact ⟨0, by simp, by simp [writeLoop, again]⟩

/-! ## What the two calls leave alone -/

/-- The same socket, active or not. -/
def SameSocket (socket after : ClientSocket) : Prop :=
  after = { socket with isActive := after.isActive }

theorem SameSocket.refl (socket : ClientSocket) : SameSocket socket socket := rfl

theorem SameSocket.trans {socket between after : ClientSocket} (first : SameSocket socket between)
    (second : SameSocket between after) : SameSocket socket after := by
  unfold SameSocket at first second ⊢
  rw [first] at second
  exact second

theorem sameSocket_onError (socket : ClientSocket) : SameSocket socket socket.onError := by
  unfold onError
  split <;> rfl

theorem sameSocket_read {socket : ClientSocket} {memory : Memory} {results : List ReadResult}
    {outcome : ReadOutcome} (read_ : socket.read memory results = some outcome) :
    SameSocket socket outcome.socket := by
  by_cases active : socket.isActive = true
  · cases results with
    | nil => simp [read, active, readLoop] at read_
    | cons result results =>
      rw [read_active active] at read_
      cases read_
      dsimp only
      split
      · exact sameSocket_onError socket
      · exact .refl socket
  · rw [read_inactive (by simpa using active)] at read_
    cases read_
    exact .refl socket

theorem sameSocket_writeLoop (socket : ClientSocket) (memory : Memory) (results : List WriteResult) :
    ∀ offset bytesToWrite totalWritten,
      SameSocket socket (writeLoop socket memory offset bytesToWrite totalWritten results).socket := by
  induction results with
  | nil =>
    intro offset bytesToWrite totalWritten
    cases bytesToWrite <;> exact .refl socket
  | cons result results inductionHypothesis =>
    intro offset bytesToWrite totalWritten
    cases bytesToWrite with
    | zero => exact .refl socket
    | succ bytesToWrite =>
      cases result with
      | accepts count =>
        simp only [writeLoop]
        split
        · exact sameSocket_onError socket
        · exact inductionHypothesis _ _ _
      | error errno =>
        simp only [writeLoop]
        split
        · exact inductionHypothesis _ _ _
        · exact sameSocket_onError socket

theorem sameSocket_write (socket : ClientSocket) (memory : Memory) (bytesToWrite : Nat)
    (results : List WriteResult) :
    SameSocket socket (socket.write memory bytesToWrite results).socket := by
  unfold write
  split
  · exact .refl socket
  · exact sameSocket_writeLoop socket memory results _ _ _

end ClientSocket

end NermalProxy
