import NermalProxy.HandBack
import NermalProxy.Library.LittleEndian

/-! # Reading the pipe

`ReadMessage` reads an `AsyncMessage_t` of 16 bytes over one that has been zeroed, and does not say
how much it has got.  `HandleCommandSocketRead` goes on with the bytes that are there then. -/

namespace NermalProxy

open NermalProxy.CString NermalProxy.KeyedList NermalProxy.Config NermalProxy.Transition
  NermalProxy.LittleEndian

/-! ## The message -/

/-- `sizeof(AsyncMessage_t)`. -/
def messageSize : Nat := 16

/-- The bytes that `WriteMessage` is given. -/
def Message.encode : Message → Bytes
  | .hostDetectResult sessionId success =>
    wordBytes 0 ++ wordBytes sessionId ++ boolByte success :: List.replicate 7 0
  | .hostConnectResult sessionId proxyFd success =>
    wordBytes 1 ++ wordBytes sessionId ++ wordBytes proxyFd ++ boolByte success :: List.replicate 3 0

/-- What is in the message behind `ReadMessage`; `memory` is what the braces leave uninitialised, from
`hostConnectResult.proxyFd`'s second byte on. -/
def readMessage (memory : Bytes) (result : ReadResult) : Bytes :=
  let delivered := ClientSocket.delivered result
  delivered ++ (List.replicate 9 0 ++ memory).drop delivered.length

/-- The read fails or delivers fewer bytes than a message has. -/
def Short (result : ReadResult) : Prop := (ClientSocket.delivered result).length < messageSize

instance (result : ReadResult) : Decidable (Short result) :=
  inferInstanceAs (Decidable ((ClientSocket.delivered result).length < messageSize))

def Message.Fits : Message → Prop
  | .hostDetectResult sessionId _ => FitsInt sessionId
  | .hostConnectResult sessionId proxyFd _ => FitsInt sessionId ∧ FitsInt proxyFd

namespace SocketManager

/-- `HandleCommandSocketRead` behind `ReadMessage`.  There is no session with a negative id. -/
def handleCommandBytes (settings : Settings) (localTime : Option LocalTime) (now : UInt64)
    (registered : Bool × Bool) (message : Bytes) (state : State) : Option State :=
  let sessionId := intAt 4 message
  match wordAt 0 message with
  | 0 =>
    if sessionId < 0 then none
    else handleMessage settings localTime now registered
      (.hostDetectResult sessionId.toNat (boolAt 8 message)) state
  | 1 =>
    if sessionId < 0 then none
    else handleMessage settings localTime now registered
      (.hostConnectResult sessionId.toNat (intAt 8 message) (boolAt 12 message)) state
  | _ => some state

end SocketManager

/-! ## Whole messages -/

theorem readMessage_whole (memory : Bytes) (message : Message) :
    ∃ behind, readMessage memory (.data message.encode) = message.encode ++ behind := ⟨_, rfl⟩

/-- A message that is read as a whole is handled as what was written. -/
theorem handleCommandBytes_whole {settings : Settings} {localTime : Option LocalTime} {now : UInt64}
    {registered : Bool × Bool} {message : Message} (fits : message.Fits) (memory : Bytes) (state : State) :
    SocketManager.handleCommandBytes settings localTime now registered
        (readMessage memory (.data message.encode)) state =
      SocketManager.handleMessage settings localTime now registered message state := by
  obtain ⟨behind, read⟩ := readMessage_whole memory message
  rw [read]
  cases message with
  | hostDetectResult sessionId success =>
    let flag := boolByte success :: (List.replicate 7 0 ++ behind)
    have layout : Message.encode (.hostDetectResult sessionId success) ++ behind =
        wordBytes 0 ++ (wordBytes sessionId ++ flag) := by
      simp only [Message.encode, flag, List.append_assoc, List.cons_append]
    have kind : wordAt 0 (wordBytes 0 ++ (wordBytes sessionId ++ flag)) = 0 :=
      wordAt_wordBytes [] _ 0
    have session : intAt 4 (wordBytes 0 ++ (wordBytes sessionId ++ flag)) = sessionId :=
      intAt_wordBytes (wordBytes 0) flag fits
    have result : boolAt 8 (wordBytes 0 ++ (wordBytes sessionId ++ flag)) = success := by
      rw [← List.append_assoc]
      exact boolAt_boolByte (wordBytes 0 ++ wordBytes sessionId) _ success
    have live : ¬ (sessionId : Int) < 0 := by omega
    rw [layout]
    simp only [SocketManager.handleCommandBytes, kind, session, result, if_neg live, Int.toNat_natCast]
  | hostConnectResult sessionId proxyFd success =>
    let flag := boolByte success :: (List.replicate 3 0 ++ behind)
    have layout : Message.encode (.hostConnectResult sessionId proxyFd success) ++ behind =
        wordBytes 1 ++ (wordBytes sessionId ++ (wordBytes proxyFd ++ flag)) := by
      simp only [Message.encode, flag, List.append_assoc, List.cons_append]
    have kind : wordAt 0 (wordBytes 1 ++ (wordBytes sessionId ++ (wordBytes proxyFd ++ flag))) = 1 :=
      wordAt_wordBytes [] _ 1
    have session : intAt 4 (wordBytes 1 ++ (wordBytes sessionId ++ (wordBytes proxyFd ++ flag))) = sessionId :=
      intAt_wordBytes (wordBytes 1) _ fits.1
    have fd : intAt 8 (wordBytes 1 ++ (wordBytes sessionId ++ (wordBytes proxyFd ++ flag))) = proxyFd := by
      rw [← List.append_assoc]
      exact intAt_wordBytes (wordBytes 1 ++ wordBytes sessionId) flag fits.2
    have result :
        boolAt 12 (wordBytes 1 ++ (wordBytes sessionId ++ (wordBytes proxyFd ++ flag))) = success := by
      rw [← List.append_assoc, ← List.append_assoc]
      exact boolAt_boolByte (wordBytes 1 ++ wordBytes sessionId ++ wordBytes proxyFd) _ success
    have live : ¬ (sessionId : Int) < 0 := by omega
    rw [layout]
    simp only [SocketManager.handleCommandBytes, kind, session, fd, result, if_neg live, Int.toNat_natCast]

/-! ## Harmless messages -/

namespace SocketManager

/-- Sessions, registered sockets, queue and descriptors are as before, and no client has been sent
anything. -/
structure Unchanged (before next : State) : Prop where
  sessions : next.sessions = before.sessions
  sockets : next.sockets = before.sockets
  queue : next.queue = before.queue
  openFds : next.openFds = before.openFds
  closed : next.closed = before.closed
  responses : next.responses = before.responses

/-- What is left in the pipe does not matter. -/
theorem Unchanged.of_pipe {before next : State} {pipe : List Message} :
    Unchanged { before with pipe } next ↔ Unchanged before next :=
  ⟨fun ⟨sessions, sockets, queue, openFds, closed, responses⟩ =>
      ⟨sessions, sockets, queue, openFds, closed, responses⟩,
    fun ⟨sessions, sockets, queue, openFds, closed, responses⟩ =>
      ⟨sessions, sockets, queue, openFds, closed, responses⟩⟩

/-- The message is handled without following a null pointer and without a change. -/
def Harmless (settings : Settings) (localTime : Option LocalTime) (now : UInt64) (registered : Bool × Bool)
    (message : Bytes) (state : State) : Prop :=
  ∃ next, handleCommandBytes settings localTime now registered message state = some next ∧
    Unchanged state next

/-- The session is let in under the name it has, and its host is blocked. -/
structure Blocked (settings : Settings) (localTime : Option LocalTime) (session : Session) : Prop where
  admitted : (authorize settings localTime session).refusal = none
  named : setVerdictName (authorize settings localTime session) session = session
  blocked : isAllowed settings.blacklists settings.policies session.userName session.hostUrl = false

/-- Of no kind that is known, or the detection of a host that is blocked for a live session. -/
def Unheeded (settings : Settings) (localTime : Option LocalTime) (message : Bytes) (state : State) : Prop :=
  1 < wordAt 0 message ∨
    (wordAt 0 message = 0 ∧ boolAt 8 message = true ∧ ∃ sessionId : Nat, intAt 4 message = sessionId ∧
      ∃ session, state.getSession sessionId = some session ∧ Blocked settings localTime session)

section

variable {settings : Settings} {localTime : Option LocalTime} {now : UInt64} {registered : Bool × Bool}
  {state next : State} {session : Session}

theorem reject_changes (response : Bytes) (same : next.responses = state.responses) :
    ¬ Unchanged state (reject settings now session response next) := by
  intro unchanged
  have answered : (reject settings now session response next).responses =
      next.responses ++ [(session.clientFd, response)] := rfl
  have lengths := congrArg List.length unchanged.responses
  rw [answered, same, List.length_append, List.length_singleton] at lengths
  omega

/-- A socket is registered, or its descriptor is closed. -/
theorem addSocket_counts (registered : Bool) (socket : ClientSocket) (state : State) :
    (addSocket registered (.client socket) state).sockets.length +
        (addSocket registered (.client socket) state).closed.length =
      state.sockets.length + state.closed.length + 1 := by
  cases registered with
  | true =>
    simp only [addSocket, if_true, List.length_append, List.length_singleton]
    omega
  | false => simp only [addSocket, Bool.false_eq_true, if_false, destroy, State.close, List.length_append,
      List.length_singleton, Nat.add_assoc]

theorem connect_changes {sessionId : Nat} {proxyFd : Fd} {success : Bool}
    (handled : handleMessage settings localTime now registered
      (.hostConnectResult sessionId proxyFd success) state = some next) : ¬ Unchanged state next := by
  simp only [handleMessage] at handled
  split at handled
  · cases handled
  · rename_i session found
    cases success with
    | false =>
      cases handled
      exact reject_changes notFound rfl
    | true =>
      simp only [Bool.true_eq_false, if_false, Option.some.injEq] at handled
      subst handled
      intro unchanged
      have first := addSocket_counts registered.1 (.make session.clientFd proxyFd sessionId true) state
      have second := addSocket_counts registered.2 (.make proxyFd session.clientFd sessionId false)
        (addSocket registered.1 (.client (.make session.clientFd proxyFd sessionId true)) state)
      have sockets := congrArg List.length unchanged.sockets
      have closed := congrArg List.length unchanged.closed
      omega

theorem detect_unchanged_iff (sessionId : Nat) (success : Bool) :
    (∃ next, handleMessage settings localTime now registered (.hostDetectResult sessionId success) state =
      some next ∧ Unchanged state next) ↔
      success = true ∧ ∃ session, state.getSession sessionId = some session ∧
        Blocked settings localTime session := by
  constructor
  · rintro ⟨next, handled, unchanged⟩
    simp only [handleMessage] at handled
    split at handled
    · cases handled
    · rename_i session found
      cases success with
      | false =>
        cases handled
        exact absurd unchanged (reject_changes clientError rfl)
      | true =>
        simp only [Bool.true_eq_false, if_false] at handled
        refine ⟨rfl, session, found, ?_⟩
        have renamed := State.getSession_update_key
          (State.setVerdictName_key (authorize settings localTime session)) found
        split at handled
        · rename_i response refusal
          cases handled
          exact absurd unchanged (reject_changes response rfl)
        · rename_i admitted
          simp only [connectProxy, renamed] at handled
          split at handled
          · rename_i blocked
            cases handled
            have sessions : (state.updateSession sessionId
                (setVerdictName (authorize settings localTime session))).sessions = state.sessions :=
              unchanged.sessions
            rw [State.getSession, sessions] at renamed
            have named := Option.some.inj (renamed.symm.trans found)
            refine ⟨admitted, named, ?_⟩
            rw [named] at blocked
            simpa using blocked
          · cases handled
            have lengths := congrArg List.length unchanged.queue
            simp [State.dispatch, State.updateSession] at lengths
  · rintro ⟨rfl, session, found, admitted, named, blocked⟩
    have same :
        state.updateSession sessionId (setVerdictName (authorize settings localTime session)) = state := by
      simp only [State.updateSession, SessionManager.update, adjust_of_fixed found named]
    refine ⟨state.writeMessage (.hostConnectResult sessionId (-1) false), ?_,
      ⟨rfl, rfl, rfl, rfl, rfl, rfl⟩⟩
    simp only [handleMessage, found, Bool.true_eq_false, if_false, admitted, same, connectProxy, blocked,
      Bool.not_false, if_true]

/-- A message is harmless exactly if it is of no known kind, or the successful detection of a blocked
host for a live session that is let in as it is. -/
theorem harmless_iff (message : Bytes) :
    Harmless settings localTime now registered message state ↔ Unheeded settings localTime message state := by
  unfold Harmless Unheeded handleCommandBytes
  generalize wordAt 0 message = kind
  match kind with
  | 0 =>
    simp only [Nat.not_lt_zero, false_or, true_and]
    by_cases negative : intAt 4 message < 0
    · simp only [if_pos negative, reduceCtorEq, false_and, exists_false, false_iff]
      rintro ⟨-, sessionId, isId, -⟩
      omega
    · simp only [if_neg negative, detect_unchanged_iff]
      have isId : intAt 4 message = ((intAt 4 message).toNat : Int) := by omega
      constructor
      · rintro ⟨success, live⟩
        exact ⟨success, _, isId, live⟩
      · rintro ⟨success, sessionId, same, live⟩
        rw [same, Int.toNat_natCast]
        exact ⟨success, live⟩
  | 1 =>
    simp only [Nat.lt_irrefl, Nat.one_ne_zero, false_and, or_false, iff_false]
    rintro ⟨next, handled, unchanged⟩
    split at handled
    · cases handled
    · exact connect_changes handled unchanged
  | kind + 2 => exact iff_of_true ⟨state, rfl, ⟨rfl, rfl, rfl, rfl, rfl, rfl⟩⟩ (.inl (by omega))

/-- A message that is left as it was initialised is that of a failed detection for the first session. -/
theorem nothing_heeded (memory : Bytes) {result : ReadResult} (nothing : ClientSocket.delivered result = []) :
    ¬ Unheeded settings localTime (readMessage memory result) state := by
  rintro (kind | ⟨-, success, -⟩)
  · exact absurd kind (by simp [readMessage, nothing, wordAt, List.replicate])
  · exact absurd success (by simp [readMessage, nothing, boolAt, List.replicate])

end

end SocketManager

/-! ## Runs -/

/-- The bytes in the pipe are the rest of a message that has been read in part, and the messages
behind it. -/
structure Piped where
  torn : Bytes
  state : State

namespace Piped

open SocketManager

def contents (piped : Piped) : Bytes := piped.torn ++ piped.state.pipe.flatMap Message.encode

/-- Takes bytes out of the pipe, a message at most. -/
def consume (count : Nat) (piped : Piped) : Piped :=
  if count ≤ piped.torn.length then { piped with torn := piped.torn.drop count }
  else
    match piped.state.pipe with
    | [] => { piped with torn := [] }
    | message :: pipe => ⟨message.encode.drop (count - piped.torn.length), { piped.state with pipe }⟩

/-- A `::read` delivers what is at the front of the pipe, up to the size of a message. -/
def Delivers (result : ReadResult) (contents : Bytes) : Prop :=
  match result with
  | .data bytes => 0 < bytes.length ∧ bytes.length ≤ messageSize ∧ bytes = contents.take bytes.length
  | _ => True

instance (result : ReadResult) (contents : Bytes) : Decidable (Delivers result contents) :=
  match result with
  | .data bytes =>
    inferInstanceAs (Decidable (0 < bytes.length ∧ bytes.length ≤ messageSize ∧
      bytes = contents.take bytes.length))
  | .endOfStream | .error _ => inferInstanceAs (Decidable True)

/-- One `HandleCommandSocketRead`, with what its calls return. -/
structure CommandRead where
  localTime : Option LocalTime
  now : UInt64
  registered : Bool × Bool
  memory : Bytes
  result : ReadResult

inductive PipeAction where
  /-- A message is read as a whole, or the action is none of the pipe's. -/
  | proxy (action : Action)
  | read (read : CommandRead)

def isCommand : Action → Bool
  | .command .. => true
  | _ => false

def handleRead (settings : Settings) (read : CommandRead) (piped : Piped) : Option Piped :=
  if Delivers read.result piped.contents then
    let behind := piped.consume (ClientSocket.delivered read.result).length
    (handleCommandBytes settings read.localTime read.now read.registered (readMessage read.memory read.result)
      behind.state).map (fun state => { behind with state })
  else none

def step (settings : Settings) (piped : Piped) : PipeAction → Option Piped
  | .proxy action =>
    if isCommand action = true ∧ piped.torn ≠ [] then none
    else (piped.state.step settings action).map (fun state => { piped with state })
  | .read read => handleRead settings read piped

def Initial (piped : Piped) : Prop := piped.torn = [] ∧ piped.state.Initial

end Piped

def pipeSystem (settings : Settings) : System Piped Piped.PipeAction :=
  System.ofFunction Piped.Initial (Piped.step settings)

namespace Piped

open SocketManager

variable {settings : Settings} {piped next : Piped} {read : CommandRead}

theorem length_encode (message : Message) : message.encode.length = messageSize := by
  cases message <;> rfl

theorem contents_consume (count : Nat) (small : count ≤ messageSize) (piped : Piped) :
    (piped.consume count).contents = piped.contents.drop count := by
  unfold consume contents
  split
  · rename_i inside
    rw [List.drop_append_of_le_length inside]
  · rename_i outside
    rw [List.drop_append, List.drop_eq_nil_of_le (by omega), List.nil_append]
    cases pipe : piped.state.pipe with
    | nil => simp [pipe]
    | cons message pipe =>
      have inMessage : count - piped.torn.length ≤ message.encode.length := by
        rw [length_encode]
        omega
      rw [List.flatMap_cons, List.drop_append_of_le_length inMessage]

theorem consume_state (count : Nat) (piped : Piped) :
    ∃ pipe, (piped.consume count).state = { piped.state with pipe } := by
  unfold consume
  split
  · exact ⟨piped.state.pipe, rfl⟩
  · cases piped.state.pipe with
    | nil => exact ⟨piped.state.pipe, rfl⟩
    | cons message pipe => exact ⟨pipe, rfl⟩

/-- The read of a whole message is the proxy's own step. -/
theorem handleRead_whole {state : State} {message : Message} {pipe : List Message}
    (first : state.pipe = message :: pipe) (fits : message.Fits) (localTime : Option LocalTime)
    (now : UInt64) (registered : Bool × Bool) (memory : Bytes) :
    handleRead settings ⟨localTime, now, registered, memory, .data message.encode⟩ ⟨[], state⟩ =
      step settings ⟨[], state⟩ (.proxy (.command localTime now registered)) := by
  have delivers : Delivers (.data message.encode) (contents ⟨[], state⟩) := by
    refine ⟨by rw [length_encode]; decide, by rw [length_encode], ?_⟩
    rw [contents, first, List.flatMap_cons, List.nil_append, List.take_left]
  have longer : ¬ message.encode.length ≤ 0 := by
    rw [length_encode]
    decide
  have behind : consume message.encode.length ⟨[], state⟩ = ⟨[], { state with pipe }⟩ := by
    simp only [consume, List.length_nil, if_neg longer, first, Nat.sub_zero, List.drop_length]
  simp only [handleRead, if_pos delivers, ClientSocket.delivered, behind, handleCommandBytes_whole fits, step,
    ne_eq, not_true_eq_false, and_false, if_false, State.step, handleCommandSocketRead, first]

def HarmlessRead (settings : Settings) (read : CommandRead) (piped : Piped) : Prop :=
  ∃ next, piped.handleRead settings read = some next ∧ Unchanged piped.state next.state

def UnheededRead (settings : Settings) (read : CommandRead) (piped : Piped) : Prop :=
  Unheeded settings read.localTime (readMessage read.memory read.result) piped.state

theorem harmlessRead_iff (delivers : Delivers read.result piped.contents) :
    HarmlessRead settings read piped ↔ UnheededRead settings read piped := by
  obtain ⟨pipe, behind⟩ := consume_state (ClientSocket.delivered read.result).length piped
  have heeds : UnheededRead settings read piped ↔
      Unheeded settings read.localTime (readMessage read.memory read.result) { piped.state with pipe } := Iff.rfl
  have harmless : Harmless settings read.localTime read.now read.registered
      (readMessage read.memory read.result) { piped.state with pipe } ↔ _ := harmless_iff _
  rw [heeds, ← harmless]
  simp only [HarmlessRead, Harmless, handleRead, if_pos delivers, behind, Option.map_eq_some_iff]
  constructor
  · rintro ⟨-, ⟨state, handled, rfl⟩, unchanged⟩
    exact ⟨state, handled, Unchanged.of_pipe.mpr unchanged⟩
  · rintro ⟨state, handled, unchanged⟩
    exact ⟨_, ⟨state, handled, rfl⟩, Unchanged.of_pipe.mp unchanged⟩

theorem delivers_of_handleRead (handled : piped.handleRead settings read = some next) :
    Delivers read.result piped.contents := by
  by_contra other
  simp [handleRead, if_neg other] at handled

/-- Every read that fails is one of a message that nobody heeds. -/
def FailsUnheeded (settings : Settings) (piped : Piped) : PipeAction → Prop
  | .proxy _ => True
  | .read read => Short read.result → UnheededRead settings read piped

/-- Where all failed reads leave a message that is not heeded, they were harmless, and in the state that
is reached the next one is exactly if it leaves such a message too. -/
theorem failed_reads_harmless {history : List (Piped × PipeAction)}
    (run : Run (pipeSystem settings) (FailsUnheeded settings) history piped) :
    (∀ earlier read, (earlier, .read read) ∈ history → Short read.result →
      HarmlessRead settings read earlier) ∧
    ∀ read, Short read.result → Delivers read.result piped.contents →
      (HarmlessRead settings read piped ↔ UnheededRead settings read piped) := by
  refine ⟨fun earlier read member short => ?_, fun read _ delivers => harmlessRead_iff delivers⟩
  obtain ⟨before, after, rfl⟩ := List.append_of_mem member
  obtain ⟨-, permitted, next, steps⟩ := run.opened
  have handled : earlier.handleRead settings read = some next := steps
  exact (harmlessRead_iff (delivers_of_handleRead handled)).mpr (permitted short)

/-- `main` has registered the listening socket and the pipe. -/
def initial : Piped := ⟨[], State.initial 3 4 [3, 4] 0⟩

/-- The events until the result of the first client's detection is in the pipe. -/
def detect : List PipeAction :=
  ((State.serve 5 6 (bytes "10.0.0.2") (bytes "CONNECT example.com:443 HTTP/1.1\r\n\r\n") none
    .connected).take 9).map .proxy

theorem run_of_detect {allowed : Piped → PipeAction → Prop} {history : List (Piped × PipeAction)}
    (permitted : ∀ piped action, allowed piped (.proxy action))
    (executed : runActions (Piped.step settings) [] initial detect = some (history, piped)) :
    Run (pipeSystem settings) allowed history piped := by
  have started : Run (pipeSystem settings) allowed [] initial := .start ⟨rfl, State.initially⟩
  refine run_of_runActions started ?_ executed
  intro action member piped
  obtain ⟨inner, -, rfl⟩ := List.mem_map.mp member
  exact permitted piped inner

/-- Everybody's blacklist names the first client's host. -/
def blocking : Settings :=
  ⟨10080, false, [⟨bytes "ads", [bytes "example.com"]⟩], [], [⟨globalDomain, [bytes "ads"]⟩]⟩

/-- Nine bytes of the result. -/
def shortRead : CommandRead :=
  ⟨none, 8, (true, true), [], .data ((Message.hostDetectResult 0 true).encode.take 9)⟩

/-- The result of a blocked host is read short. -/
theorem failed_reads_harmless_blocked :
    ∃ (history : List (Piped × PipeAction)) (earlier : Piped) (read : CommandRead),
    (earlier, .read read) ∈ history ∧ Short read.result ∧ HarmlessRead blocking read earlier := by
  have executed : ∃ history piped session next,
      runActions (Piped.step blocking) [] initial detect = some (history, piped) ∧
      piped.state.getSession 0 = some session ∧ Blocked blocking none session ∧
      piped.step blocking (.read shortRead) = some next :=
    ⟨_, _, _, _, rfl, rfl, ⟨rfl, rfl, rfl⟩, rfl⟩
  obtain ⟨history, piped, session, next, executed, found, blocked, steps⟩ := executed
  have unheeded : UnheededRead blocking shortRead piped := .inr ⟨rfl, rfl, 0, rfl, session, found, blocked⟩
  have run : Run (pipeSystem blocking) (FailsUnheeded blocking) (history ++ [(piped, .read shortRead)]) next :=
    .snoc (run_of_detect (fun _ _ => trivial) executed) (fun _ => unheeded) steps
  have member : (piped, .read shortRead) ∈ history ++ [(piped, .read shortRead)] := by simp
  have short : Short shortRead.result := by decide
  exact ⟨_, piped, shortRead, member, short, (failed_reads_harmless run).1 piped shortRead member short⟩

/-- `::read` fails, and the zeroed message is taken for a failed detection of the first client. -/
theorem failed_read_answered :
    ¬ ∀ settings history piped, Run (pipeSystem settings) (fun _ _ => True) history piped →
      ∀ read, Short read.result → Delivers read.result piped.contents →
        HarmlessRead settings read piped := by
  intro claim
  have executed : ∃ history piped,
      runActions (Piped.step State.unrestricted) [] initial detect = some (history, piped) := ⟨_, _, rfl⟩
  obtain ⟨history, piped, executed⟩ := executed
  have run : Run (pipeSystem State.unrestricted) (fun _ _ => True) history piped :=
    run_of_detect (fun _ _ => trivial) executed
  let read : CommandRead := ⟨none, 8, (true, true), [], .error 5⟩
  have harmless := claim _ _ _ run read (by decide) trivial
  have delivers : Delivers read.result piped.contents := trivial
  exact nothing_heeded [] rfl ((harmlessRead_iff delivers).mp harmless)

end Piped

end NermalProxy
