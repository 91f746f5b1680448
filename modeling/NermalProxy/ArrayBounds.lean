import NermalProxy.CredentialBuffers
import NermalProxy.EventLoop
import NermalProxy.RequestLog

/-! # Runs inside the arrays

The arrays of the detector, of the credentials and of the log take what clients send without a
bound on it.  What the code does behind an overrun is not modelled: the steps of the proxy are those
of the code in runs in which every step stays inside. -/

namespace NermalProxy

open NermalProxy.CString NermalProxy.KeyedList NermalProxy.Config NermalProxy.Transition
open NermalProxy.HostInfoCache NermalProxy.Credentials

/-- The verbosity of the log, and a time up to which the clock is read. -/
structure Logging where
  verbosity : Log.LogSeverity
  latest : UInt64

/-! ## What a step writes into the log -/

namespace Log

def pruning (entry : HostInfo) : Call :=
  .debug (bytes "pruning old entry: " ++ cstr entry.url ++ bytes "->" ++ cstr entry.address)

def cacheHit (entry : HostInfo) : Call :=
  .debug (bytes "cache hit for : " ++ cstr entry.url ++ bytes "->" ++ cstr entry.address)

/-- The loop of `GetCachedResults`, which skips the entry behind one that it erases. -/
def lookupCalls (now : Nat → UInt64) (url : Bytes) : (turn : Nat) → List HostInfo → List Call
  | _, [] => []
  | turn, entry :: rest =>
    if expired (now turn) entry then
      match rest with
      | [] => [pruning entry]
      | _ :: rest => pruning entry :: lookupCalls now url (turn + 1) rest
    else if entry.url = url then cacheHit entry :: lookupCalls now url (turn + 1) rest
    else lookupCalls now url (turn + 1) rest

def compared (name password : Bytes) : Call :=
  .debug (bytes "Authenticate_i:  " ++ cstr name ++ bytes ":" ++ cstr password)

/-- `Authenticate_i` writes down what it is given and each user up to the one that matches. -/
def authenticateCalls (users : List User) (userName password : Bytes) : List Call :=
  compared userName password ::
    (through (fun user => user.name == userName && user.password == password) users).map
      (fun user => compared user.name user.password)

def authorizeCalls (settings : Settings) (session : Session) : List Call :=
  if settings.authEnabled then
    match authorization session.request with
    | some none => []
    | some (some rawCreds) =>
      match AuthManager.credentials rawCreds with
      | none => []
      | some (userName, password) => authenticateCalls settings.users userName password
    -- without a header by the address
    | none =>
      match AuthManager.authenticateIp settings.users session.clientIp with
      | none => []
      | some username => [.debug (bytes "Authenticated as " ++ cstr username ++ bytes " via IP")]
  else []

/-- The handler of a message. -/
def messageCalls (settings : Settings) (localTime : Option LocalTime) (state : State) : List Call :=
  match state.pipe with
  | .hostDetectResult sessionId true :: _ =>
    match state.getSession sessionId with
    | none => []
    | some session =>
      -- the domains are only looked at for a request that is not refused
      let verdict := SocketManager.authorize settings localTime session
      authorizeCalls settings session ++
        match verdict.refusal with
        | some _ => []
        | none =>
          isAllowedCalls settings.blacklists settings.policies
            (SocketManager.setVerdictName verdict session).userName session.hostUrl
  | _ => []

def workerCalls (worker : Worker) (input : Input) (state : State) : List Call :=
  match worker.pc, input with
  | .read clientFd, .read (.data data) beyond => parseCalls clientFd (Detector.requestBuffer data beyond)
  | .lookupHost host _, .clock now => lookupCalls now host 0 state.cache
  | .connect _ (address :: _), .network _ =>
    if address.url = sinkhole then []
    else (state.getSession worker.sessionId).toList.map (fun session => trying address session.port)
  | _, _ => []

/-- The lines of a step that quote something. -/
def stepCalls (settings : Settings) (state : State) : Action → List Call
  | .command localTime _ _ => messageCalls settings localTime state
  | .work index input => state.workers[index]?.toList.flatMap (fun worker => workerCalls worker input state)
  | _ => []

/-- The stamp of the latest time is the longest one. -/
theorem fits_iff {verbosity : LogSeverity} {latest : UInt64} {call : Call} :
    call.Fits verbosity latest ↔
      (call.emitted verbosity = true → (call.line latest).length + 1 ≤ bufferSize) := by
  constructor
  · exact fun fits emitted => fits emitted latest UInt64.le_rfl
  · intro fits emitted timestamp before
    have longest := fits emitted
    have time := stamp_length_mono before
    simp only [Call.line, List.length_append] at longest ⊢
    omega

instance (verbosity : LogSeverity) (latest : UInt64) (call : Call) :
    Decidable (call.Fits verbosity latest) := decidable_of_iff _ fits_iff.symm

end Log

/-! ## Steps inside the arrays -/

/-- The arrays of the detector, in the step that reads a request. -/
def ReadInside : Action → Prop
  | .work _ (.read (.data data) _) =>
    data.length ≤ Detector.requestBufferSize ∧ Detector.StaysInside data
  | _ => True

/-- The arrays of the credentials, in the handler of a detected request. -/
def MessageInside (settings : Settings) (state : State) : List Message → Prop
  | .hostDetectResult sessionId true :: _ =>
    ∀ session ∈ state.getSession sessionId, settings.authEnabled = true →
      Credentials.StaysInside session.request
  | _ => True

def CredentialsInside (settings : Settings) (state : State) : Action → Prop
  | .command .. => MessageInside settings state state.pipe
  | _ => True

/-- The step overruns none of the arrays. -/
structure InBounds (settings : Settings) (logging : Logging) (state : State) (action : Action) : Prop where
  read : ReadInside action
  credentials : CredentialsInside settings state action
  lines : ∀ call ∈ Log.stepCalls settings state action, call.Fits logging.verbosity logging.latest

/-- `epoll_ctl` does not fail, and no array is overrun. -/
structure Faultless (settings : Settings) (logging : Logging) (state : State) (action : Action) : Prop where
  registers : Registers state action
  inBounds : InBounds settings logging state action

section

variable {settings : Settings} {logging : Logging} {state : State} {action : Action} {history : History}

theorem readInside_iff {data : Bytes} :
    data.length ≤ Detector.requestBufferSize ∧ Detector.StaysInside data ↔
      data.length ≤ Detector.requestBufferSize ∧
        (data.length < Detector.requestBufferSize ∨ (0 : UInt8) ∈ data) ∧ Detector.WordsFit (cstr data) :=
  and_congr_right Detector.staysInside_iff

instance (action : Action) : Decidable (ReadInside action) :=
  match action with
  | .work _ (.read (.data _) _) => decidable_of_iff _ readInside_iff.symm
  | .work _ (.read .endOfStream _) | .work _ (.read (.error _) _) => inferInstanceAs (Decidable True)
  | .work _ .none | .work _ (.clock _) | .work _ (.resolver _ _) | .work _ (.socket _)
  | .work _ (.network _) | .work _ (.write _) | .work _ (.freed _) => inferInstanceAs (Decidable True)
  | .accept .. | .command .. | .relay .. | .timeout .. | .take => inferInstanceAs (Decidable True)

instance (request : Bytes) : Decidable (Credentials.StaysInside request) :=
  decidable_of_iff _ (Credentials.staysInside_iff_credentialsFit request).symm

instance (settings : Settings) (state : State) (pipe : List Message) :
    Decidable (MessageInside settings state pipe) :=
  match pipe with
  | .hostDetectResult sessionId true :: _ =>
    inferInstanceAs (Decidable (∀ session ∈ state.getSession sessionId, settings.authEnabled = true →
      Credentials.StaysInside session.request))
  | [] | .hostDetectResult _ false :: _ | .hostConnectResult .. :: _ => inferInstanceAs (Decidable True)

instance (settings : Settings) (state : State) (action : Action) :
    Decidable (CredentialsInside settings state action) :=
  match action with
  | .command .. => inferInstanceAs (Decidable (MessageInside settings state state.pipe))
  | .accept .. | .relay .. | .timeout .. | .take | .work .. => inferInstanceAs (Decidable True)

theorem inBounds_iff : InBounds settings logging state action ↔ ReadInside action ∧
    CredentialsInside settings state action ∧
      ∀ call ∈ Log.stepCalls settings state action, call.Fits logging.verbosity logging.latest :=
  ⟨fun inBounds => ⟨inBounds.read, inBounds.credentials, inBounds.lines⟩,
    fun ⟨read, credentials, lines⟩ => ⟨read, credentials, lines⟩⟩

instance (settings : Settings) (logging : Logging) (state : State) (action : Action) :
    Decidable (InBounds settings logging state action) := decidable_of_iff _ inBounds_iff.symm

/-- A run whose recorded steps are in bounds. -/
theorem run_faultless (run : Run (proxySystem settings) Registers history state)
    (inBounds : ∀ entry ∈ history, InBounds settings logging entry.1 entry.2) :
    Run (proxySystem settings) (Faultless settings logging) history state :=
  run.recorded fun entry member => ⟨run.permitted entry member, inBounds entry member⟩

theorem registers_of_faultless (run : Run (proxySystem settings) (Faultless settings logging) history state) :
    Run (proxySystem settings) Registers history state :=
  run.weaken fun _ _ faultless => faultless.registers

end

/-! ## In the loop -/

/-- What the handlers of the loop do with the arrays. -/
def LoopInBounds (settings : Settings) (logging : Logging) (loop : EventLoop) : LoopAction → Prop
  | .work index input => InBounds settings logging loop.state (.work index input)
  | .dispatch (.command localTime now registered) =>
    InBounds settings logging loop.state (.command localTime now registered)
  | _ => True

structure LoopFaultless (settings : Settings) (logging : Logging) (loop : EventLoop) (action : LoopAction) :
    Prop where
  registers : LoopRegisters loop action
  inBounds : LoopInBounds settings logging loop action

section

variable {settings : Settings} {logging : Logging} {loop : EventLoop} {history : LoopHistory}

instance (settings : Settings) (logging : Logging) (loop : EventLoop) (action : LoopAction) :
    Decidable (LoopInBounds settings logging loop action) :=
  match action with
  | .work index input => inferInstanceAs (Decidable (InBounds settings logging loop.state (.work index input)))
  | .dispatch (.command localTime now registered) =>
    inferInstanceAs (Decidable (InBounds settings logging loop.state (.command localTime now registered)))
  | .dispatch (.accept ..) | .dispatch (.relay ..) | .poll _ | .idle .. | .interrupted | .failed | .take =>
    inferInstanceAs (Decidable True)

/-- Nothing that the other steps store comes from a client. -/
theorem inBounds_of_performs {action : LoopAction} {performed : Action}
    (inBounds : LoopInBounds settings logging loop action) (performs : EventLoop.Performs action performed) :
    InBounds settings logging loop.state performed := by
  cases performs with
  | work => exact inBounds
  | command => exact inBounds
  | take | accept | relay | idle => exact ⟨trivial, trivial, fun _ member => absurd member List.not_mem_nil⟩

theorem faultless_of_performs (loop : EventLoop) (action : LoopAction) (performed : Action)
    (faultless : LoopFaultless settings logging loop action)
    (performs : EventLoop.Performs action performed) :
    Faultless settings logging loop.state performed :=
  ⟨EventLoop.registers_of_performs loop action performed faultless.registers performs,
    inBounds_of_performs faultless.inBounds performs⟩

theorem run_loopFaultless (run : Run (loopSystem settings) LoopRegisters history loop)
    (inBounds : ∀ entry ∈ history, LoopInBounds settings logging entry.1 entry.2) :
    Run (loopSystem settings) (LoopFaultless settings logging) history loop :=
  run.recorded fun entry member => ⟨run.permitted entry member, inBounds entry member⟩

theorem registers_of_loopFaultless
    (run : Run (loopSystem settings) (LoopFaultless settings logging) history loop) :
    Run (loopSystem settings) LoopRegisters history loop :=
  run.weaken fun _ _ faultless => faultless.registers

end

end NermalProxy
