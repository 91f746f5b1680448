import NermalProxy.State

/-! # The worker threads

`Worker.step` is one step of `asyncDetector` or `asyncConnector`.  What the kernel and
the resolver answer is the step's input.  A step that reads through a session pointer
has no outcome when that session is gone, except the one behind the reply of a failed
connection attempt, which is where that happens. -/

namespace NermalProxy

open NermalProxy.CString NermalProxy.Detector NermalProxy.HostInfoCache

/-- One result of `getaddrinfo`: whether it is an `AF_INET` one, and its text form. -/
structure AddrInfo where
  inet : Bool
  address : Bytes
  deriving DecidableEq, Repr

inductive ConnectResult where
  /-- `inet_pton` fails. -/
  | unconvertible
  | refused
  | connected
  deriving DecidableEq, Repr

inductive Input where
  | none
  /-- The result of `::read` and the memory behind the buffer. -/
  | read (result : ReadResult) (beyond : Bytes)
  | clock (now : Nat → UInt64)
  | resolver (getaddrinfo : Bytes → UInt16 → Option (List AddrInfo)) (now : UInt64)
  /-- `none` is a failing `::socket`. -/
  | socket (sockFd : Option Fd)
  | network (connect : HostInfo → UInt16 → ConnectResult)
  | write (result : WriteResult)
  /-- What a read through a pointer to an ended session finds there. -/
  | freed (host : Bytes)

/-- The part of `GetAddressesForHost` behind `getaddrinfo`: the first IPv4 result. -/
def firstAddress (host : Bytes) (results : List AddrInfo) (now : UInt64) : Option HostInfo :=
  (results.find? AddrInfo.inet).map
    (fun result => { url := host, address := result.address, ipVersion := 4, timestamp := now })

def sinkhole : Bytes := bytes "0.0.0.0"

def okResponse : Bytes := bytes "HTTP/1.0 200 OK\r\n\r\n"

/-- `sendResponse`. -/
def sendResponse (sockFd : Fd) (sessionId : Nat) (success : Bool) (state : State) : State :=
  state.writeMessage (.hostConnectResult sessionId sockFd success)

def sendErrorResponse (sessionId : Nat) (state : State) : State :=
  sendResponse (-1) sessionId false state

namespace Worker

/-- The state after the step and where the worker is then; `none` when its task is done. -/
def step (worker : Worker) (input : Input) (state : State) : Option (State × Option Pc) :=
  match worker.pc, input with
  | .detectorEnter, .none =>
    match state.getSession worker.sessionId with
    | none => none
    | some session => some (state, some (.read session.clientFd))
  | .read _, .read result beyond =>
    match asyncDetector result beyond with
    | some detection => some (state, some (.setHost detection))
    | none => some (state, some (.detectReply false))
  | .setHost detection, .none =>
    some (state.updateSession worker.sessionId (fun session => session.setHost detection.host),
      some (.setPort detection))
  | .setPort detection, .none =>
    some (state.updateSession worker.sessionId (fun session => session.setPort detection.port),
      some (.setRequest detection))
  | .setRequest detection, .none =>
    some (state.updateSession worker.sessionId (fun session => session.setRequest detection.request),
      some (.setTransparent detection))
  | .setTransparent detection, .none =>
    some (state.updateSession worker.sessionId
      (fun session => session.setTransparent detection.transparent), some (.detectReply true))
  | .detectReply success, .none =>
    some (state.writeMessage (.hostDetectResult worker.sessionId success), none)
  | .connectorEnter, .none =>
    match state.getSession worker.sessionId with
    | none => none
    | some session => some (state, some (.lookupHost session.hostUrl session.port))
  | .lookupHost host port, .clock now =>
    let (results, cache) := getCachedResults now host state.cache
    some ({ state with cache },
      some (if results.length > 0 then .socket results else .resolve host port))
  | .resolve host port, .resolver getaddrinfo now =>
    match getaddrinfo host port with
    | none => some (state, some .abort)
    | some results =>
      match firstAddress host results now with
      | none => some (state, some .abort)
      | some entry => some (state, some (.store entry))
  | .store entry, .none =>
    -- one address, of however many there are
    some ({ state with cache := addResult entry state.cache }, some (.socket [entry]))
  | .socket addresses, .socket sockFd =>
    match sockFd with
    | none => some (state, some .abort)
    | some sockFd =>
      -- the kernel never hands out a descriptor that is open
      if sockFd ∈ state.openFds then none
      else some ({ state with openFds := sockFd :: state.openFds }, some (.connect sockFd addresses))
  -- the socket stays open
  | .connect _ [], .none => some (state, some .giveUp)
  | .connect sockFd (address :: rest), .network connect =>
    -- the addresses are compared by the host they were resolved for
    if address.url = sinkhole then some (state, some (.connect sockFd rest))
    else
      match state.getSession worker.sessionId with
      | none => none
      | some session =>
        match connect address session.port with
        | .connected => some (state, some (.resend sockFd))
        | _ => some (state, some (.connect sockFd rest))
  | .abort, .none => some (sendErrorResponse worker.sessionId state, none)
  | .giveUp, .none => some (sendErrorResponse worker.sessionId state, some .clearCache)
  | .clearCache, .freed garbage =>
    -- the reply is out, so the main thread may have ended the session
    let host :=
      match state.getSession worker.sessionId with
      | none => garbage
      | some session => session.hostUrl
    some ({ state with cache := clearCacheForHost host state.cache }, none)
  | .resend sockFd, .write result =>
    -- one `::write`, of which only a result of -1 is noticed, and only logged; what the client accepts of
    -- the 200 is not recorded
    match state.getSession worker.sessionId with
    | none => none
    | some session =>
      if session.transparent then
        some (state.resend sockFd (result.accepted session.request), some (.setOptions sockFd))
      else some (state.respond session.clientFd okResponse, some (.setOptions sockFd))
  | .setOptions sockFd, .none =>
    match state.getSession worker.sessionId with
    | none => none
    | some _ => some (state, some (.connectReply sockFd))
  | .connectReply sockFd, .none => some (sendResponse sockFd worker.sessionId true state, none)
  | _, _ => none

/-- Whether the next step of the worker reads or writes its session object. -/
def accesses (worker : Worker) : Bool :=
  match worker.pc with
  | .detectorEnter | .setHost _ | .setPort _ | .setRequest _ | .setTransparent _ => true
  | .connectorEnter | .connect _ (_ :: _) | .clearCache | .resend _ | .setOptions _ => true
  | _ => false

/-- Whether the worker has written its result message. -/
def replied (worker : Worker) : Bool := worker.pc = .clearCache

/-- The steps by where the worker is, with what each one found. -/
inductive Steps (sessionId : Nat) (state : State) : Pc → Input → State → Option Pc → Prop
  | detectorEnter {session : Session} (found : state.getSession sessionId = some session) :
      Steps sessionId state .detectorEnter .none state (some (.read session.clientFd))
  | detected {clientFd : Fd} {result : ReadResult} {beyond : Bytes} {detection : Detection}
      (parsed : asyncDetector result beyond = some detection) :
      Steps sessionId state (.read clientFd) (.read result beyond) state (some (.setHost detection))
  | undetected {clientFd : Fd} {result : ReadResult} {beyond : Bytes} :
      Steps sessionId state (.read clientFd) (.read result beyond) state (some (.detectReply false))
  | setHost {detection : Detection} :
      Steps sessionId state (.setHost detection) .none
        (state.updateSession sessionId (fun session => session.setHost detection.host))
        (some (.setPort detection))
  | setPort {detection : Detection} :
      Steps sessionId state (.setPort detection) .none
        (state.updateSession sessionId (fun session => session.setPort detection.port))
        (some (.setRequest detection))
  | setRequest {detection : Detection} :
      Steps sessionId state (.setRequest detection) .none
        (state.updateSession sessionId (fun session => session.setRequest detection.request))
        (some (.setTransparent detection))
  | setTransparent {detection : Detection} :
      Steps sessionId state (.setTransparent detection) .none
        (state.updateSession sessionId (fun session => session.setTransparent detection.transparent))
        (some (.detectReply true))
  | detectReply {success : Bool} :
      Steps sessionId state (.detectReply success) .none
        (state.writeMessage (.hostDetectResult sessionId success)) none
  | connectorEnter {session : Session} (found : state.getSession sessionId = some session) :
      Steps sessionId state .connectorEnter .none state
        (some (.lookupHost session.hostUrl session.port))
  | cached {host : Bytes} {port : UInt16} {now : Nat → UInt64} :
      Steps sessionId state (.lookupHost host port) (.clock now)
        { state with cache := (getCachedResults now host state.cache).2 }
        (some (.socket (getCachedResults now host state.cache).1))
  | uncached {host : Bytes} {port : UInt16} {now : Nat → UInt64} :
      Steps sessionId state (.lookupHost host port) (.clock now)
        { state with cache := (getCachedResults now host state.cache).2 } (some (.resolve host port))
  | resolved {host : Bytes} {port : UInt16}
      {getaddrinfo : Bytes → UInt16 → Option (List AddrInfo)} {now : UInt64} {entry : HostInfo}
      (url : entry.url = host) :
      Steps sessionId state (.resolve host port) (.resolver getaddrinfo now) state (some (.store entry))
  | unresolved {host : Bytes} {port : UInt16}
      {getaddrinfo : Bytes → UInt16 → Option (List AddrInfo)} {now : UInt64} :
      Steps sessionId state (.resolve host port) (.resolver getaddrinfo now) state (some .abort)
  | store {entry : HostInfo} :
      Steps sessionId state (.store entry) .none
        { state with cache := addResult entry state.cache } (some (.socket [entry]))
  | socket {addresses : List HostInfo} {sockFd : Fd} (unused : sockFd ∉ state.openFds) :
      Steps sessionId state (.socket addresses) (.socket (some sockFd))
        { state with openFds := sockFd :: state.openFds } (some (.connect sockFd addresses))
  | noSocket {addresses : List HostInfo} :
      Steps sessionId state (.socket addresses) (.socket none) state (some .abort)
  | exhausted {sockFd : Fd} : Steps sessionId state (.connect sockFd []) .none state (some .giveUp)
  | nextAddress {sockFd : Fd} {address : HostInfo} {rest : List HostInfo}
      {connect : HostInfo → UInt16 → ConnectResult} :
      Steps sessionId state (.connect sockFd (address :: rest)) (.network connect) state
        (some (.connect sockFd rest))
  | connected {sockFd : Fd} {address : HostInfo} {rest : List HostInfo}
      {connect : HostInfo → UInt16 → ConnectResult} {session : Session}
      (found : state.getSession sessionId = some session) :
      Steps sessionId state (.connect sockFd (address :: rest)) (.network connect) state
        (some (.resend sockFd))
  | abort : Steps sessionId state .abort .none (sendErrorResponse sessionId state) none
  | giveUp : Steps sessionId state .giveUp .none (sendErrorResponse sessionId state) (some .clearCache)
  | clearCache {garbage host : Bytes} :
      Steps sessionId state .clearCache (.freed garbage)
        { state with cache := clearCacheForHost host state.cache } none
  | resend {sockFd : Fd} {result : WriteResult} {responses resent : List (Fd × Bytes)} :
      Steps sessionId state (.resend sockFd) (.write result) { state with responses, resent }
        (some (.setOptions sockFd))
  | setOptions {sockFd : Fd} :
      Steps sessionId state (.setOptions sockFd) .none state (some (.connectReply sockFd))
  | connectReply {sockFd : Fd} :
      Steps sessionId state (.connectReply sockFd) .none (sendResponse sockFd sessionId true state) none

theorem firstAddress_url {host : Bytes} {results : List AddrInfo} {now : UInt64} {entry : HostInfo}
    (first : firstAddress host results now = some entry) : entry.url = host := by
  unfold firstAddress at first
  obtain ⟨result, -, rfl⟩ := Option.map_eq_some_iff.mp first
  rfl

theorem steps_of_step {worker : Worker} {input : Input} {state next : State} {after : Option Pc}
    (stepped : worker.step input state = some (next, after)) :
    Steps worker.sessionId state worker.pc input next after := by
  obtain ⟨sessionId, pc⟩ := worker
  cases pc with
  | detectorEnter =>
    cases input with
    | none =>
      simp only [step] at stepped
      split at stepped
      · cases stepped
      · rename_i found
        cases stepped
        exact .detectorEnter found
    | _ => cases stepped
  | read clientFd =>
    cases input with
    | read result beyond =>
      simp only [step] at stepped
      split at stepped
      · rename_i parsed
        cases stepped
        exact .detected parsed
      · cases stepped
        exact .undetected
    | _ => cases stepped
  | setHost detection =>
    cases input with
    | none =>
      cases stepped
      exact .setHost
    | _ => cases stepped
  | setPort detection =>
    cases input with
    | none =>
      cases stepped
      exact .setPort
    | _ => cases stepped
  | setRequest detection =>
    cases input with
    | none =>
      cases stepped
      exact .setRequest
    | _ => cases stepped
  | setTransparent detection =>
    cases input with
    | none =>
      cases stepped
      exact .setTransparent
    | _ => cases stepped
  | detectReply success =>
    cases input with
    | none =>
      cases stepped
      exact .detectReply
    | _ => cases stepped
  | connectorEnter =>
    cases input with
    | none =>
      simp only [step] at stepped
      split at stepped
      · cases stepped
      · rename_i found
        cases stepped
        exact .connectorEnter found
    | _ => cases stepped
  | lookupHost host port =>
    cases input with
    | clock now =>
      simp only [step] at stepped
      cases stepped
      by_cases hit : (getCachedResults now host state.cache).1.length > 0
      · rw [if_pos hit]
        exact .cached
      · rw [if_neg hit]
        exact .uncached
    | _ => cases stepped
  | resolve host port =>
    cases input with
    | resolver getaddrinfo now =>
      simp only [step] at stepped
      split at stepped
      · cases stepped
        exact .unresolved
      · split at stepped
        · cases stepped
          exact .unresolved
        · rename_i first
          cases stepped
          exact .resolved (firstAddress_url first)
    | _ => cases stepped
  | store entry =>
    cases input with
    | none =>
      cases stepped
      exact .store
    | _ => cases stepped
  | socket addresses =>
    cases input with
    | socket sockFd =>
      cases sockFd with
      | none =>
        cases stepped
        exact .noSocket
      | some sockFd =>
        simp only [step] at stepped
        split at stepped
        · cases stepped
        · rename_i unused
          cases stepped
          exact .socket unused
    | _ => cases stepped
  | connect sockFd addresses =>
    cases addresses with
    | nil =>
      cases input with
      | none =>
        cases stepped
        exact .exhausted
      | _ => cases stepped
    | cons address rest =>
      cases input with
      | network connect =>
        simp only [step] at stepped
        split at stepped
        · cases stepped
          exact .nextAddress
        · split at stepped
          · cases stepped
          · rename_i found
            split at stepped
            · cases stepped
              exact .connected found
            · cases stepped
              exact .nextAddress
      | _ => cases stepped
  | abort =>
    cases input with
    | none =>
      cases stepped
      exact .abort
    | _ => cases stepped
  | giveUp =>
    cases input with
    | none =>
      cases stepped
      exact .giveUp
    | _ => cases stepped
  | clearCache =>
    cases input with
    | freed garbage =>
      cases stepped
      exact .clearCache
    | _ => cases stepped
  | resend sockFd =>
    cases input with
    | write result =>
      simp only [step] at stepped
      split at stepped
      · cases stepped
      · split at stepped
        · cases stepped
          exact .resend
        · cases stepped
          exact .resend
    | _ => cases stepped
  | setOptions sockFd =>
    cases input with
    | none =>
      simp only [step] at stepped
      split at stepped
      · cases stepped
      · cases stepped
        exact .setOptions
    | _ => cases stepped
  | connectReply sockFd =>
    cases input with
    | none =>
      cases stepped
      exact .connectReply
    | _ => cases stepped

end Worker

end NermalProxy
