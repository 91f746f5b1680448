import NermalProxy.ConnectionAttempts
import NermalProxy.Log
import NermalProxy.ProxyRequest

/-! # The log lines of a request

The calls of `Log` that `asyncDetector`, `isAllowed` and `asyncConnector` make for one
request, with the texts they format: most quote the client's request, its host, a
domain of the configuration or an address. -/

namespace NermalProxy.Log

open NermalProxy.CString NermalProxy.Detector NermalProxy.HostInfoCache NermalProxy.KeyedList
open UserPolicyList BlacklistList

/-- What a request meets besides its own bytes. -/
structure Surroundings where
  clientFd : Fd
  errno : Int
  /-- The memory behind the request buffer. -/
  beyond : Bytes
  blacklists : List Blacklist
  policies : List UserPolicy
  /-- The name in the session when `isAllowed` is called; `none` when the session is refused before. -/
  userName : Option Bytes
  cache : List HostInfo
  lookupClock : Nat → UInt64
  getaddrinfo : Bytes → UInt16 → Option (List AddrInfo)
  resolveClock : UInt64
  /-- Whether `::socket` succeeds. -/
  socketCreated : Bool
  connect : HostInfo → UInt16 → ConnectResult
  written : WriteResult

/-- What `GetAddressesForHost` delivers. -/
def Surroundings.addressesFor (surroundings : Surroundings) (host : Bytes) (port : UInt16) : List HostInfo :=
  (Connector.getAddressesForHost surroundings.lookupClock surroundings.getaddrinfo
    surroundings.resolveClock host port surroundings.cache).1

/-! ## The detector -/

def bail (clientFd : Fd) (errno : Int) : Call :=
  .debug (bytes "Bail on read - fd=" ++ signedDecimal clientFd ++ bytes ", errno" ++ signedDecimal errno)

def modeSeen (clientFd : Fd) (mode : Bytes) : Call :=
  .debug (bytes "fd=" ++ signedDecimal clientFd ++ mode)

def modeCalls (clientFd : Fd) (mode : Bytes) : List Call :=
  if mode = bytes "CONNECT" then [modeSeen clientFd (bytes " connect-mode proxy")]
  else if mode = bytes "GET" then [modeSeen clientFd (bytes " get-mode proxy")]
  else if mode = bytes "POST" then [modeSeen clientFd (bytes " post-mode proxy")]
  else []

def refusal (buf : Bytes) : Call := .debug (bytes "Invalid proxy connect string - " ++ buf)

/-- The parse of the buffer's text. -/
def parseCalls (clientFd : Fd) (text : Bytes) : List Call :=
  let (mode, _) := scanRequestLine text
  modeCalls clientFd mode ++
    if !isTransparent mode then []
    else
      match scanOriginUrl text with
      | none => [refusal text]
      | some _ => []

def detectorCalls (surroundings : Surroundings) (result : ReadResult) : List Call :=
  .debug (bytes "asyncDetector:enter") ::
    match result with
    | .data data =>
      if data.length = 0 then [bail surroundings.clientFd surroundings.errno]
      else parseCalls surroundings.clientFd (requestBuffer data surroundings.beyond)
    | _ => [bail surroundings.clientFd surroundings.errno]

/-! ## The filter -/

def notAllowed (host domain : Bytes) : Call :=
  .debug (bytes "host " ++ cstr host ++ bytes " not allowed in domain " ++ cstr domain)

/-- The first domain of a user that the host is not allowed in. -/
def blockingIn (lists : List Blacklist) (policies : List UserPolicy) (user host : Bytes) : Option Bytes :=
  (userDomains policies user).find? (fun domain => !isAllowedInList lists domain host)

def isAllowedCalls (lists : List Blacklist) (policies : List UserPolicy) (userName host : Bytes) :
    List Call :=
  match blockingIn lists policies userName host with
  | some domain => [notAllowed host domain]
  | none =>
    match blockingIn lists policies globalDomain host with
    | some domain => [notAllowed host domain]
    | none => []

/-! ## The connector -/

def trying (address : HostInfo) (port : UInt16) : Call :=
  .debug (bytes "trying to connect to " ++ cstr address.url ++ bytes " via " ++ cstr address.address ++
    bytes ":" ++ signedDecimal port.toNat)

/-- The session id is passed, but the format does not name it. -/
def connectedTo (address : HostInfo) : Call :=
  .debug (bytes "Connected to " ++ cstr address.url ++ bytes ":d")

def resendCalls (written : WriteResult) (transparent : Bool) : List Call :=
  match written with
  | .accepts _ => []
  | .error _ =>
    if transparent then [⟨.error, bytes "asyncConnector: Unable to resend initial request"⟩]
    else [⟨.error, bytes "asyncConnector: Unable to write success code"⟩]

/-- The loop over the addresses; `resent` are the calls behind it once there is a connection. -/
def attemptCalls (connect : HostInfo → UInt16 → ConnectResult) (port : UInt16) (resent : List Call) :
    List HostInfo → List Call
  | [] => [.debug (bytes "Couldn't connect")]
  | address :: rest =>
    if address.url = sinkhole then attemptCalls connect port resent rest
    else
      trying address port ::
        match connect address port with
        | .unconvertible => .debug (bytes "Can't convert address") :: attemptCalls connect port resent rest
        | .refused => attemptCalls connect port resent rest
        | .connected => connectedTo address :: resent

def connectorCalls (surroundings : Surroundings) (host : Bytes) (port : UInt16) (transparent : Bool) :
    List Call :=
  let addresses := surroundings.addressesFor host port
  .debug (bytes "asyncConnector:enter") ::
    if addresses.length = 0 then []
    else if !surroundings.socketCreated then []
    else
      attemptCalls surroundings.connect port (resendCalls surroundings.written transparent) addresses

/-- Every call for a request that is read as `data`. -/
def requestCalls (surroundings : Surroundings) (data : Bytes) : List Call :=
  detectorCalls surroundings (.data data) ++
    match asyncDetector (.data data) surroundings.beyond with
    | none => []
    | some detection =>
      match surroundings.userName with
      | none => []
      | some userName =>
        isAllowedCalls surroundings.blacklists surroundings.policies userName detection.host ++
          if isAllowed surroundings.blacklists surroundings.policies userName detection.host then
            connectorCalls surroundings detection.host (UInt16.ofInt detection.port) detection.transparent
          else []

def StaysInside (verbosity : LogSeverity) (latest : UInt64) (surroundings : Surroundings)
    (data : Bytes) : Prop :=
  ∀ call ∈ requestCalls surroundings data, call.Fits verbosity latest

/-! ## The texts that are quoted -/

/-- The lists that apply to a user: its own, and then everybody's. -/
def Surroundings.domainsOf (surroundings : Surroundings) (userName : Bytes) : List Bytes :=
  userDomains surroundings.policies userName ++ userDomains surroundings.policies globalDomain

/-- A domain that the host is not allowed in, behind domains that it is allowed in, leaves room for the
rest of its line. -/
def DomainsFit (latest : UInt64) (surroundings : Surroundings) (userName host : Bytes) : Prop :=
  ∀ before domain after, surroundings.domainsOf userName = before ++ domain :: after →
    (∀ earlier ∈ before, isAllowedInList surroundings.blacklists earlier host = true) →
    isAllowedInList surroundings.blacklists domain host = false →
    28 + host.length + (cstr domain).length ≤ messageRoom latest

/-- So does an address, behind addresses that no connection is made to. -/
def AddressesFit (latest : UInt64) (surroundings : Surroundings) (host : Bytes) (port : UInt16) : Prop :=
  ∀ before address after, surroundings.addressesFor host port = before ++ address :: after →
    (∀ earlier ∈ before, surroundings.connect earlier port ≠ .connected) →
    27 + host.length + (cstr address.address).length + (signedDecimal port.toNat).length ≤
      messageRoom latest

/-- What is quoted leaves room for the rest of its line: the text of a request that names no host, or the
domains, and the addresses of a host that all domains allow and that is not called `0.0.0.0`. -/
def QuotesFit (latest : UInt64) (surroundings : Surroundings) (text : Bytes) : Prop :=
  match namedEndpoint text with
  | none => 31 + text.length ≤ messageRoom latest
  | some (host, port) =>
    ∀ userName ∈ surroundings.userName,
      DomainsFit latest surroundings userName host ∧
        ((∀ domain ∈ surroundings.domainsOf userName,
            isAllowedInList surroundings.blacklists domain host = true) →
          surroundings.socketCreated = true → host ≠ sinkhole →
          AddressesFit latest surroundings host (UInt16.ofInt port))

/-! ## Which calls fit -/

section Fits

variable {verbosity : LogSeverity} {latest : UInt64}

theorem fits_modeCalls (clientFd : Fd) (mode : Bytes) :
    ∀ call ∈ modeCalls clientFd mode, call.Fits verbosity latest := by
  have seen : ∀ text : Bytes, text.length ≤ 100 → (modeSeen clientFd text).Fits verbosity latest := by
    intro text short
    have number := signedDecimal_length_le clientFd
    have label : (bytes "fd=").length = 3 := by decide
    apply fits_of_short
    simp only [modeSeen, Call.debug, List.length_append, label]
    omega
  intro call member
  unfold modeCalls at member
  split at member
  · rw [List.mem_singleton.mp member]
    exact seen _ (by decide)
  · split at member
    · rw [List.mem_singleton.mp member]
      exact seen _ (by decide)
    · split at member
      · rw [List.mem_singleton.mp member]
        exact seen _ (by decide)
      · cases member

theorem fits_refusal_iff {text : Bytes} :
    (refusal text).Fits verbosity latest ↔
      verbosity.toNat < LogSeverity.debug.toNat ∨ 31 + text.length ≤ messageRoom latest := by
  have label : (bytes "Invalid proxy connect string - ").length = 31 := by decide
  rw [refusal, fits_debug_iff, List.length_append, label]

theorem fits_detectorCalls_iff (surroundings : Surroundings) {data : Bytes} (nonempty : data ≠ []) :
    (∀ call ∈ detectorCalls surroundings (.data data), call.Fits verbosity latest) ↔
      (namedEndpoint (requestBuffer data surroundings.beyond) = none →
        (refusal (requestBuffer data surroundings.beyond)).Fits verbosity latest) := by
  have size : ¬ data.length = 0 := by simpa using nonempty
  have entered : (Call.debug (bytes "asyncDetector:enter")).Fits verbosity latest :=
    fits_of_short (by decide)
  simp only [detectorCalls, size, if_false, List.forall_mem_cons, entered, true_and, parseCalls,
    scanRequestLine_eq, isTransparent_take, List.forall_mem_append]
  generalize requestBuffer data surroundings.beyond = text
  rw [and_iff_right (fits_modeCalls _ _)]
  unfold namedEndpoint
  cases transparent : isTransparent (method text) with
  | false => simp
  | true =>
    simp only [Bool.not_true, Bool.false_eq_true, if_false, if_true, scanOriginUrl_eq]
    by_cases origin : scheme.isPrefixOf (target text) = true ∧ originWord text ≠ []
    · simp [origin]
    · simp only [if_neg origin, List.forall_mem_singleton, true_imp_iff]

theorem fits_notAllowed_iff {host domain : Bytes} (nulFree : (0 : UInt8) ∉ host) :
    (notAllowed host domain).Fits verbosity latest ↔
      verbosity.toNat < LogSeverity.debug.toNat ∨
        28 + host.length + (cstr domain).length ≤ messageRoom latest := by
  have labels : (bytes "host ").length = 5 ∧ (bytes " not allowed in domain ").length = 23 := by decide
  rw [notAllowed, fits_debug_iff]
  simp only [cstr_of_nul_free nulFree, List.length_append, labels]
  refine or_congr Iff.rfl ?_
  constructor <;> intro <;> omega

theorem fits_trying_iff {address : HostInfo} {host : Bytes} {port : UInt16} (url : address.url = host)
    (nulFree : (0 : UInt8) ∉ host) :
    (trying address port).Fits verbosity latest ↔
      verbosity.toNat < LogSeverity.debug.toNat ∨
        27 + host.length + (cstr address.address).length + (signedDecimal port.toNat).length ≤
          messageRoom latest := by
  have labels : (bytes "trying to connect to ").length = 21 ∧ (bytes " via ").length = 5 ∧
      (bytes ":").length = 1 := by decide
  rw [trying, fits_debug_iff, url]
  simp only [cstr_of_nul_free nulFree, List.length_append, labels]
  refine or_congr Iff.rfl ?_
  constructor <;> intro <;> omega

/-- The line of a connection is shorter than the one of the attempt. -/
theorem fits_connectedTo {address : HostInfo} {port : UInt16}
    (attempt : (trying address port).Fits verbosity latest) :
    (connectedTo address).Fits verbosity latest := by
  have labels : (bytes "trying to connect to ").length = 21 ∧ (bytes "Connected to ").length = 13 ∧
      (bytes ":d").length = 2 := by decide
  rw [trying, fits_debug_iff] at attempt
  rw [connectedTo, fits_debug_iff]
  refine attempt.imp id fun room => ?_
  simp only [List.length_append, labels] at room ⊢
  omega

theorem fits_resendCalls (written : WriteResult) (transparent : Bool) :
    ∀ call ∈ resendCalls written transparent, call.Fits verbosity latest := by
  intro call member
  cases written with
  | accepts count => cases member
  | error errno =>
    cases transparent
    · rw [List.mem_singleton.mp member]
      exact fits_of_short (by decide)
    · rw [List.mem_singleton.mp member]
      exact fits_of_short (by decide)

/-- The host's addresses are tried in their order, up to the first that a connection is made to. -/
theorem fits_attemptCalls_iff (connect : HostInfo → UInt16 → ConnectResult) (port : UInt16)
    {resent : List Call} (short : ∀ call ∈ resent, call.Fits verbosity latest)
    {addresses : List HostInfo} (kept : ∀ address ∈ addresses, address.url ≠ sinkhole) :
    (∀ call ∈ attemptCalls connect port resent addresses, call.Fits verbosity latest) ↔
      ∀ before address after, addresses = before ++ address :: after →
        (∀ earlier ∈ before, connect earlier port ≠ .connected) →
        (trying address port).Fits verbosity latest := by
  have given : (Call.debug (bytes "Couldn't connect")).Fits verbosity latest := fits_of_short (by decide)
  have garbled : (Call.debug (bytes "Can't convert address")).Fits verbosity latest :=
    fits_of_short (by decide)
  induction addresses with
  | nil => simp [attemptCalls, given]
  | cons address rest inductionHypothesis =>
    obtain ⟨named, others⟩ := List.forall_mem_cons.mp kept
    rw [attemptCalls, if_neg named, List.forall_mem_cons, forall_split_cons]
    refine and_congr_right fun attempt => ?_
    refine Iff.trans ?_ (imp_congr_right fun _ => inductionHypothesis others)
    cases outcome : connect address port with
    | unconvertible => simp [garbled]
    | refused => simp
    | connected =>
      have last := fits_connectedTo attempt
      simpa [last] using short

/-- A host of the name `0.0.0.0` is never tried. -/
theorem fits_attemptCalls_of_sinkhole (connect : HostInfo → UInt16 → ConnectResult) (port : UInt16)
    (resent : List Call) {addresses : List HostInfo}
    (filtered : ∀ address ∈ addresses, address.url = sinkhole) :
    ∀ call ∈ attemptCalls connect port resent addresses, call.Fits verbosity latest := by
  induction addresses with
  | nil =>
    intro call member
    rw [List.mem_singleton.mp member]
    exact fits_of_short (by decide)
  | cons address rest inductionHypothesis =>
    obtain ⟨named, others⟩ := List.forall_mem_cons.mp filtered
    rw [attemptCalls, if_pos named]
    exact inductionHypothesis others

/-! ## All calls -/

theorem blockingIn_append (lists : List Blacklist) (policies : List UserPolicy) (userName host : Bytes) :
    (userDomains policies userName ++ userDomains policies globalDomain).find?
        (fun domain => !isAllowedInList lists domain host) =
      (blockingIn lists policies userName host).or (blockingIn lists policies globalDomain host) :=
  List.find?_append

theorem isAllowedCalls_eq (lists : List Blacklist) (policies : List UserPolicy) (userName host : Bytes) :
    isAllowedCalls lists policies userName host =
      ((userDomains policies userName ++ userDomains policies globalDomain).find?
        (fun domain => !isAllowedInList lists domain host)).toList.map (notAllowed host) := by
  rw [blockingIn_append, isAllowedCalls]
  cases blockingIn lists policies userName host with
  | some domain => rfl
  | none => cases blockingIn lists policies globalDomain host <;> rfl

theorem isAllowed_iff_domainsOf {surroundings : Surroundings} {userName host : Bytes} :
    isAllowed surroundings.blacklists surroundings.policies userName host = true ↔
      ∀ domain ∈ surroundings.domainsOf userName,
        isAllowedInList surroundings.blacklists domain host = true := by
  rw [isAllowed_iff, Surroundings.domainsOf]
  simp only [List.mem_append, or_imp, forall_and]

theorem fits_isAllowedCalls_iff (surroundings : Surroundings) (userName : Bytes) {host : Bytes}
    (nulFree : (0 : UInt8) ∉ host) :
    (∀ call ∈ isAllowedCalls surroundings.blacklists surroundings.policies userName host,
        call.Fits verbosity latest) ↔
      verbosity.toNat < LogSeverity.debug.toNat ∨ DomainsFit latest surroundings userName host := by
  rw [isAllowedCalls_eq]
  unfold DomainsFit Surroundings.domainsOf
  generalize userDomains surroundings.policies userName ++ userDomains surroundings.policies globalDomain =
    domains
  cases blocks : domains.find? (fun domain => !isAllowedInList surroundings.blacklists domain host) with
  | none =>
    rw [List.find?_eq_none] at blocks
    simp only [Option.toList_none, List.map_nil, List.not_mem_nil, false_imp_iff, implies_true, true_iff]
    right
    rintro before domain after rfl - refused
    exact absurd (blocks domain (by simp)) (by simp [refused])
  | some domain =>
    obtain ⟨refused, before, after, split, allowed⟩ := List.find?_eq_some_iff_append.mp blocks
    simp only [Option.toList_some, List.map_cons, List.map_nil, List.forall_mem_singleton,
      fits_notAllowed_iff nulFree]
    refine or_congr Iff.rfl ⟨?_, ?_⟩
    · intro room before' domain' after' split' allowed' refused'
      have first : domains.find? (fun domain => !isAllowedInList surroundings.blacklists domain host) =
          some domain' := by
        refine List.find?_eq_some_iff_append.mpr ⟨by simp [refused'], before', after', split', ?_⟩
        intro earlier member
        simp [allowed' earlier member]
      rw [blocks] at first
      cases first
      exact room
    · intro rooms
      refine rooms before domain after split ?_ (by simpa using refused)
      intro earlier member
      simpa using allowed earlier member

theorem fits_connectorCalls_iff (surroundings : Surroundings) {host : Bytes}
    (nulFree : (0 : UInt8) ∉ host) (port : UInt16) (transparent : Bool) :
    (∀ call ∈ connectorCalls surroundings host port transparent, call.Fits verbosity latest) ↔
      (surroundings.socketCreated = true → host ≠ sinkhole →
        verbosity.toNat < LogSeverity.debug.toNat ∨ AddressesFit latest surroundings host port) := by
  have entered : (Call.debug (bytes "asyncConnector:enter")).Fits verbosity latest :=
    fits_of_short (by decide)
  have named : ∀ address ∈ surroundings.addressesFor host port, address.url = host :=
    fun address listed => Connector.getAddressesForHost_named listed
  have resent : ∀ call ∈ resendCalls surroundings.written transparent, call.Fits verbosity latest :=
    fits_resendCalls _ _
  simp only [connectorCalls, List.forall_mem_cons, entered, true_and, AddressesFit]
  generalize surroundings.addressesFor host port = addresses at named
  by_cases created : surroundings.socketCreated = true
  · simp only [created, Bool.not_true, Bool.false_eq_true, if_false, true_imp_iff]
    by_cases filtered : host = sinkhole
    · have skipped : ∀ call ∈ attemptCalls surroundings.connect port
          (resendCalls surroundings.written transparent) addresses, call.Fits verbosity latest :=
        fits_attemptCalls_of_sinkhole _ _ _ fun address listed => (named address listed).trans filtered
      simp only [filtered, ne_eq, not_true_eq_false, false_imp_iff, iff_true]
      split
      · simp
      · exact skipped
    · have kept : ∀ address ∈ addresses, address.url ≠ sinkhole := by
        intro address listed
        rw [named address listed]
        exact filtered
      have attempts := fits_attemptCalls_iff surroundings.connect port resent kept
      have quoted : ∀ address ∈ addresses, ((trying address port).Fits verbosity latest ↔
          verbosity.toNat < LogSeverity.debug.toNat ∨
            27 + host.length + (cstr address.address).length + (signedDecimal port.toNat).length ≤
              messageRoom latest) :=
        fun address listed => fits_trying_iff (named address listed) nulFree
      have lines : (∀ call ∈ attemptCalls surroundings.connect port
          (resendCalls surroundings.written transparent) addresses, call.Fits verbosity latest) ↔
          verbosity.toNat < LogSeverity.debug.toNat ∨
            ∀ before address after, addresses = before ++ address :: after →
              (∀ earlier ∈ before, surroundings.connect earlier port ≠ .connected) →
              27 + host.length + (cstr address.address).length + (signedDecimal port.toNat).length ≤
                messageRoom latest := by
        rw [attempts]
        by_cases quiet : verbosity.toNat < LogSeverity.debug.toNat
        · simp only [quiet, true_or, iff_true]
          rintro before address after rfl -
          exact (quoted address (by simp)).mpr (.inl quiet)
        · simp only [quiet, false_or]
          constructor
          · rintro fit before address after rfl earlier
            exact ((quoted address (by simp)).mp (fit before address after rfl earlier)).resolve_left quiet
          · rintro fit before address after rfl earlier
            exact (quoted address (by simp)).mpr (.inr (fit before address after rfl earlier))
      simp only [filtered, ne_eq, not_false_eq_true, true_imp_iff, ← lines]
      split
      · rename_i unresolved
        rw [List.length_eq_zero_iff.mp unresolved]
        simp only [List.not_mem_nil, false_imp_iff, implies_true, attemptCalls, List.forall_mem_singleton,
          true_iff]
        exact fits_of_short (by decide)
      · exact Iff.rfl
  · simp [created]

/-- The lines of a request whose words fit their arrays fit exactly if its debug lines are not written, or
the text that the one with its quotes holds leaves room for the rest of the line. -/
theorem staysInside_iff_quotesFit {data : Bytes} (nonempty : data ≠ []) (verbosity : LogSeverity)
    (latest : UInt64) {surroundings : Surroundings}
    (_fits : WordsFit (requestBuffer data surroundings.beyond)) :
    StaysInside verbosity latest surroundings data ↔
      verbosity.toNat < LogSeverity.debug.toNat ∨
        QuotesFit latest surroundings (requestBuffer data surroundings.beyond) := by
  have parsed := asyncDetector_data nonempty surroundings.beyond
  have endpoint := detect_endpoint (requestBuffer data surroundings.beyond)
  have textNulFree : (0 : UInt8) ∉ requestBuffer data surroundings.beyond := cstr_nul_free _
  unfold StaysInside requestCalls QuotesFit
  rw [List.forall_mem_append, fits_detectorCalls_iff surroundings nonempty, parsed, fits_refusal_iff]
  cases detected : detect (requestBuffer data surroundings.beyond) with
  | none =>
    rw [detected] at endpoint
    simp [← endpoint]
  | some detection =>
    rw [detected, Option.map_some] at endpoint
    have nulFree : (0 : UInt8) ∉ detection.host :=
      fun member => textNulFree (mem_host endpoint.symm member).1
    simp only [← endpoint, reduceCtorEq, false_imp_iff, true_and]
    cases surroundings.userName with
    | none => simp
    | some userName =>
      simp only [Option.mem_def, Option.some.injEq, forall_eq', List.forall_mem_append,
        fits_isAllowedCalls_iff surroundings userName nulFree, ← isAllowed_iff_domainsOf]
      by_cases allowed : isAllowed surroundings.blacklists surroundings.policies userName
          detection.host = true
      · simp only [allowed, if_true, true_imp_iff, fits_connectorCalls_iff surroundings nulFree]
        by_cases quiet : verbosity.toNat < LogSeverity.debug.toNat
        · simp [quiet]
        · simp only [quiet, false_or]
      · simp [allowed]

end Fits

/-- No lists, no policies, and a resolver that knows no host. -/
def Surroundings.plain : Surroundings where
  clientFd := 5
  errno := 0
  beyond := []
  blacklists := []
  policies := []
  userName := some []
  cache := []
  lookupClock := fun _ => 0
  getaddrinfo := fun _ _ => none
  resolveClock := 0
  socketCreated := true
  connect := fun _ _ => .refused
  written := .accepts 0

theorem staysInside_tunnel : StaysInside .debug 0 .plain (bytes "CONNECT a:1\r\n") := by
  have text : requestBuffer (bytes "CONNECT a:1\r\n") Surroundings.plain.beyond = bytes "CONNECT a:1\r\n" :=
    requestBuffer_eq (by decide) (by decide) _
  have named : namedEndpoint (bytes "CONNECT a:1\r\n") = some (bytes "a", 1) := by decide
  have fits : WordsFit (requestBuffer (bytes "CONNECT a:1\r\n") Surroundings.plain.beyond) := by
    rw [text]
    decide
  refine (staysInside_iff_quotesFit (by decide) .debug 0 fits).mpr (.inr ?_)
  rw [text, QuotesFit, named]
  rintro userName ⟨⟩
  constructor
  · rintro before domain after split
    cases before with
    | nil => cases split
    | cons first before => cases split
  · rintro - - - before address after split
    cases before with
    | nil => cases split
    | cons first before => cases split

/-- A line that asks with `GET` for something else than an `http://` URL. -/
def foreignRequest (word : Bytes) : Bytes := bytes "GET" ++ 32 :: (word ++ bytes " HTTP/1.0\r\n\r\n")

theorem length_foreignRequest (word : Bytes) : (foreignRequest word).length = word.length + 17 := by
  have sizes : (bytes "GET").length = 3 ∧ (bytes " HTTP/1.0\r\n\r\n").length = 13 := by decide
  rw [foreignRequest, List.length_append, List.length_cons, List.length_append, sizes.1, sizes.2]
  omega

theorem requestBuffer_foreign {word : Bytes} (nulFree : (0 : UInt8) ∉ word) (short : word.length < 1024)
    (beyond : Bytes) : requestBuffer (foreignRequest word) beyond = foreignRequest word := by
  apply requestBuffer_eq
  · simp only [foreignRequest, List.mem_append, List.mem_cons, not_or]
    exact ⟨by decide, by decide, nulFree, by decide⟩
  · rw [length_foreignRequest, requestBufferSize]
    omega

theorem words_foreign {word : Bytes} (isWord : IsWord word) :
    method (foreignRequest word) = bytes "GET" ∧ target (foreignRequest word) = word := by
  have isFirst : IsWord (bytes "GET") := by decide
  have delimits : Delimits (bytes " HTTP/1.0\r\n\r\n") := (rfl : isSpace 32 = true)
  exact ⟨method_line isFirst word _, (target_line isFirst isWord delimits).1⟩

/-- Its words fit, and it is quoted whole. -/
theorem outside_of_long_refusal {word : Bytes} (isWord : IsWord word) (nulFree : (0 : UInt8) ∉ word)
    (foreign : ¬ scheme.isPrefixOf word = true) (long : 1000 ≤ word.length) (short : word.length < 1024) :
    WordsFit (requestBuffer (foreignRequest word) []) ∧
      ¬ StaysInside .debug 0 .plain (foreignRequest word) := by
  obtain ⟨methodIs, targetIs⟩ := words_foreign isWord
  have size := length_foreignRequest word
  have nonempty : foreignRequest word ≠ [] := List.ne_nil_of_length_pos (by omega)
  have text : requestBuffer (foreignRequest word) Surroundings.plain.beyond = foreignRequest word :=
    requestBuffer_foreign nulFree short _
  have notScheme : word ≠ scheme := by
    rintro rfl
    exact foreign (by decide)
  have refused : namedEndpoint (foreignRequest word) = none := by
    rw [namedEndpoint, methodIs, if_pos (by decide), if_neg]
    rw [targetIs]
    exact fun origin => foreign origin.1
  constructor
  · rw [requestBuffer_foreign nulFree short]
    exact ⟨by rw [methodIs]; decide, by rwa [targetIs], fun _ bare => absurd (targetIs ▸ bare) notScheme⟩
  · intro stays
    have detector := (List.forall_mem_append.mp stays).1
    rw [fits_detectorCalls_iff _ nonempty, text] at detector
    have room : messageRoom 0 ≤ bufferSize := Nat.sub_le _ _
    rcases fits_refusal_iff.mp (detector refused) with quiet | fits
    · exact absurd quiet (by decide)
    · simp only [bufferSize] at room
      omega

/-- A GET for 1000 bytes that are no URL, at the default verbosity. -/
theorem long_refusal_outside :
    ¬ ∀ verbosity latest (surroundings : Surroundings) data, data ≠ [] → data.length ≤ requestBufferSize →
      WordsFit (requestBuffer data surroundings.beyond) →
      StaysInside verbosity latest surroundings data := by
  intro claim
  have size : (List.replicate 1000 (120 : UInt8)).length = 1000 := List.length_replicate
  have isWord : IsWord (List.replicate 1000 (120 : UInt8)) := isWord_replicate (by decide) rfl
  have foreign : ¬ scheme.isPrefixOf (List.replicate 1000 (120 : UInt8)) = true := by
    rw [List.isPrefixOf_iff_prefix]
    intro starts
    have inWord : (104 : UInt8) ∈ List.replicate 1000 120 := starts.subset (by decide)
    exact notMem_replicate (by decide) inWord
  have length := length_foreignRequest (List.replicate 1000 120)
  obtain ⟨fits, outside⟩ :=
    outside_of_long_refusal isWord (notMem_replicate (by decide)) foreign (by omega) (by omega)
  refine outside (claim .debug 0 .plain _ (List.ne_nil_of_length_pos (by omega)) ?_ fits)
  rw [length, size]
  decide

end NermalProxy.Log
