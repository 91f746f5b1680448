import NermalProxy.CacheFilter
import NermalProxy.Workers

/-! # The connection attempts of a task

`asyncConnector` goes through the addresses of a session's host until one connects.  What
it leaves out are not the addresses `0.0.0.0` but those of a host of that name, so the
answer of a filtering resolver is tried like any other. -/

namespace NermalProxy

open NermalProxy.CString NermalProxy.KeyedList NermalProxy.HostInfoCache

/-! ## Attempts over a list of outcomes -/

namespace Connector

/-- The addresses that `::connect` is called for if these are the ones to leave out. -/
def attempts (leaveOut : HostInfo → Bool) (outcomes : List (HostInfo × ConnectResult)) : List HostInfo :=
  (through (fun outcome => decide (outcome.2 = .connected))
    (outcomes.filter (fun outcome =>
      !leaveOut outcome.1 && decide (outcome.2 ≠ .unconvertible)))).map Prod.fst

/-- An address that is not left out connects. -/
def connects (leaveOut : HostInfo → Bool) (outcome : HostInfo × ConnectResult) : Bool :=
  !leaveOut outcome.1 && decide (outcome.2 = .connected)

section

variable {leaveOut due : HostInfo → Bool} {address : HostInfo} {result : ConnectResult}
  {outcomes : List (HostInfo × ConnectResult)}

theorem attempts_skip (skipped : leaveOut address = true ∨ result = .unconvertible) :
    attempts leaveOut ((address, result) :: outcomes) = attempts leaveOut outcomes := by
  unfold attempts
  rw [List.filter_cons_of_neg]
  rcases skipped with left | unconvertible
  · simp [left]
  · simp [unconvertible]

theorem attempts_refused (tried : leaveOut address = false) :
    attempts leaveOut ((address, .refused) :: outcomes) = address :: attempts leaveOut outcomes := by
  unfold attempts
  rw [List.filter_cons_of_pos (by simp [tried]), through_cons]
  rfl

theorem attempts_connected (tried : leaveOut address = false) :
    attempts leaveOut ((address, .connected) :: outcomes) = [address] := by
  unfold attempts
  rw [List.filter_cons_of_pos (by simp [tried]), through_cons]
  rfl

theorem mem_attempts (tried : address ∈ attempts leaveOut outcomes) : leaveOut address = false := by
  obtain ⟨outcome, member, rfl⟩ := List.mem_map.mp tried
  have kept := (List.mem_filter.mp (List.mem_of_mem_take member)).2
  simp only [Bool.and_eq_true, Bool.not_eq_true'] at kept
  exact kept.1

theorem mem_attempts_head (tried : leaveOut address = false) (converts : result ≠ .unconvertible)
    (outcomes : List (HostInfo × ConnectResult)) :
    address ∈ attempts leaveOut ((address, result) :: outcomes) := by
  cases result with
  | unconvertible => exact absurd rfl converts
  | refused => simp [attempts_refused tried]
  | connected => simp [attempts_connected tried]

/-- The addresses tried are those due exactly when the two ways of leaving addresses out agree on
each one that converts, as far as the first that is due and connects. -/
theorem attempts_eq_iff :
    attempts leaveOut outcomes = attempts due outcomes ↔
      ∀ outcome ∈ through (connects due) outcomes, outcome.2 ≠ .unconvertible →
        leaveOut outcome.1 = due outcome.1 := by
  induction outcomes with
  | nil => simp [attempts]
  | cons outcome outcomes inductionHypothesis =>
    obtain ⟨address, result⟩ := outcome
    rw [through_cons, List.forall_mem_cons]
    by_cases unconvertible : result = .unconvertible
    · rw [attempts_skip (.inr unconvertible), attempts_skip (.inr unconvertible), inductionHypothesis]
      simp [connects, unconvertible]
    · by_cases agree : leaveOut address = due address
      · cases left : due address with
        | true =>
          rw [left] at agree
          rw [attempts_skip (.inl agree), attempts_skip (.inl left), inductionHypothesis]
          simp [connects, left, agree]
        | false =>
          rw [left] at agree
          cases result with
          | unconvertible => exact absurd rfl unconvertible
          | refused =>
            rw [attempts_refused agree, attempts_refused left, List.cons_inj_right, inductionHypothesis]
            simp [connects, left, agree]
          | connected =>
            rw [attempts_connected agree, attempts_connected left]
            simp [connects, left, agree]
      · refine iff_of_false (fun same => agree ?_) (fun agreed => agree (agreed.1 unconvertible))
        cases left : due address with
        | false =>
          have tried := mem_attempts_head left unconvertible outcomes
          rw [← same] at tried
          exact mem_attempts tried
        | true =>
          by_contra other
          have kept : leaveOut address = false := by simpa using other
          have tried := mem_attempts_head kept unconvertible outcomes
          rw [same] at tried
          rw [mem_attempts tried] at left
          cases left

/-- Where they agree that far, one connects if the other does. -/
theorem any_connects_congr
    (agree : ∀ outcome ∈ through (connects due) outcomes, outcome.2 ≠ .unconvertible →
      leaveOut outcome.1 = due outcome.1) :
    outcomes.any (connects leaveOut) = outcomes.any (connects due) := by
  induction outcomes with
  | nil => rfl
  | cons outcome outcomes inductionHypothesis =>
    obtain ⟨address, result⟩ := outcome
    rw [through_cons, List.forall_mem_cons] at agree
    obtain ⟨here, later⟩ := agree
    have same : connects leaveOut (address, result) = connects due (address, result) := by
      cases result with
      | unconvertible => simp [connects]
      | refused => simp [connects]
      | connected => simp only [connects, here (by simp)]
    rw [List.any_cons, List.any_cons, same]
    cases stops : connects due (address, result) with
    | true => rfl
    | false =>
      rw [stops] at later
      rw [inductionHypothesis later]

end

/-! ## The task -/

/-- `GetAddressesForHost`, with the cache it leaves behind: `now` are the readings of the clock during
the lookup and `stamp` the one behind the resolver. -/
def getAddressesForHost (now : Nat → UInt64) (getaddrinfo : Bytes → UInt16 → Option (List AddrInfo))
    (stamp : UInt64) (host : Bytes) (port : UInt16) (cache : List HostInfo) :
    List HostInfo × List HostInfo :=
  let (results, cache) := getCachedResults now host cache
  if results.length > 0 then (results, cache)
  else
    match getaddrinfo host port with
    | none => ([], cache)
    | some results =>
      match firstAddress host results stamp with
      | none => ([], cache)
      | some entry => ([entry], addResult entry cache)

/-- Results are for the host, whether they come from the cache or not. -/
theorem getAddressesForHost_named {now : Nat → UInt64}
    {getaddrinfo : Bytes → UInt16 → Option (List AddrInfo)} {stamp : UInt64} {host : Bytes} {port : UInt16}
    {cache : List HostInfo} {address : HostInfo}
    (listed : address ∈ (getAddressesForHost now getaddrinfo stamp host port cache).1) :
    address.url = host := by
  unfold getAddressesForHost at listed
  simp only at listed
  split at listed
  · exact (getCachedResults_found listed).2.1
  · split at listed
    · cases listed
    · split at listed
      · cases listed
      · rename_i first
        rw [List.mem_singleton.mp listed]
        exact Worker.firstAddress_url first

/-- What the system answers in the steps of a task. -/
structure Answers where
  now : Nat → UInt64
  getaddrinfo : Bytes → UInt16 → Option (List AddrInfo)
  stamp : UInt64
  sockFd : Option Fd
  /-- What comes of the address that so many others stand behind. -/
  connect : Nat → ConnectResult
  written : WriteResult
  garbage : Bytes

namespace Answers

variable (answers : Answers)

def input : Pc → Input
  | .lookupHost _ _ => .clock answers.now
  | .resolve _ _ => .resolver answers.getaddrinfo answers.stamp
  | .socket _ => .socket answers.sockFd
  | .connect _ (_ :: rest) => .network (fun _ _ => answers.connect rest.length)
  | .clearCache => .freed answers.garbage
  | .resend _ => .write answers.written
  | _ => .none

/-- The `::connect` call of the step at a point. -/
def attempted : Pc → List (Fd × HostInfo)
  | .connect sockFd (address :: rest) =>
    if address.url = sinkhole ∨ answers.connect rest.length = .unconvertible then []
    else [(sockFd, address)]
  | _ => []

def outcomes : List HostInfo → List (HostInfo × ConnectResult)
  | [] => []
  | address :: rest => (address, answers.connect rest.length) :: outcomes rest

/-- `GetAddressesForHost` with these answers. -/
def getAddressesForHost (host : Bytes) (port : UInt16) (cache : List HostInfo) :
    List HostInfo × List HostInfo :=
  Connector.getAddressesForHost answers.now answers.getaddrinfo answers.stamp host port cache

/-- A task with the calls of `::connect` it makes, where nobody else touches the state; `none` when it
does not end in that many steps. -/
def traceTask (sessionId : Nat) : Nat → Pc → State → Option (List (Fd × HostInfo) × State)
  | 0, _, _ => none
  | turns + 1, pc, state =>
    match Worker.step ⟨sessionId, pc⟩ (answers.input pc) state with
    | none => none
    | some (final, none) => some ([], final)
    | some (next, some after) =>
      (traceTask sessionId turns after next).map (fun run => (answers.attempted pc ++ run.1, run.2))

theorem outcomes_named {host : Bytes} {addresses : List HostInfo}
    (named : ∀ address ∈ addresses, address.url = host) :
    ∀ outcome ∈ answers.outcomes addresses, outcome.1.url = host := by
  induction addresses with
  | nil => simp [outcomes]
  | cons address rest inductionHypothesis =>
    obtain ⟨here, later⟩ := List.forall_mem_cons.mp named
    exact List.forall_mem_cons.mpr ⟨here, inductionHypothesis later⟩

end Answers

/-- The test of the loop: the name that was resolved is compared, not the address. -/
def namedSinkhole (address : HostInfo) : Bool := address.url == sinkhole

def isSinkhole (address : HostInfo) : Bool := address.address == sinkhole

section

variable {answers : Answers} {sessionId : Nat} {session : Session} {state : State}

theorem traceTask_giveUp (found : state.getSession sessionId = some session) (turns : Nat) :
    answers.traceTask sessionId (turns + 2) .giveUp state = some ([],
      { sendErrorResponse sessionId state with cache := clearCacheForHost session.hostUrl state.cache }) := by
  have still : (sendErrorResponse sessionId state).getSession sessionId = some session := found
  simp only [Answers.traceTask, Answers.input, Worker.step, still]
  rfl

theorem traceTask_resend (answers : Answers) (found : state.getSession sessionId = some session)
    (sockFd : Fd) (turns : Nat) :
    ∃ final, answers.traceTask sessionId (turns + 3) (.resend sockFd) state = some ([], final) ∧
      final.pipe = state.pipe ++ [.hostConnectResult sessionId sockFd true] ∧
      final.cache = state.cache := by
  cases transparent : session.transparent with
  | true =>
    have still : (state.resend sockFd (answers.written.accepted session.request)).getSession sessionId =
        some session := found
    refine ⟨sendResponse sockFd sessionId true
      (state.resend sockFd (answers.written.accepted session.request)), ?_, rfl, rfl⟩
    simp only [Answers.traceTask, Answers.input, Worker.step, found, transparent, still, if_true]
    rfl
  | false =>
    have still : (state.respond session.clientFd okResponse).getSession sessionId = some session := found
    refine ⟨sendResponse sockFd sessionId true (state.respond session.clientFd okResponse), ?_, rfl, rfl⟩
    simp only [Answers.traceTask, Answers.input, Worker.step, found, transparent, still, Bool.false_eq_true,
      if_false]
    rfl

/-- The reply on a socket, or on none. -/
def reply (sessionId : Nat) : Option Fd → Message
  | some sockFd => .hostConnectResult sessionId sockFd true
  | none => .hostConnectResult sessionId (-1) false

/-- The loop over the addresses, and what follows it. -/
theorem traceTask_connect (answers : Answers) (found : state.getSession sessionId = some session)
    (sockFd : Fd) (addresses : List HostInfo) (turns : Nat) :
    ∃ final,
      answers.traceTask sessionId (turns + (addresses.length + 3)) (.connect sockFd addresses) state =
        some ((attempts namedSinkhole (answers.outcomes addresses)).map (Prod.mk sockFd), final) ∧
      ((answers.outcomes addresses).any (connects namedSinkhole) = true →
        final.pipe = state.pipe ++ [reply sessionId (some sockFd)] ∧ final.cache = state.cache) ∧
      ((answers.outcomes addresses).any (connects namedSinkhole) = false →
        final.pipe = state.pipe ++ [reply sessionId none] ∧
        final.cache = clearCacheForHost session.hostUrl state.cache) := by
  induction addresses with
  | nil =>
    refine ⟨{ sendErrorResponse sessionId state with
      cache := clearCacheForHost session.hostUrl state.cache }, ?_, ?_, fun _ => ⟨rfl, rfl⟩⟩
    · change answers.traceTask sessionId (turns + 2 + 1) _ state = _
      rw [Answers.traceTask]
      simp only [Answers.input, Worker.step, traceTask_giveUp found]
      rfl
    · intro connected
      cases connected
  | cons address rest inductionHypothesis =>
    obtain ⟨final, ends, success, failure⟩ := inductionHypothesis
    change ∃ final, answers.traceTask sessionId (turns + (rest.length + 3) + 1) _ state = _ ∧ _
    rw [Answers.traceTask]
    simp only [Answers.input, Worker.step, found, Answers.attempted]
    by_cases named : address.url = sinkhole
    · have left : namedSinkhole address = true := by simp [namedSinkhole, named]
      refine ⟨final, ?_, ?_, ?_⟩
      · simp only [named, if_true, true_or, ends]
        rw [Answers.outcomes, attempts_skip (.inl left)]
        rfl
      · simpa [Answers.outcomes, connects, left] using success
      · simpa [Answers.outcomes, connects, left] using failure
    · have kept : namedSinkhole address = false := by simp [namedSinkhole, named]
      cases result : answers.connect rest.length with
      | unconvertible =>
        refine ⟨final, ?_, ?_, ?_⟩
        · simp only [named, if_false, or_true, if_true, ends]
          rw [Answers.outcomes, attempts_skip (.inr result)]
          rfl
        · simpa [Answers.outcomes, connects, result] using success
        · simpa [Answers.outcomes, connects, result] using failure
      | refused =>
        refine ⟨final, ?_, ?_, ?_⟩
        · simp only [named, if_false, ends]
          rw [Answers.outcomes, result, attempts_refused kept]
          rfl
        · simpa [Answers.outcomes, connects, result] using success
        · simpa [Answers.outcomes, connects, result] using failure
      | connected =>
        obtain ⟨last, finishes, written, unchanged⟩ :=
          traceTask_resend answers found sockFd (turns + rest.length)
        refine ⟨last, ?_, fun _ => ⟨written, unchanged⟩, fun none_ => ?_⟩
        · simp only [named, if_false]
          rw [← Nat.add_assoc turns, finishes, Answers.outcomes, result, attempts_connected kept]
          rfl
        · rw [Answers.outcomes, result, List.any_cons] at none_
          simp [connects, kept] at none_

/-- Where the task goes with what the resolver has found. -/
def entry : List HostInfo → Pc
  | [] => .abort
  | addresses => .socket addresses

/-- Up to the socket, the task only looks its host up. -/
theorem traceTask_lookup (answers : Answers) (found : state.getSession sessionId = some session)
    (turns : Nat) :
    ∃ left, turns ≤ left ∧ answers.traceTask sessionId (turns + 4) .connectorEnter state =
      answers.traceTask sessionId left
        (entry (answers.getAddressesForHost session.hostUrl session.port state.cache).1)
        { state with cache := (answers.getAddressesForHost session.hostUrl session.port state.cache).2 } := by
  have unprefixed : ∀ run : Option (List (Fd × HostInfo) × State),
      run.map (fun run => ([] ++ run.1, run.2)) = run := fun run => by cases run <;> rfl
  unfold Answers.getAddressesForHost getAddressesForHost
  generalize looked : getCachedResults answers.now session.hostUrl state.cache = lookup
  obtain ⟨results, cache⟩ := lookup
  simp only [Answers.traceTask, Answers.input, Worker.step, found, looked, Answers.attempted, unprefixed]
  cases results with
  | cons address rest =>
    simp only [List.length_cons, Nat.zero_lt_succ, gt_iff_lt, if_true, entry]
    exact ⟨turns + 2, by omega, rfl⟩
  | nil =>
    simp only [List.length_nil, gt_iff_lt, Nat.lt_irrefl, if_false]
    cases resolved : answers.getaddrinfo session.hostUrl session.port with
    | none =>
      simp only [entry]
      exact ⟨turns + 1, by omega, rfl⟩
    | some listed =>
      cases first : firstAddress session.hostUrl listed answers.stamp with
      | none =>
        simp only [first, entry]
        exact ⟨turns + 1, by omega, rfl⟩
      | some address =>
        simp only [first, entry, unprefixed]
        exact ⟨turns, le_refl turns, rfl⟩

/-- What the connector is for: the addresses other than `0.0.0.0` are tried in their order until one
connects, one reply says how that went, and addresses that all failed are forgotten. -/
structure TriesInOrder (answers : Answers) (sessionId : Nat) (host : Bytes) (state : State)
    (addresses looked : List HostInfo) (run : List (Fd × HostInfo) × State) : Prop where
  attempted : run.1 = answers.sockFd.toList.flatMap
    (fun sockFd => (attempts isSinkhole (answers.outcomes addresses)).map (Prod.mk sockFd))
  replied : run.2.pipe = state.pipe ++ [reply sessionId
    (if (answers.outcomes addresses).any (connects isSinkhole) then answers.sockFd else none)]
  purged : addresses ≠ [] → answers.sockFd ≠ none →
    (answers.outcomes addresses).any (connects isSinkhole) = false →
    run.2.cache = looked.filter (fun entry => entry.url != host)

/-- Without addresses or without a socket the task only sends its reply. -/
theorem triesInOrder_abort {addresses looked : List HostInfo} (host : Bytes)
    (missing : addresses = [] ∨ answers.sockFd = none) :
    TriesInOrder answers sessionId host state addresses looked
      ([], sendErrorResponse sessionId { state with cache := looked }) := by
  rcases missing with rfl | noSocket
  · refine ⟨?_, rfl, fun nonempty => absurd rfl nonempty⟩
    simp [Answers.outcomes, attempts]
  · refine ⟨by simp [noSocket], ?_, fun _ socket => absurd noSocket socket⟩
    simp [noSocket, reply, sendErrorResponse, sendResponse, State.writeMessage]

/-- What the loop has tried and written serves the purpose exactly if the two tests agree and the purge,
where there is one, purges all of the host. -/
theorem triesInOrder_loop_iff {host : Bytes} {sockFd : Fd} {addresses looked : List HostInfo} {final : State}
    (socket : answers.sockFd = some sockFd) (nonempty : addresses ≠ [])
    (named : ∀ address ∈ addresses, address.url = host)
    (success : (answers.outcomes addresses).any (connects namedSinkhole) = true →
      final.pipe = state.pipe ++ [reply sessionId (some sockFd)] ∧ final.cache = looked)
    (failure : (answers.outcomes addresses).any (connects namedSinkhole) = false →
      final.pipe = state.pipe ++ [reply sessionId none] ∧ final.cache = clearCacheForHost host looked) :
    TriesInOrder answers sessionId host state addresses looked
      ((attempts namedSinkhole (answers.outcomes addresses)).map (Prod.mk sockFd), final) ↔
      (∀ outcome ∈ through (connects isSinkhole) (answers.outcomes addresses),
        outcome.2 ≠ .unconvertible → (host = sinkhole ↔ outcome.1.address = sinkhole)) ∧
      ((answers.outcomes addresses).any (connects isSinkhole) = false →
        looked.IsChain (fun entry next => entry.url = host → next.url ≠ host)) := by
  have tests : (∀ outcome ∈ through (connects isSinkhole) (answers.outcomes addresses),
      outcome.2 ≠ .unconvertible → (host = sinkhole ↔ outcome.1.address = sinkhole)) ↔
      ∀ outcome ∈ through (connects isSinkhole) (answers.outcomes addresses),
        outcome.2 ≠ .unconvertible → namedSinkhole outcome.1 = isSinkhole outcome.1 := by
    refine forall₂_congr fun outcome member => ?_
    have url := answers.outcomes_named named outcome (mem_of_mem_through member)
    rw [namedSinkhole, isSinkhole, url, Bool.eq_iff_iff, beq_iff_eq, beq_iff_eq]
  have pairs : Function.Injective (fun address : HostInfo => (sockFd, address)) :=
    fun _ _ same => congrArg Prod.snd same
  rw [tests]
  constructor
  · intro inOrder
    have same := inOrder.attempted
    rw [socket] at same
    simp only [Option.toList_some, List.flatMap_cons, List.flatMap_nil, List.append_nil] at same
    have agree := attempts_eq_iff.mp (pairs.list_map same)
    refine ⟨agree, fun none_ => ?_⟩
    have purged := inOrder.purged nonempty (by simp [socket]) none_
    rw [← any_connects_congr agree] at none_
    rw [(failure none_).2] at purged
    exact (clearCacheForHost_iff host looked).mp purged
  · rintro ⟨agree, apart⟩
    have sameAnswer := any_connects_congr agree
    rw [sameAnswer] at success failure
    refine ⟨?_, ?_, fun _ _ none_ => ?_⟩
    · simp [socket, attempts_eq_iff.mpr agree]
    · cases answer : (answers.outcomes addresses).any (connects isSinkhole) with
      | true => simpa [socket] using (success answer).1
      | false => simpa using (failure answer).1
    · exact (failure none_).2.trans ((clearCacheForHost_iff host looked).mpr (apart none_))

/-- The task ends, and serves its purpose exactly if one of these holds: there is nothing to try, no
socket, or the addresses that convert, as far as the first other than `0.0.0.0` that connects, are
`0.0.0.0` just for a host of that name, and where none connects, no two entries of the host are
adjacent in the cache. -/
theorem triesInOrder_iff (found : state.getSession sessionId = some session)
    (unused : ∀ sockFd ∈ answers.sockFd, sockFd ∉ state.openFds) {host : Bytes}
    {addresses looked : List HostInfo} (named : session.hostUrl = host)
    (resolved : answers.getAddressesForHost host session.port state.cache = (addresses, looked))
    {turns : Nat} (enough : addresses.length + 8 ≤ turns) :
    (∃ run, answers.traceTask sessionId turns .connectorEnter state = some run ∧
      TriesInOrder answers sessionId host state addresses looked run) ↔
      addresses = [] ∨ answers.sockFd = none ∨
      ((∀ outcome ∈ through (connects isSinkhole) (answers.outcomes addresses),
          outcome.2 ≠ .unconvertible → (host = sinkhole ↔ outcome.1.address = sinkhole)) ∧
        ((answers.outcomes addresses).any (connects isSinkhole) = false →
          looked.IsChain (fun entry next => entry.url = host → next.url ≠ host))) := by
  subst named
  obtain ⟨left, within, looks⟩ := traceTask_lookup answers found (turns - 4)
  rw [Nat.sub_add_cancel (by omega), resolved] at looks
  rw [looks]
  obtain ⟨more, rfl⟩ : ∃ more, left = more + (addresses.length + 3) + 1 :=
    ⟨left - addresses.length - 4, by omega⟩
  by_cases nothing : addresses = []
  · subst nothing
    refine iff_of_true ⟨_, ?_, triesInOrder_abort session.hostUrl (.inl rfl)⟩ (.inl rfl)
    simp only [Answers.traceTask, entry, Answers.input, Worker.step]
  · have waits : entry addresses = .socket addresses := by
      cases addresses with
      | nil => exact absurd rfl nothing
      | cons address rest => rfl
    rw [waits]
    cases socket : answers.sockFd with
    | none =>
      refine iff_of_true ⟨_, ?_, triesInOrder_abort session.hostUrl (.inr socket)⟩ (.inr (.inl rfl))
      simp only [Answers.traceTask, Answers.input, Worker.step, socket, Option.map_some]
      rfl
    | some sockFd =>
      have still : ({ state with cache := looked, openFds := sockFd :: state.openFds } : State).getSession
          sessionId = some session := found
      obtain ⟨final, ends, success, failure⟩ :=
        traceTask_connect answers still sockFd addresses more
      have runs : answers.traceTask sessionId (more + (addresses.length + 3) + 1) (.socket addresses)
          { state with cache := looked } =
          some ((attempts namedSinkhole (answers.outcomes addresses)).map (Prod.mk sockFd), final) := by
        rw [Answers.traceTask]
        simp only [Answers.input, Worker.step, socket, unused sockFd socket, if_false, ends]
        rfl
      rw [runs]
      simp only [Option.some.injEq, exists_eq_left', nothing, false_or, reduceCtorEq]
      have listed : ∀ address ∈ addresses, address.url = session.hostUrl := by
        intro address member
        have delivered : address ∈
            (answers.getAddressesForHost session.hostUrl session.port state.cache).1 := by
          rw [resolved]
          exact member
        exact getAddressesForHost_named delivered
      exact triesInOrder_loop_iff socket nothing listed success failure

end

/-- The resolver finds one address, which refuses the connection. -/
def oneAddress (address : Bytes) : Answers where
  now _ := 0
  getaddrinfo _ _ := some [⟨true, address⟩]
  stamp := 0
  sockFd := some 7
  connect _ := .refused
  written := .accepts 0
  garbage := []

/-- A session for the origin "a.com", whose connector is about to begin. -/
def oneConnector : State :=
  { sessions := ⟨1, [(Session.make ⟨false, 0, 0, 0⟩ 5 0 0).setHost (bytes "a.com")]⟩, sockets := []
    pipe := [], queue := [], workers := [⟨0, .connectorEnter⟩], cache := [], stats := ⟨[], 0⟩
    openFds := [5], closed := [], responses := [], resent := [] }

/-- An origin that refuses its connection. -/
theorem triesInOrder_refused :
    ∃ run, (oneAddress (bytes "10.0.0.9")).traceTask 0 9 .connectorEnter oneConnector = some run ∧
      run.1 = [(7, ⟨bytes "a.com", bytes "10.0.0.9", 4, 0⟩)] ∧ run.2.cache = [] := by
  have found : oneConnector.getSession 0 =
      some ((Session.make ⟨false, 0, 0, 0⟩ 5 0 0).setHost (bytes "a.com")) := rfl
  have unused : ∀ sockFd ∈ (oneAddress (bytes "10.0.0.9")).sockFd, sockFd ∉ oneConnector.openFds := by
    rintro sockFd ⟨⟩
    decide
  have enough : 1 + 8 ≤ 9 := by decide
  obtain ⟨run, ends, inOrder⟩ := (triesInOrder_iff found unused rfl rfl enough).mpr
    (.inr (.inr ⟨by decide, by decide⟩))
  refine ⟨run, ends, inOrder.attempted.trans (by decide), ?_⟩
  exact (inOrder.purged (by decide) (by decide) (by decide)).trans (by decide)

/-- What a filtering resolver answers is tried. -/
theorem sinkhole_tried :
    ¬ ∀ (answers : Answers) (state : State) (sessionId : Nat) (session : Session),
      state.getSession sessionId = some session →
      (∀ sockFd ∈ answers.sockFd, sockFd ∉ state.openFds) →
      let (addresses, looked) := answers.getAddressesForHost session.hostUrl session.port state.cache
      ∀ turns, addresses.length + 8 ≤ turns →
        ∃ run, answers.traceTask sessionId turns .connectorEnter state = some run ∧
          TriesInOrder answers sessionId session.hostUrl state addresses looked run := by
  intro claim
  have unused : ∀ sockFd ∈ (oneAddress sinkhole).sockFd, sockFd ∉ oneConnector.openFds := by
    rintro sockFd ⟨⟩
    decide
  obtain ⟨run, ends, inOrder⟩ := claim (oneAddress sinkhole) oneConnector 0 _ rfl unused 9 (by decide)
  have tried : ((oneAddress sinkhole).traceTask 0 9 .connectorEnter oneConnector).map Prod.fst =
      some [(7, ⟨bytes "a.com", sinkhole, 4, 0⟩)] := by decide
  rw [ends, Option.map_some, inOrder.attempted] at tried
  exact absurd tried (by decide)

end Connector

end NermalProxy
