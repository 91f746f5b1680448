import NermalProxy.Progress

/-! # Where the addresses come from

The workers share one table of addresses.  Whatever the interleaving, a connector only has
addresses that the resolver has given for exactly its host: for its own session, or for
another one and found in the table while still young. -/

namespace NermalProxy

open NermalProxy.CString NermalProxy.KeyedList NermalProxy.Config NermalProxy.HostInfoCache
  NermalProxy.Transition

/-- The addresses that a connector has got. -/
def Pc.addresses : Pc → List HostInfo
  | .store entry => [entry]
  | .socket addresses => addresses
  | .connect _ addresses => addresses
  | _ => []

/-- In the run `getaddrinfo` was called with exactly the host of the entry, on behalf of this session,
and the entry is its first IPv4 result, stamped then. -/
def ResolvedFor (history : History) (sessionId : Nat) (entry : HostInfo) : Prop :=
  ∃ earlier index port getaddrinfo now results,
    (earlier, Action.work index (.resolver getaddrinfo now)) ∈ history ∧
    earlier.workers[index]? = some ⟨sessionId, .resolve entry.url port⟩ ∧
    getaddrinfo entry.url port = some results ∧ firstAddress entry.url results now = some entry

def Resolved (history : History) (entry : HostInfo) : Prop :=
  ∃ sessionId, ResolvedFor history sessionId entry

/-- In the run a lookup of exactly this host on behalf of this session found the entry in the table,
no older than `maxAge` at a reading of the lookup's clock. -/
def LookedUp (history : History) (sessionId : Nat) (entry : HostInfo) : Prop :=
  ∃ earlier index port now,
    (earlier, Action.work index (.clock now)) ∈ history ∧
    earlier.workers[index]? = some ⟨sessionId, .lookupHost entry.url port⟩ ∧
    entry ∈ earlier.cache ∧ ∃ turn < earlier.cache.length, now turn - entry.timestamp ≤ maxAge

/-- How a connector has got an address. -/
structure Known (history : History) (sessionId : Nat) (entry : HostInfo) : Prop where
  resolved : Resolved history entry
  got : ResolvedFor history sessionId entry ∨ LookedUp history sessionId entry

section Longer

variable {history : History} {sessionId : Nat} {entry : HostInfo}

theorem ResolvedFor.snoc (resolved : ResolvedFor history sessionId entry) (last : State × Action) :
    ResolvedFor (history ++ [last]) sessionId entry := by
  obtain ⟨earlier, index, port, getaddrinfo, now, results, member, given⟩ := resolved
  exact ⟨earlier, index, port, getaddrinfo, now, results, List.mem_append_left _ member, given⟩

theorem Resolved.snoc (resolved : Resolved history entry) (last : State × Action) :
    Resolved (history ++ [last]) entry :=
  resolved.imp fun _ resolvedFor => resolvedFor.snoc last

theorem LookedUp.snoc (lookedUp : LookedUp history sessionId entry) (last : State × Action) :
    LookedUp (history ++ [last]) sessionId entry := by
  obtain ⟨earlier, index, port, now, member, found⟩ := lookedUp
  exact ⟨earlier, index, port, now, List.mem_append_left _ member, found⟩

theorem Known.snoc (known : Known history sessionId entry) (last : State × Action) :
    Known (history ++ [last]) sessionId entry :=
  ⟨known.resolved.snoc last, known.got.imp (·.snoc last) (·.snoc last)⟩

end Longer

namespace State

variable {state next : State} {settings : Settings} {history : History} {action : Action}

/-! ## One step of a worker -/

theorem resolved_of_step {sessionId index : Nat} {host : Bytes} {port : UInt16}
    {getaddrinfo : Bytes → UInt16 → Option (List AddrInfo)} {now : UInt64} {entry : HostInfo}
    (at_ : state.workers[index]? = some ⟨sessionId, .resolve host port⟩)
    (stepped : Worker.step ⟨sessionId, .resolve host port⟩ (.resolver getaddrinfo now) state =
      some (next, some (.store entry))) :
    ResolvedFor (history ++ [(state, .work index (.resolver getaddrinfo now))]) sessionId entry := by
  simp only [Worker.step] at stepped
  split at stepped
  · cases stepped
  · rename_i results given
    split at stepped
    · cases stepped
    · rename_i first
      cases stepped
      obtain rfl := Worker.firstAddress_url first
      exact ⟨state, index, port, getaddrinfo, now, results, by simp, at_, given, first⟩

/-- What all who use the addresses rely on. -/
structure AddressesKnown (history : History) (state : State) : Prop where
  table : ∀ entry ∈ state.cache, Resolved history entry
  workers : ∀ worker ∈ state.workers, ∀ entry ∈ worker.pc.addresses,
    Known history worker.sessionId entry

theorem AddressesKnown.worked (known : AddressesKnown history state) {index : Nat} {worker : Worker}
    (at_ : state.workers[index]? = some worker) {input : Input} {after : Option Pc}
    (stepped : worker.step input state = some (next, after)) :
    (∀ entry ∈ next.cache, Resolved (history ++ [(state, .work index input)]) entry) ∧
      ∀ pc ∈ after, ∀ entry ∈ pc.addresses,
        Known (history ++ [(state, .work index input)]) worker.sessionId entry := by
  have table : ∀ entry ∈ state.cache, Resolved (history ++ [(state, .work index input)]) entry :=
    fun entry member => (known.table entry member).snoc _
  have has : ∀ entry ∈ worker.pc.addresses,
      Known (history ++ [(state, .work index input)]) worker.sessionId entry :=
    fun entry member => (known.workers worker (List.mem_of_getElem? at_) entry member).snoc _
  have steps := Worker.steps_of_step stepped
  obtain ⟨sessionId, pc⟩ := worker
  cases steps with
  | @cached host port now =>
    refine ⟨fun entry member => table entry ?_, ?_⟩
    · exact (getCachedResults_onlyDrops now host state.cache).sublist.subset member
    · rintro pc ⟨⟩ entry isResult
      obtain ⟨inCache, rfl, young⟩ := getCachedResults_found isResult
      exact ⟨table entry inCache, .inr ⟨state, index, port, now, by simp, at_, inCache, young⟩⟩
  | @uncached host port now =>
    refine ⟨fun entry member => table entry ?_, by rintro pc ⟨⟩ entry ⟨⟩⟩
    exact (getCachedResults_onlyDrops now host state.cache).sublist.subset member
  | @resolved host port getaddrinfo now entry url =>
    refine ⟨table, ?_⟩
    rintro pc ⟨⟩ other (_ | ⟨_, ⟨⟩⟩)
    have resolved := @resolved_of_step _ _ history _ _ _ _ _ _ _ at_ stepped
    exact ⟨⟨sessionId, resolved⟩, .inl resolved⟩
  | @store entry =>
    have stored := has entry (List.mem_singleton_self _)
    refine ⟨fun other member => ?_, ?_⟩
    · rcases mem_addResult member with rfl | older
      · exact stored.resolved
      · exact table other older
    · rintro pc ⟨⟩ other (_ | ⟨_, ⟨⟩⟩)
      exact stored
  | socket unused => exact ⟨table, by rintro pc ⟨⟩ entry member; exact has entry member⟩
  | nextAddress => exact ⟨table, by rintro pc ⟨⟩ entry member; exact has entry (.tail _ member)⟩
  | @clearCache _ host =>
    refine ⟨fun entry member => table entry ?_, by rintro pc ⟨⟩⟩
    exact (clearCacheForHost_onlyDrops host state.cache).sublist.subset member
  | _ => exact ⟨table, by rintro pc ⟨⟩ entry ⟨⟩⟩

/-! ## Every run -/

theorem step_addressesKnown (known : AddressesKnown history state)
    (stepped : state.step settings action = some next) :
    AddressesKnown (history ++ [(state, action)]) next := by
  constructor
  · intro entry member
    rcases step_cache stepped with same | ⟨index, input, worker, shared, after, rfl, at_, worked, same⟩
    · rw [same] at member
      exact (known.table entry member).snoc _
    · rw [same] at member
      exact (known.worked at_ worked).1 entry member
  · intro worker member entry isAddress
    cases step_worked stepped member with
    | idle older => exact (known.workers worker older entry isAddress).snoc _
    | @took task => cases task <;> cases isAddress
    | moved isWork at_ worked =>
      subst isWork
      exact (known.worked at_ worked).2 _ rfl entry isAddress

theorem run_addressesKnown {allowed : State → Action → Prop}
    (run : Run (proxySystem settings) allowed history state) : AddressesKnown history state := by
  apply run.historyInvariant AddressesKnown
  · rintro state ⟨serverFd, commandFd, openFds, now, -, -, -, rfl⟩
    exact ⟨by rintro entry ⟨⟩, by rintro worker ⟨⟩⟩
  · exact fun history state action next _ known _ stepped => step_addressesKnown known stepped

/-- In every run, whatever the interleaving and the answers of the system: an address in the table was
the first IPv4 result of the resolver for exactly its host, and an address that a connector has was
resolved on behalf of its own session, or found by it in the table when it was young enough. -/
theorem addresses_known {allowed : State → Action → Prop}
    (run : Run (proxySystem settings) allowed history state) :
    (∀ entry ∈ state.cache, Resolved history entry) ∧
    ∀ worker ∈ state.workers, ∀ entry ∈ worker.pc.addresses, Resolved history entry ∧
      (ResolvedFor history worker.sessionId entry ∨ LookedUp history worker.sessionId entry) := by
  have known := run_addressesKnown run
  exact ⟨known.table, fun worker member entry isAddress =>
    ⟨(known.workers worker member entry isAddress).resolved,
      (known.workers worker member entry isAddress).got⟩⟩

/-- The first connector has nothing but what it has resolved itself. -/
theorem addresses_known_serve : ∃ (history : History) (state : State),
    state.cache = [⟨bytes "example.com", bytes "10.0.0.9", 4, 9⟩] ∧
    ∀ entry ∈ state.cache, Resolved history entry := by
  have executed : ∃ history state,
      runActions (State.step unrestricted) [] (initial 3 4 [3, 4] 0) connect = some (history, state) ∧
      state.cache = [⟨bytes "example.com", bytes "10.0.0.9", 4, 9⟩] := ⟨_, _, rfl, by decide⟩
  obtain ⟨history, state, executed, cache⟩ := executed
  exact ⟨history, state, cache, (addresses_known (run_of_executed registers_connect executed)).1⟩

end State

end NermalProxy
