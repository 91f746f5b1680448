import NermalProxy.AuditTable
import NermalProxy.ByteCount
import NermalProxy.Transcript

/-! # What the audit table charges

The table is a report on the sessions that have ended, and their counters are what the relay
moved.  Together: a row charges its user exactly the bytes of the streams of those sessions,
as long as the steps count right. -/

namespace NermalProxy

open NermalProxy.CString NermalProxy.KeyedList NermalProxy.Config NermalProxy.Transition
  NermalProxy.Relay AuditHistory

def Usage.counters (usage : Usage) : Nat × UInt64 × UInt64 :=
  (usage.sessionId, usage.rxBytes, usage.txBytes)

namespace AuditState

variable {state next : AuditState} {calls longer : AuditHistory}

/-- One more call, with the state it was made in. -/
def Records (before after : AuditHistory × AuditState) : Prop :=
  ∃ call : SessionCall, after = (before.1 ++ [(before.2, .call call)], before.2.call call)

theorem records_booked (records : Relation.ReflTransGen Records (calls, state) (longer, next))
    (booked : Booked calls state) : Booked longer next := by
  suffices all : ∀ before after, Relation.ReflTransGen Records before after →
      Booked before.1 before.2 → Booked after.1 after.2 from all _ _ records booked
  intro before after records booked
  induction records with
  | refl => exact booked
  | tail earlier last inductionHypothesis =>
    obtain ⟨call, rfl⟩ := last
    exact booked_step inductionHypothesis

/-- A usage has the counters of the session that ends. -/
theorem usage_counters {action : AuditAction} {usage : Usage} (used : state.usage action = some usage) :
    usage.counters ∈ state.sessions.counters := by
  cases action with
  | setEnabled | setAudit => cases used
  | call call =>
    cases call with
    | endSession sessionId now =>
      simp only [AuditState.usage] at used
      split at used
      · cases used
      · rename_i session found
        split at used
        · cases used
          exact List.mem_map_of_mem (f := Session.counters) (SessionManager.mem_of_getSession found)
        · cases used
    | _ => cases used

/-- Quiet calls, with what they end: sessions whose counters are as they were before. -/
theorem performs_records (performs : Performs SessionCall.IsQuiet state next) (calls : AuditHistory) :
    ∃ longer, Relation.ReflTransGen Records (calls, state) (longer, next) ∧
      ∀ usage ∈ usages longer, usage ∈ usages calls ∨ usage.counters ∈ state.sessions.counters := by
  induction performs with
  | refl => exact ⟨calls, .refl, fun usage member => .inl member⟩
  | @tail middle next earlier last inductionHypothesis =>
    obtain ⟨call, quiet, rfl⟩ := last
    obtain ⟨longer, records, ended⟩ := inductionHypothesis
    refine ⟨longer ++ [(middle, .call call)], records.tail ⟨call, rfl⟩, fun usage member => ?_⟩
    rw [usages_snoc, List.mem_append, Option.mem_toList] at member
    rcases member with older | used
    · exact ended usage older
    · exact .inr ((performs_keepsCounters earlier).counters.subset (usage_counters used))

end AuditState

namespace State

variable {state next : State} {settings : Settings} {history : History} {action : Action}
  {calls longer : AuditHistory}

/-- The calls that the steps of a run make. -/
inductive Makes (settings : Settings) : History → AuditHistory → State → Prop
  | start {state : State} (initially : state.Initial) : Makes settings [] [] state
  | snoc {history : History} {calls longer : AuditHistory} {state next : State} {action : Action}
      (earlier : Makes settings history calls state) (stepped : state.step settings action = some next)
      (records : Relation.ReflTransGen AuditState.Records (calls, state.audit settings)
        (longer, next.audit settings)) : Makes settings (history ++ [(state, action)]) longer next

/-! ## One step -/

/-- A session that is gone is moved nothing for. -/
theorem accepted_gone (stepped : state.step settings action = some next) {sessionId : Nat}
    (gone : sessionId ∉ state.sessions.ids) (isClientToProxy : Bool) :
    state.accepted sessionId isClientToProxy action = 0 := by
  cases step_counting stepped with
  | quiet kept silent right => exact silent sessionId isClientToProxy
  | created isAccept =>
    subst isAccept
    rfl
  | relayed isRelay search outcome found =>
    have live := SessionManager.mem_ids_iff.mpr ⟨_, found⟩
    rw [isRelay, accepted_relayed search outcome, if_neg]
    rintro ⟨rfl, -⟩
    exact gone live

/-- The calls of a step; one that ends a session moves nothing. -/
theorem step_records (stepped : state.step settings action = some next) (calls : AuditHistory) :
    ∃ longer, Relation.ReflTransGen AuditState.Records (calls, state.audit settings)
        (longer, next.audit settings) ∧
      ∀ usage ∈ usages longer, usage ∈ usages calls ∨
        (usage.counters ∈ state.sessions.counters ∧
          ∀ sessionId towards, state.accepted sessionId towards action = 0) := by
  have quiet : Quietly settings state next →
      (∀ sessionId towards, state.accepted sessionId towards action = 0) →
      ∃ longer, Relation.ReflTransGen AuditState.Records (calls, state.audit settings)
          (longer, next.audit settings) ∧
        ∀ usage ∈ usages longer, usage ∈ usages calls ∨
          (usage.counters ∈ state.sessions.counters ∧
            ∀ sessionId towards, state.accepted sessionId towards action = 0) := by
    intro quietly still
    obtain ⟨longer, records, ended⟩ := AuditState.performs_records quietly calls
    exact ⟨longer, records, fun usage member => (ended usage member).imp_right fun live => ⟨live, still⟩⟩
  have endless : ∀ (before : AuditState) (made : AuditHistory) (call : SessionCall),
      before.usage (.call call) = none → usages (made ++ [(before, .call call)]) = usages made := by
    intro before made call unused
    rw [usages_snoc, unused, Option.toList_none, List.append_nil]
  cases step_calls stepped with
  | command quietly | timeout quietly | take quietly | work quietly => exact quiet quietly (fun _ _ => rfl)
  | teardown search outcome quietly =>
    refine quiet quietly (fun sessionId towards => ?_)
    simp [accepted, search, outcome, Relay.Outcome.sent]
  | @accepted storage now clientFd clientIp named called =>
    rw [called]
    refine ⟨_, (Relation.ReflTransGen.single ⟨.createSession storage clientFd now, rfl⟩).tail
      ⟨.update named (.setClientAddress clientIp), rfl⟩, fun usage member => .inl ?_⟩
    rwa [endless _ _ _ rfl, endless _ _ _ rfl] at member
  | @relayed _ _ _ _ _ socket _ numRead numWritten _ session search outcome found called =>
    rw [called]
    refine ⟨_, Relation.ReflTransGen.single
      ⟨.update socket.sessionId (countSetter socket numRead numWritten), rfl⟩, fun usage member => .inl ?_⟩
    rwa [endless _ _ _ rfl] at member

/-- The counters of a usage are what was moved for its session, in each direction. -/
def Measured (history : History) (usage : Usage) : Prop :=
  usage.rxBytes = UInt64.ofNat (totalAccepted usage.sessionId true history) ∧
    usage.txBytes = UInt64.ofNat (totalAccepted usage.sessionId false history)

/-- What holds of the calls of a run whose steps count right. -/
structure Billed (history : History) (calls : AuditHistory) (audit : AuditState) : Prop where
  booked : AuditState.Booked calls audit
  measured : ∀ usage ∈ usages calls, Measured history usage

theorem step_billed (accounted : Accounted history state) (stepped : state.step settings action = some next)
    (billed : Billed history calls (state.audit settings)) :
    ∃ longer, Relation.ReflTransGen AuditState.Records (calls, state.audit settings)
        (longer, next.audit settings) ∧
      Billed (history ++ [(state, action)]) longer (next.audit settings) := by
  obtain ⟨longer, records, ended⟩ := step_records stepped calls
  refine ⟨longer, records, AuditState.records_booked records billed.booked, fun usage member => ?_⟩
  simp only [Measured, totalAccepted_snoc]
  rcases ended usage member with older | ⟨live, still⟩
  · have gone : usage.sessionId ∉ state.sessions.ids := (billed.booked.past usage older).2
    rw [accepted_gone stepped gone, accepted_gone stepped gone]
    exact billed.measured usage older
  · rw [still, still]
    exact accounted_iff.mp accounted _ live

/-- The bytes that a taken step moves are those it counts. -/
theorem part_length (stepped : state.step settings action = some next) (sessionId : Nat)
    (isClientToProxy : Bool) :
    (((move (state, action)).map
        (fun moved => (Writing.ofMove moved).part sessionId isClientToProxy)).getD []).length =
      state.accepted sessionId isClientToProxy action := by
  cases action with
  | relay fd now memory reads writes =>
    simp only [step] at stepped
    split at stepped
    · rename_i socket search
      cases SocketManager.relayEnds_of_handled stepped with
      | teardown outcome => simp [move, accepted, search, outcome, Relay.Outcome.sent]
      | @relayed after numRead numWritten transfer session outcome found =>
        rw [accepted_relayed search outcome]
        simp only [move, search, outcome, Option.map_some, Option.getD_some, Writing.part, Writing.ofMove,
          clientEnd_sessionId]
        split <;> rfl
    · cases stepped
  | _ => rfl

/-! ## Every run -/

theorem run_relayed_length {allowed : State → Action → Prop} (run : Run (proxySystem settings) allowed history state)
    (sessionId : Nat) (isClientToProxy : Bool) :
    (relayed sessionId isClientToProxy history).length = totalAccepted sessionId isClientToProxy history := by
  apply run.historyInvariant (fun history _ =>
    (relayed sessionId isClientToProxy history).length = totalAccepted sessionId isClientToProxy history)
  · exact fun _ _ => rfl
  · intro history state action next earlier same permitted stepped
    rw [relayed_snoc, List.length_append, totalAccepted_snoc, same, part_length stepped]

theorem run_accounted (run : Run (proxySystem settings) CountsRight history state) :
    Numbered history state ∧ Accounted history state := by
  apply run.historyInvariant (fun history state => Numbered history state ∧ Accounted history state)
  · rintro state ⟨serverFd, commandFd, openFds, now, -, -, -, rfl⟩
    refine ⟨⟨List.nodup_nil, ?_, fun _ _ _ => rfl⟩, ?_⟩
    · intro entry member
      cases member
    · intro session member
      cases member
  · rintro history state action next - ⟨numbered, accounted⟩ right stepped
    have counting := step_counting stepped
    exact ⟨numbered_step numbered counting, accounted_step numbered accounted counting right⟩

theorem run_billed (run : Run (proxySystem settings) CountsRight history state) :
    ∃ calls, Makes settings history calls state ∧ Billed history calls (state.audit settings) := by
  apply run.historyInvariant
    (fun history state => ∃ calls, Makes settings history calls state ∧ Billed history calls (state.audit settings))
  · intro state initial
    refine ⟨[], .start initial, ?_⟩
    obtain ⟨serverFd, commandFd, openFds, now, -, -, -, rfl⟩ := initial
    refine ⟨AuditState.booked_initial ⟨rfl, rfl⟩, fun usage member => ?_⟩
    cases member
  · rintro history state action next earlier ⟨calls, makes, billed⟩ right stepped
    obtain ⟨longer, records, stillBilled⟩ := step_billed (run_accounted earlier).2 stepped billed
    exact ⟨longer, makes.snoc stepped records, stillBilled⟩

/-- The bytes that a run has moved in a direction for these sessions, modulo 2^64. -/
def charge (isClientToProxy : Bool) (history : History) (own : Multiset Usage) : UInt64 :=
  UInt64.ofNat (own.map (fun usage => (relayed usage.sessionId isClientToProxy history).length)).sum

theorem total_charge {counter : Usage → UInt64} {isClientToProxy : Bool} {own : Multiset Usage}
    (measured : ∀ usage ∈ own,
      counter usage = UInt64.ofNat (relayed usage.sessionId isClientToProxy history).length) :
    Usage.total counter own = charge isClientToProxy history own := by
  induction own using Multiset.induction_on with
  | empty => rfl
  | cons usage own inductionHypothesis =>
    have others := inductionHypothesis (fun other member => measured other (Multiset.mem_cons_of_mem member))
    rw [Usage.total_cons, others, measured usage (Multiset.mem_cons_self ..), charge, charge,
      Multiset.map_cons, Multiset.sum_cons, UInt64.ofNat_add, UInt64.add_comm]

/-- In every run whose steps count right, the row of a user and a host is on the audited sessions of
theirs that have ended since the last log: how many they were, and, modulo 2^64, exactly the bytes that
the relay has moved for them in each direction; and none of these sessions is in it twice or still to
be moved for. -/
theorem audit_amounts (run : Run (proxySystem settings) CountsRight history state) :
    ∃ calls, Makes settings history calls state ∧ ((usages calls).map Usage.sessionId).Nodup ∧
      (∀ usage ∈ usages calls, usage.sessionId ∉ state.sessions.ids) ∧
      ∀ userName host, ∃ own : Multiset Usage,
        own = (usages (sinceReset calls) : Multiset Usage).filter (Usage.IsOf userName host) ∧
        state.stats.siteStats userName host =
          if own = 0 then none
          else some
            { hostName := host
              rxBytes := charge true history own
              txBytes := charge false history own
              totalTime := Usage.total Usage.duration own
              connections := own.card } := by
  obtain ⟨calls, makes, billed⟩ := run_billed run
  refine ⟨calls, makes, billed.booked.once, fun usage member => (billed.booked.past usage member).2,
    fun userName host => ⟨_, rfl, ?_⟩⟩
  have measured : ∀ usage ∈ (usages (sinceReset calls) : Multiset Usage).filter (Usage.IsOf userName host),
      Measured history usage := by
    intro usage member
    have inPeriod : usage ∈ usages (sinceReset calls) := Multiset.mem_coe.mp (Multiset.mem_of_mem_filter member)
    have suffix : sinceReset calls <:+ calls := List.rtakeWhile_suffix _ _
    exact billed.measured usage ((suffix.filterMap _).subset inPeriod)
  rw [show state.stats.siteStats userName host = _ from billed.booked.table userName host, Usage.report]
  rw [total_charge (fun usage member => ?_), total_charge (fun usage member => ?_)]
  · rw [run_relayed_length run]
    exact (measured usage member).2
  · rw [run_relayed_length run]
    exact (measured usage member).1

/-- A user whose client sends five bytes through a tunnel and is gone. -/
theorem audit_amounts_hello : ∃ (settings : Settings) (history : History) (state : State)
    (calls : AuditHistory), Makes settings history calls state ∧
    state.stats.siteStats (bytes "bob") (bytes "example.com") = some ⟨bytes "example.com", 5, 0, 4, 1⟩ ∧
    ∃ own : Multiset Usage, own.card = 1 ∧ charge true history own = 5 := by
  let settings : Settings :=
    ⟨10080, true, [], [((User.make (bytes "bob") (bytes "pw")).addIp (bytes "10.0.0.2")).setAudit true], []⟩
  let actions := serve 5 6 (bytes "10.0.0.2") (bytes "CONNECT example.com:443 HTTP/1.1\r\n\r\n")
      (some ⟨0, 12, 0⟩) .connected ++ register ++
    [.relay 5 11 (fun _ => 0) [.data (bytes "hello")] [.accepts 2, .accepts 3],
      .relay 5 11 (fun _ => 0) [.endOfStream] [], .relay 5 11 (fun _ => 0) [] []]
  have executed : ∃ history state,
      runActions (State.step settings) [] (initial 3 4 [3, 4] 0) actions = some (history, state) ∧
      state.stats.siteStats (bytes "bob") (bytes "example.com") =
        some ⟨bytes "example.com", 5, 0, 4, 1⟩ := ⟨_, _, rfl, by decide⟩
  obtain ⟨history, state, executed, row⟩ := executed
  have right : ∀ action ∈ actions, ∀ state, CountsRight state action := by
    simp [actions, serve, register, CountsRight, ReadResult.toSize, ClientSocket.completes, bytes]
  have run : Run (proxySystem settings) CountsRight history state :=
    run_of_runActions (.start initially) right executed
  obtain ⟨calls, makes, -, -, rows⟩ := audit_amounts run
  obtain ⟨own, -, isRow⟩ := rows (bytes "bob") (bytes "example.com")
  refine ⟨settings, history, state, calls, makes, row, own, ?_⟩
  rw [row] at isRow
  split at isRow
  · cases isRow
  · obtain ⟨-, rx, -, -, connections⟩ := SiteStats.mk.inj (Option.some.inj isRow)
    exact ⟨connections.symm, rx.symm⟩

end State

end NermalProxy
