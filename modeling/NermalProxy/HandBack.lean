import NermalProxy.Holders
import NermalProxy.Steps

/-! # Sessions that are handed back

A worker that has written its result message no longer owns its session.  The connector's
exit behind its loop over the addresses still reads the host of the session then; no
other exit touches the session again. -/

namespace NermalProxy

open NermalProxy.CString NermalProxy.KeyedList NermalProxy.Config NermalProxy.Transition

/-- A step that `accesses` does not count is the same for every list of sessions. -/
theorem Worker.step_ignores_sessions {worker : Worker} (idle : worker.accesses = false) (input : Input)
    (state : State) (sessions : SessionManager) :
    worker.step input { state with sessions } =
      (worker.step input state).map (fun (next, pc) => ({ next with sessions }, pc)) := by
  obtain ⟨sessionId, pc⟩ := worker
  cases pc with
  | read clientFd =>
    cases input with
    | read result beyond =>
      simp only [step]
      cases Detector.asyncDetector result beyond with
      | none => rfl
      | some detection => rfl
    | _ => rfl
  | detectReply success => cases input <;> rfl
  | lookupHost host port => cases input <;> rfl
  | resolve host port =>
    cases input with
    | resolver getaddrinfo now =>
      simp only [step]
      cases getaddrinfo host port with
      | none => rfl
      | some results =>
        cases found : firstAddress host results now with
        | none => simp [found]
        | some entry => simp [found]
    | _ => rfl
  | store entry => cases input <;> rfl
  | socket addresses =>
    cases input with
    | socket sockFd =>
      cases sockFd with
      | none => rfl
      | some sockFd =>
        simp only [step]
        split <;> rfl
    | _ => rfl
  | connect sockFd addresses =>
    cases addresses with
    | nil => cases input <;> rfl
    | cons address rest => cases idle
  | abort => cases input <;> rfl
  | giveUp => cases input <;> rfl
  | connectReply sockFd => cases input <;> rfl
  | _ => cases idle

/-- No connector runs out of addresses in this step without having connected to one. -/
def FindsConnection (state : State) : Action → Prop
  | .work index _ => ∀ sockFd, (state.workers[index]?).map Worker.pc ≠ some (.connect sockFd [])
  | _ => True

/-- Out of addresses. -/
def Pc.exhausted : Pc → Bool
  | .connect _ [] => true
  | _ => false

theorem Pc.exhausted_iff {pc : Pc} : pc.exhausted = true ↔ ∃ sockFd, pc = .connect sockFd [] := by
  constructor
  · intro exhausted
    unfold Pc.exhausted at exhausted
    split at exhausted
    · exact ⟨_, rfl⟩
    · cases exhausted
  · rintro ⟨sockFd, rfl⟩
    rfl

instance (state : State) (action : Action) : Decidable (FindsConnection state action) :=
  match action with
  | .work index _ =>
    decidable_of_iff (¬ ∃ worker ∈ state.workers[index]?, worker.pc.exhausted = true) <| by
      simp only [FindsConnection, Pc.exhausted_iff, Option.mem_def]
      cases state.workers[index]? <;> simp
  | .accept .. | .command .. | .relay .. | .timeout .. | .take => inferInstanceAs (Decidable True)

/-- Not behind the connector's loop over the addresses. -/
def Worker.Searching (worker : Worker) : Prop := worker.pc ≠ .giveUp ∧ worker.pc ≠ .clearCache

namespace State

variable {state next : State} {settings : Settings}

/-! ## Who is at work after a step -/

theorem workers_addSocket (registered : Bool) (socket : ClientSocket) :
    (SocketManager.addSocket registered (.client socket) state).workers = state.workers := by
  unfold SocketManager.addSocket
  split <;> rfl

/-- What a worker was before a step of the proxy. -/
inductive Worked (state : State) (action : Action) : Worker → Prop
  | idle {worker : Worker} (older : worker ∈ state.workers) : Worked state action worker
  | took {task : Task} : Worked state action task.worker
  | moved {index : Nat} {input : Input} {worker : Worker} {shared : State} {pc : Pc}
      (isWork : action = .work index input) (at_ : state.workers[index]? = some worker)
      (stepped : worker.step input state = some (shared, some pc)) :
      Worked state action { worker with pc }

theorem step_worked {action : Action} (stepped : state.step settings action = some next) {worker : Worker}
    (member : worker ∈ next.workers) : Worked state action worker := by
  cases steps_of_step stepped with
  | connected pipe found =>
    rw [workers_addSocket, workers_addSocket] at member
    exact .idle member
  | teardown search => exact .idle ((teardown_sheds _ _).workers ▸ member)
  | timeout evictions => exact .idle ((evictions_shed evictions).workers ▸ member)
  | @logged _ _ pruned evictions =>
    have stays : worker ∈ pruned.workers := member
    exact .idle ((evictions_shed evictions).workers ▸ stays)
  | take first =>
    rcases List.mem_append.mp member with older | last
    · exact .idle older
    · rw [List.mem_singleton.mp last]
      exact .took
  | moved at_ worked =>
    rcases List.mem_or_eq_of_mem_set member with older | same
    · rw [(step_frame worked).workers] at older
      exact .idle older
    · rw [same]
      exact .moved rfl at_ worked
  | done at_ worked =>
    have older := List.mem_of_mem_eraseIdx member
    rw [(step_frame worked).workers] at older
    exact .idle older
  | _ => exact .idle member

/-! ## Whole runs -/

/-- Only the worker that has run out of addresses gets behind the loop. -/
theorem step_searching {worker : Worker} {input : Input} {shared : State} {pc : Pc}
    (stepped : worker.step input state = some (shared, some pc)) (searching : worker.Searching)
    (finds : ∀ sockFd, worker.pc ≠ .connect sockFd []) :
    Worker.Searching { worker with pc } := by
  have steps := Worker.steps_of_step stepped
  obtain ⟨sessionId, was⟩ := worker
  cases steps with
  | exhausted => exact absurd rfl (finds _)
  | giveUp => exact absurd rfl searching.1
  | _ => exact ⟨by simp, by simp⟩

theorem run_searching {history : History} (run : Run (proxySystem settings) FindsConnection history state) :
    ∀ worker ∈ state.workers, worker.Searching := by
  apply run.invariant (fun state => ∀ worker ∈ state.workers, worker.Searching)
  · rintro state ⟨serverFd, commandFd, openFds, now, -, -, -, rfl⟩ worker member
    cases member
  · intro state action next searching finds stepped worker member
    cases step_worked stepped member with
    | idle older => exact searching worker older
    | took =>
      rename_i task
      cases task <;> exact ⟨by simp [Task.worker], by simp [Task.worker]⟩
    | moved isWork at_ advanced =>
      rename_i index input older shared pc
      subst isWork
      refine step_searching advanced (searching older (List.mem_of_getElem? at_)) ?_
      intro sockFd exhausted
      apply finds sockFd
      rw [at_, Option.map_some, exhausted]

/-- While no connector runs out of addresses, a worker that has replied leaves its session alone;
and while `epoll_ctl` does not fail either, every access of a worker is to a live session. -/
theorem no_access_after_reply {history : History}
    (run : Run (proxySystem settings) FindsConnection history state) :
    (∀ worker ∈ state.workers, worker.replied = true → worker.accesses = false) ∧
    ((∀ entry ∈ history, Registers entry.1 entry.2) → ∀ worker ∈ state.workers,
      worker.accesses = true → ∃ session, state.getSession worker.sessionId = some session) := by
  have owing : ∀ worker ∈ state.workers, worker.replied = false := by
    intro worker member
    simpa [Worker.replied] using (run_searching run worker member).2
  constructor
  · intro worker member replied
    rw [owing worker member] at replied
    cases replied
  · intro registers worker member _
    have sound := run_sound (run.recorded registers)
    have isHolder : .worker worker ∈ state.holders := mem_holders.mpr ⟨member, owing worker member⟩
    exact exists_session sound isHolder

/-- The events of one client that is served alone, up to its connector's first `::connect`. -/
def serve (clientFd sockFd : Fd) (clientIp data : Bytes) (localTime : Option LocalTime)
    (connect : ConnectResult) : List Action :=
  [.accept ⟨false, 0, 0, 0⟩ 7 clientFd clientIp, .take, .work 0 .none, .work 0 (.read (.data data) []),
    .work 0 .none, .work 0 .none, .work 0 .none, .work 0 .none, .work 0 .none,
    .command localTime 8 (true, true), .take, .work 0 .none, .work 0 (.clock (fun _ => 8)),
    .work 0 (.resolver (fun _ _ => some [⟨true, bytes "10.0.0.9"⟩]) 9), .work 0 .none,
    .work 0 (.socket (some sockFd)), .work 0 (.network (fun _ _ => connect))]

/-- The events until an origin has been connected to for the first client. -/
def connect : List Action :=
  serve 5 6 (bytes "10.0.0.2") (bytes "CONNECT example.com:443 HTTP/1.1\r\n\r\n") none .connected ++
    [.work 0 (.write (.accepts 19)), .work 0 .none, .work 0 .none]

/-- The events until the reply of a connector that has failed is read. -/
def refuse : List Action :=
  serve 5 6 (bytes "10.0.0.2") (bytes "CONNECT example.com:443 HTTP/1.1\r\n\r\n") none .refused ++
    [.work 0 .none, .work 0 .none, .command none 10 (true, true)]

theorem registers_serve {clientFd sockFd : Fd} {clientIp data : Bytes} {localTime : Option LocalTime}
    {connect : ConnectResult} :
    ∀ action ∈ serve clientFd sockFd clientIp data localTime connect, ∀ state, Registers state action := by
  simp [serve, Registers]

theorem registers_connect : ∀ action ∈ connect, ∀ state, Registers state action :=
  List.forall_mem_append.mpr ⟨registers_serve, by simp [Registers]⟩

theorem registers_refuse : ∀ action ∈ refuse, ∀ state, Registers state action :=
  List.forall_mem_append.mpr ⟨registers_serve, by simp [Registers]⟩

/-- What is computed from a start is a run. -/
theorem run_of_executed {actions : List Action} {history : History}
    (permitted : ∀ action ∈ actions, ∀ state, Registers state action)
    (executed : runActions (State.step settings) [] (initial 3 4 [3, 4] 0) actions =
      some (history, state)) : Run (proxySystem settings) Registers history state := by
  have started : Run (proxySystem settings) Registers [] (initial 3 4 [3, 4] 0) := .start initially
  exact run_of_runActions started permitted executed

theorem run_of_serve {clientFd sockFd : Fd} {clientIp data : Bytes} {localTime : Option LocalTime}
    {connect : ConnectResult} {history : History}
    (executed : runActions (State.step settings) [] (initial 3 4 [3, 4] 0)
      (serve clientFd sockFd clientIp data localTime connect) = some (history, state)) :
    Run (proxySystem settings) Registers history state :=
  run_of_executed registers_serve executed

/-- A first client has connected, and a worker has taken its task. -/
theorem no_access_after_reply_take : ∃ state : State, state.workers = [⟨0, .detectorEnter⟩] ∧
    (∀ worker ∈ state.workers, worker.replied = true → worker.accesses = false) ∧
    ∀ worker ∈ state.workers, worker.accesses = true →
      ∃ session, state.getSession worker.sessionId = some session := by
  let action : Action := .accept ⟨false, 0, 0, 0⟩ 7 5 (bytes "10.0.0.2")
  have started : Run (proxySystem unrestricted) FindsConnection [] (initial 3 4 [3, 4] 0) := .start initially
  have executed : ∃ accepted taken, (initial 3 4 [3, 4] 0).step unrestricted action = some accepted ∧
      accepted.step unrestricted .take = some taken ∧ taken.workers = [⟨0, .detectorEnter⟩] :=
    ⟨_, _, rfl, rfl, rfl⟩
  obtain ⟨accepted, taken, first, second, atWork⟩ := executed
  have run : Run (proxySystem unrestricted) FindsConnection
      [(initial 3 4 [3, 4] 0, action), (accepted, .take)] taken :=
    (started.snoc (by exact trivial) first).snoc (by exact trivial) second
  obtain ⟨noAccess, live⟩ := no_access_after_reply run
  exact ⟨taken, atWork, noAccess, live (by simp [Registers, action])⟩

/-- The connection is refused and the 404 is sent before the connector gets on: it then reads the
host of a session that has ended. -/
theorem access_after_reply :
    ¬ ∀ settings history state, Run (proxySystem settings) Registers history state →
      (∀ worker ∈ state.workers, worker.replied = true → worker.accesses = false) ∧
      ∀ worker ∈ state.workers, worker.accesses = true →
        ∃ session, state.getSession worker.sessionId = some session := by
  intro claim
  have executed : ∃ history state,
      runActions (State.step unrestricted) [] (initial 3 4 [3, 4] 0) refuse = some (history, state) ∧
      ⟨0, .clearCache⟩ ∈ state.workers ∧ state.getSession 0 = none :=
    ⟨_, _, rfl, by decide, by decide⟩
  obtain ⟨history, state, executed, isWorker, ended⟩ := executed
  have run := run_of_executed registers_refuse executed
  have noAccess := (claim unrestricted history state run).1 ⟨0, .clearCache⟩ isWorker rfl
  cases noAccess

end State

end NermalProxy
