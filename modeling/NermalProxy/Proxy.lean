import NermalProxy.Library.Transition
import NermalProxy.SocketManager
import NermalProxy.Workers

/-! # Runs of the proxy

One action is one event of the main thread or one step of a worker.  A handler of the
main thread is one action: what it shares with the workers it only touches under a lock
or hands over through the queue and the pipe. -/

namespace NermalProxy

open NermalProxy.CString NermalProxy.KeyedList NermalProxy.Config NermalProxy.Transition

inductive Action where
  | accept (storage : SessionStorage) (now : UInt64) (clientFd : Fd) (clientIp : Bytes)
  | command (localTime : Option LocalTime) (now : UInt64) (registered : Bool × Bool)
  /-- An event on a relay socket, and what its system calls return. -/
  | relay (fd : Fd) (now : UInt64) (memory : ClientSocket.Memory) (reads : List ReadResult)
      (writes : List WriteResult)
  | timeout (now : Nat → UInt64) (logTime : UInt64)
  /-- A waiting worker takes the first task of the queue. -/
  | take
  | work (index : Nat) (input : Input)

def threadPoolSize : Nat := 20

def Task.worker : Task → Worker
  | .asyncDetector sessionId => ⟨sessionId, .detectorEnter⟩
  | .asyncConnector sessionId => ⟨sessionId, .connectorEnter⟩

namespace State

/-- A waiting worker exists while fewer than all run a task. -/
def take (state : State) : Option State :=
  match state.queue with
  | [] => none
  | task :: queue =>
    if state.workers.length < threadPoolSize then
      some { state with queue, workers := state.workers ++ [task.worker] }
    else none

def work (index : Nat) (input : Input) (state : State) : Option State :=
  match state.workers[index]? with
  | none => none
  | some worker =>
    match worker.step input state with
    | none => none
    | some (state, none) => some { state with workers := state.workers.eraseIdx index }
    | some (state, some pc) =>
      some { state with workers := state.workers.set index { worker with pc } }

/-- The workers behind a step of the one at `index`, by where that is then. -/
def placed (index : Nat) (worker : Worker) (workers : List Worker) : Option Pc → List Worker
  | none => workers.eraseIdx index
  | some pc => workers.set index { worker with pc }

theorem exists_of_work {state next : State} {index : Nat} {input : Input}
    (worked : state.work index input = some next) :
    ∃ worker shared after, state.workers[index]? = some worker ∧
      worker.step input state = some (shared, after) ∧
      { shared with workers := placed index worker shared.workers after } = next := by
  unfold work at worked
  cases at_ : state.workers[index]? with
  | none => simp [at_] at worked
  | some worker =>
    simp only [at_] at worked
    cases stepped : worker.step input state with
    | none => simp [stepped] at worked
    | some outcome =>
      obtain ⟨shared, after⟩ := outcome
      refine ⟨worker, shared, after, rfl, stepped, ?_⟩
      simp only [stepped] at worked
      cases after with
      | none => exact Option.some.inj worked
      | some pc => exact Option.some.inj worked

def step (settings : Settings) (state : State) : Action → Option State
  | .accept storage now clientFd clientIp =>
    -- the kernel never hands out a descriptor that is open
    if clientFd ∈ state.openFds then none
    else SocketManager.handleServerSocketRead storage now clientFd clientIp state
  | .command localTime now registered =>
    SocketManager.handleCommandSocketRead settings localTime now registered state
  | .relay fd now memory reads writes =>
    match lookup Socket.fd fd state.sockets with
    | some (.client socket) =>
      SocketManager.handleClientSocketRead settings now memory reads writes socket state
    | _ => none
  | .timeout now logTime => SocketManager.handleTimeout settings now logTime state
  | .take => state.take
  | .work index input => state.work index input

/-- `main` has registered the listening socket and the pipe. -/
def initial (serverFd commandFd : Fd) (openFds : List Fd) (now : UInt64) : State where
  sessions := ⟨0, []⟩
  sockets := [.server serverFd, .command commandFd]
  pipe := []
  queue := []
  workers := []
  cache := []
  stats := ⟨[], now⟩
  openFds := openFds
  closed := []
  responses := []
  resent := []

def Initial (state : State) : Prop :=
  ∃ serverFd commandFd openFds now, serverFd ≠ commandFd ∧ serverFd ∈ openFds ∧
    commandFd ∈ openFds ∧ state = initial serverFd commandFd openFds now

/-- A proxy that serves everybody. -/
def unrestricted : Settings := ⟨10080, false, [], [], []⟩

theorem initially : (initial 3 4 [3, 4] 0).Initial :=
  ⟨3, 4, [3, 4], 0, by decide, by decide, by decide, rfl⟩

end State

def proxySystem (settings : Settings) : System State Action :=
  System.ofFunction State.Initial (State.step settings)

abbrev History := List (State × Action)

/-- `epoll_ctl` does not fail. -/
def Registers (_ : State) : Action → Prop
  | .command _ _ registered => registered = (true, true)
  | _ => True

instance (state : State) (action : Action) : Decidable (Registers state action) :=
  match action with
  | .command _ _ registered => inferInstanceAs (Decidable (registered = (true, true)))
  | .accept .. | .relay .. | .timeout .. | .take | .work .. => inferInstanceAs (Decidable True)

end NermalProxy
