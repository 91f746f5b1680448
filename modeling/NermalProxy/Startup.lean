import NermalProxy.ConfiguredFilter
import NermalProxy.EventLoop

/-! # The start of the program

`main` loads the configuration, makes the sockets and registers them, and then enters its
loop.  The results of `AddSocket` are not looked at, and `Initialize` returns -1, which is
true, where it has got no socket: `main` may enter its loop without a listening socket or
without the pipe. -/

namespace NermalProxy

open NermalProxy.CString NermalProxy.KeyedList NermalProxy.Config NermalProxy.ConfigFile
  NermalProxy.Transition

structure ServerSocket where
  isActive : Bool
  socketFd : Fd
  deriving DecidableEq, Repr

/-- What the calls of the start return. -/
structure StartCalls where
  /-- `access` on the file that is named by the argument. -/
  access : Int
  fork : Int
  setsid : Int
  /-- The descriptors of the three files that `Daemonize` opens. -/
  devNull : List Fd
  epollCreate1 : Fd
  socket : Fd
  setsockopt : Int
  bind : UInt16 → Int
  listen : Int
  /-- `epoll_ctl` on this descriptor. -/
  epollCtl : Fd → Int
  pipe : Int
  readPipe : Fd
  writePipe : Fd
  sigaction : Int
  clock : UInt64

namespace ServerSocket

/-- The constructor. -/
def make : ServerSocket := ⟨false, -1⟩

def getFd (server : ServerSocket) : Fd := if server.isActive then server.socketFd else -1

/-- The result, and the object as the call leaves it. -/
def initializeServer (calls : StartCalls) (port : UInt16) (server : ServerSocket) : Bool × ServerSocket :=
  -- the -1 that is returned here is true
  if calls.socket < 0 then (true, server)
  else if calls.setsockopt < 0 then (false, server)
  else if calls.bind port < 0 then (false, server)
  else if calls.listen < 0 then (false, server)
  else (true, ⟨true, calls.socket⟩)

end ServerSocket

/-- How the start ends. -/
inductive Start where
  | exits (code : Int)
  /-- An exception of `std::stoul` ends the program. -/
  | terminates
  /-- `main` enters its loop. -/
  | loops (settings : Settings) (state : State)

namespace Start

/-- The descriptors that are open then, or the exit code. -/
def daemonize (calls : StartCalls) : Except Int (List Fd) :=
  if calls.fork < 0 then .error (-1)
  else if calls.fork > 0 then .error 0
  else if calls.setsid < 0 then .error (-1)
  else .ok calls.devNull

/-- `AddSocket` for the server: an object that is not registered is destroyed. -/
def addServer (calls : StartCalls) (server : ServerSocket) (state : State) : State :=
  if calls.epollCtl server.getFd = -1 then
    if server.isActive then state.close server.socketFd else state
  else { state with sockets := state.sockets ++ [.server server.getFd] }

/-- `AddSocket` for the pipe. -/
def addCommand (calls : StartCalls) (state : State) : State :=
  SocketManager.addSocket (calls.epollCtl calls.readPipe ≠ -1) (.command calls.readPipe) state

/-- A process without sockets. -/
def empty (openFds : List Fd) (clock : UInt64) : State :=
  { State.initial 0 0 openFds clock with sockets := [] }

/-- `main` behind `DoConfig`. -/
def startSockets (calls : StartCalls) (settings : Settings) (openFds : List Fd) : Start :=
  if calls.epollCreate1 = -1 then .exits (-1)
  else
    let (initialized, server) := ServerSocket.make.initializeServer calls settings.serverPort
    if initialized = false then .exits (-1)
    else
      let openFds := (if server.isActive then [server.socketFd] else []) ++ calls.epollCreate1 :: openFds
      let state := addServer calls server (empty openFds calls.clock)
      -- the pipe is created when its descriptor is first asked for
      if calls.pipe ≠ 0 then .exits (-1)
      else
        let state := addCommand calls
          { state with openFds := calls.readPipe :: calls.writePipe :: state.openFds }
        if calls.sigaction = -1 then .exits (-1) else .loops settings state

/-- `main` up to its loop; `argument` is `argv[1]`, and `openFds` is what the process has inherited. -/
def main (files : Files) (stale : Nat → Bytes × Bytes) (calls : StartCalls) (argument : Option Bytes)
    (openFds : List Fd) : Start :=
  if argument.isSome ∧ calls.access ≠ 0 then .exits (-1)
  else
    let filename := argument.getD (bytes "default.conf")
    let proxyConfig := (loadData stale (files filename)).findSection (bytes "Proxy")
    let detached :=
      if (proxyConfig.getAttribute (bytes "daemon_mode")).getValue = enabled then daemonize calls
      else .ok openFds
    match detached with
    | .error code => .exits code
    | .ok openFds =>
      match doConfig files stale filename with
      | none => .terminates
      | some settings => startSockets calls settings openFds

/-- The kernel registers no negative descriptor, and hands out none that is open. -/
structure Kernel (calls : StartCalls) : Prop where
  badFd : ∀ fd < 0, calls.epollCtl fd = -1
  apart : 0 ≤ calls.socket → calls.epollCtl calls.socket ≠ -1 → calls.socket ≠ calls.readPipe

/-- There is a listening socket, and it is registered. -/
def Listens (calls : StartCalls) : Prop := 0 ≤ calls.socket ∧ calls.epollCtl calls.socket ≠ -1

/-- The pipe is registered. -/
def Reads (calls : StartCalls) : Prop := calls.epollCtl calls.readPipe ≠ -1

instance (calls : StartCalls) : Decidable (Listens calls) := inferInstanceAs (Decidable (_ ∧ _))

instance (calls : StartCalls) : Decidable (Reads calls) := inferInstanceAs (Decidable (_ ≠ _))

variable {files : Files} {stale : Nat → Bytes × Bytes} {calls : StartCalls} {argument : Option Bytes}
  {openFds : List Fd} {settings : Settings} {state : State}

/-! ## What is registered -/

section Registered

variable (calls)

/-- The sockets of the loop. -/
def registered : List Socket :=
  (if Listens calls then [.server calls.socket] else []) ++ if Reads calls then [.command calls.readPipe] else []

end Registered

theorem addCommand_eq (calls : StartCalls) (state : State) : addCommand calls state =
    { state with sockets := state.sockets ++ if Reads calls then [.command calls.readPipe] else [] } := by
  unfold addCommand Reads SocketManager.addSocket
  by_cases reads : calls.epollCtl calls.readPipe ≠ -1
  · simp [reads]
  · simp [reads, SocketManager.destroy]

/-- The server that `main` registers, unless `Initialize` fails in earnest. -/
theorem addServer_initialized (kernel : Kernel calls) {port : UInt16} {server : ServerSocket}
    (initialized : ServerSocket.make.initializeServer calls port = (true, server)) (openFds : List Fd) :
    ∃ remaining closed, addServer calls server
        (empty ((if server.isActive then [server.socketFd] else []) ++ openFds) calls.clock) =
      { empty remaining calls.clock with
        sockets := if Listens calls then [.server calls.socket] else [], closed } ∧
      (Listens calls → calls.socket ∈ remaining ∧ closed = []) := by
  unfold ServerSocket.initializeServer at initialized
  by_cases failed : calls.socket < 0
  · simp only [if_pos failed, Prod.mk.injEq, true_and] at initialized
    subst initialized
    have silent : ¬ Listens calls := fun listens => absurd failed (Int.not_lt.mpr listens.1)
    have unregistered : calls.epollCtl ServerSocket.make.getFd = -1 := kernel.badFd _ (by decide)
    refine ⟨openFds, [], ?_, fun listens => absurd listens silent⟩
    rw [addServer, if_pos unregistered, if_neg silent]
    rfl
  · simp only [if_neg failed] at initialized
    have isSocket : server = ⟨true, calls.socket⟩ := by grind
    subst isSocket
    by_cases listens : Listens calls
    · refine ⟨calls.socket :: openFds, [], ?_, fun _ => ⟨List.mem_cons_self .., rfl⟩⟩
      rw [addServer, if_neg (show ¬ calls.epollCtl (ServerSocket.getFd ⟨true, calls.socket⟩) = -1 from
        listens.2), if_pos listens]
      rfl
    · have unregistered : calls.epollCtl (ServerSocket.getFd ⟨true, calls.socket⟩) = -1 := by
        by_contra fine
        exact listens ⟨Int.not_lt.mp failed, fine⟩
      refine ⟨openFds, [calls.socket], ?_, fun listens' => absurd listens' listens⟩
      rw [addServer, if_pos unregistered, if_neg listens]
      simp [empty, State.initial, State.close]

theorem startSockets_loops {fds : List Fd} {started : Settings}
    (reached : startSockets calls started fds = .loops settings state) :
    ∃ server, ServerSocket.make.initializeServer calls started.serverPort = (true, server) ∧
      state = addCommand calls { addServer calls server
          (empty ((if server.isActive then [server.socketFd] else []) ++ calls.epollCreate1 :: fds)
            calls.clock) with
        openFds := calls.readPipe :: calls.writePipe :: (addServer calls server
          (empty ((if server.isActive then [server.socketFd] else []) ++ calls.epollCreate1 :: fds)
            calls.clock)).openFds } := by
  cases result : ServerSocket.make.initializeServer calls started.serverPort with
  | mk initialized server =>
    simp only [startSockets, result] at reached
    split at reached
    · cases reached
    · cases initialized with
      | false => cases reached
      | true =>
        split at reached
        · cases reached
        · split at reached
          · cases reached
          · split at reached
            · cases reached
            · cases reached
              exact ⟨server, rfl, rfl⟩

/-- The state in which the loop begins. -/
theorem loops_state (kernel : Kernel calls)
    (reached : main files stale calls argument openFds = .loops settings state) :
    ∃ remaining closed, state = { empty (calls.readPipe :: remaining) calls.clock with
        sockets := registered calls, closed } ∧
      (Listens calls → calls.socket ∈ remaining ∧ closed = []) := by
  obtain ⟨fds, started, inSockets⟩ : ∃ fds started,
      startSockets calls started fds = .loops settings state := by
    simp only [main] at reached
    split at reached
    · cases reached
    · split at reached
      · cases reached
      · split at reached
        · cases reached
        · exact ⟨_, _, reached⟩
  obtain ⟨server, initialized, rfl⟩ := startSockets_loops inSockets
  obtain ⟨remaining, closed, added, listening⟩ :=
    addServer_initialized kernel initialized (calls.epollCreate1 :: fds)
  rw [added, addCommand_eq]
  refine ⟨calls.writePipe :: remaining, closed, rfl, fun listens => ?_⟩
  obtain ⟨isOpen, nothing⟩ := listening listens
  exact ⟨List.mem_cons_of_mem _ isOpen, nothing⟩

/-- The loop begins in the state that the proxy begins in exactly if both sockets are registered. -/
theorem initial_iff (kernel : Kernel calls)
    (reached : main files stale calls argument openFds = .loops settings state) :
    state.Initial ↔ Listens calls ∧ Reads calls := by
  obtain ⟨remaining, closed, rfl, listening⟩ := loops_state kernel reached
  constructor
  · rintro ⟨serverFd, commandFd, fds, now, -, -, -, same⟩
    have sockets : registered calls = [.server serverFd, .command commandFd] := congrArg State.sockets same
    unfold registered at sockets
    by_cases listens : Listens calls
    · by_cases reads : Reads calls
      · exact ⟨listens, reads⟩
      · simp [listens, reads] at sockets
    · by_cases reads : Reads calls
      · simp [listens, reads] at sockets
      · simp [listens, reads] at sockets
  · rintro ⟨listens, reads⟩
    obtain ⟨isOpen, rfl⟩ := listening listens
    refine ⟨calls.socket, calls.readPipe, calls.readPipe :: remaining, calls.clock,
      kernel.apart listens.1 listens.2, List.mem_cons_of_mem _ isOpen, List.mem_cons_self .., ?_⟩
    simp [registered, listens, reads, empty, State.initial]

/-! ## Runs that begin in it -/

/-- The loop of `main` from this state on. -/
def startedLoop (settings : Settings) (state : State) : System EventLoop LoopAction :=
  System.ofFunction (fun loop => loop = ⟨state, [], true⟩) (EventLoop.step settings)

variable {next : State} {loop after : EventLoop}

/-- Without relay sockets a timeout evicts nothing. -/
theorem timeout_stats {now : Nat → UInt64} {logTime : UInt64}
    (noClients : ∀ client, .client client ∉ state.sockets)
    (stepped : state.step settings (.timeout now logTime) = some next) :
    ∃ stats, next = { state with stats } := by
  have stays : ∀ {pruned}, Relation.ReflTransGen (SocketManager.Evicts settings) state pruned →
      pruned = state := by
    intro pruned evictions
    rcases evictions.cases_head with same | ⟨first, ⟨clock, evicted⟩, -⟩
    · exact same.symm
    · unfold SocketManager.evictOldest at evicted
      split at evicted
      · rename_i client found
        exact absurd (List.mem_of_find?_eq_some found) (noClients client)
      · cases evicted
  cases State.steps_of_step stepped with
  | timeout evictions => exact ⟨state.stats, stays evictions⟩
  | logged evictions =>
    rw [stays evictions]
    exact ⟨_, rfl⟩

/-- Nobody has ever connected. -/
structure Deaf (atStart : List Fd) (loop : EventLoop) : Prop where
  batch : loop.batch = []
  sockets : ∀ socket ∈ loop.state.sockets, ∃ fd, socket = .command fd
  sessions : loop.state.sessions.sessionList = []
  pipe : loop.state.pipe = []
  queue : loop.state.queue = []
  workers : loop.state.workers = []
  responses : loop.state.responses = []
  openFds : loop.state.openFds = atStart

theorem Deaf.step {atStart : List Fd} {action : LoopAction} (deaf : Deaf atStart loop)
    (stepped : loop.step settings action = some after) : Deaf atStart after := by
  have noClients : ∀ client, .client client ∉ loop.state.sockets := by
    intro client member
    obtain ⟨fd, same⟩ := deaf.sockets _ member
    cases same
  cases (EventLoop.steps_of_step stepped).2 with
  | take performed => simp [State.step, State.take, deaf.queue] at performed
  | work performed => simp [State.step, State.work, deaf.workers] at performed
  | skipped first | acceptFails first | accept first | command first | relay first =>
    cases deaf.batch.symm.trans first
  | poll empty ready =>
    obtain ⟨notEmpty, -, -, readable⟩ := ready
    obtain ⟨fd, isEvent⟩ := List.exists_mem_of_ne_nil _ notEmpty
    obtain ⟨member, needsMessage⟩ := readable fd isEvent
    obtain ⟨socket, registered, rfl⟩ := List.mem_map.mp member
    obtain ⟨commandFd, rfl⟩ := deaf.sockets socket registered
    exact absurd deaf.pipe (needsMessage registered)
  | idle empty performed =>
    obtain ⟨stats, rfl⟩ := timeout_stats noClients performed
    exact ⟨rfl, deaf.sockets, deaf.sessions, deaf.pipe, deaf.queue, deaf.workers, deaf.responses,
      deaf.openFds⟩
  | interrupted => exact deaf
  | failed empty =>
    exact ⟨rfl, deaf.sockets, deaf.sessions, deaf.pipe, deaf.queue, deaf.workers, deaf.responses,
      deaf.openFds⟩

end Start

/-- In `asyncDetector`. -/
def Pc.detects : Pc → Bool
  | .detectorEnter | .read _ | .setHost _ | .setPort _ | .setRequest _ | .setTransparent _ => true
  | .detectReply _ => true
  | _ => false

namespace Start

variable {files : Files} {stale : Nat → Bytes × Bytes} {calls : StartCalls} {argument : Option Bytes}
  {openFds : List Fd} {settings : Settings} {state next : State} {loop after : EventLoop}

/-- Clients have been accepted and detected at most. -/
structure Mute (atStart : List Socket) (loop : EventLoop) : Prop where
  sockets : loop.state.sockets = atStart
  queue : ∀ task ∈ loop.state.queue, ∃ sessionId, task = .asyncDetector sessionId
  workers : ∀ worker ∈ loop.state.workers, worker.pc.detects = true
  responses : loop.state.responses = []
  resent : loop.state.resent = []

theorem work_detects {worker : Worker} {input : Input} {shared : State} {pc : Option Pc}
    (detects : worker.pc.detects = true) (stepped : worker.step input state = some (shared, pc)) :
    (∀ later ∈ pc, later.detects = true) ∧ shared.sockets = state.sockets ∧ shared.queue = state.queue ∧
      shared.workers = state.workers ∧ shared.responses = state.responses ∧ shared.resent = state.resent := by
  have steps := Worker.steps_of_step stepped
  obtain ⟨sessionId, at_⟩ := worker
  cases steps with
  | detectorEnter | detected | undetected | setHost | setPort | setRequest | setTransparent | detectReply =>
    exact ⟨by simp [Pc.detects], rfl, rfl, rfl, rfl, rfl⟩
  | _ => cases detects

theorem Mute.step {atStart : List Socket} {action : LoopAction} (mute : Mute atStart loop)
    (listening : ∀ socket ∈ atStart, ∃ fd, socket = .server fd)
    (stepped : loop.step settings action = some after) : Mute atStart after := by
  have isServer : ∀ {fd socket}, lookup Socket.fd fd loop.state.sockets = some socket →
      ∃ serverFd, socket = .server serverFd := by
    intro fd socket found
    exact listening socket (mute.sockets ▸ mem_of_lookup found)
  cases (EventLoop.steps_of_step stepped).2 with
  | take performed =>
    cases State.steps_of_step performed with
    | take front =>
      rename_i task queue
      obtain ⟨sessionId, rfl⟩ := mute.queue task (front ▸ List.mem_cons_self ..)
      refine ⟨mute.sockets, fun other member => mute.queue other (front ▸ List.mem_cons_of_mem _ member),
        fun worker member => ?_, mute.responses, mute.resent⟩
      rcases List.mem_append.mp member with older | last
      · exact mute.workers worker older
      · rw [List.mem_singleton.mp last]
        rfl
  | work performed =>
    cases State.steps_of_step performed with
    | moved at_ worked =>
      obtain ⟨detects, sockets, queue, workers, responses, resent⟩ :=
        work_detects (mute.workers _ (List.mem_of_getElem? at_)) worked
      refine ⟨sockets.trans mute.sockets, queue ▸ mute.queue, fun other member => ?_,
        responses.trans mute.responses, resent.trans mute.resent⟩
      rcases List.mem_or_eq_of_mem_set member with older | rfl
      · exact mute.workers other (workers ▸ older)
      · exact detects _ rfl
    | done at_ worked =>
      obtain ⟨-, sockets, queue, workers, responses, resent⟩ :=
        work_detects (mute.workers _ (List.mem_of_getElem? at_)) worked
      refine ⟨sockets.trans mute.sockets, queue ▸ mute.queue, fun other member => ?_,
        responses.trans mute.responses, resent.trans mute.resent⟩
      exact mute.workers other (workers ▸ List.mem_of_mem_eraseIdx member)
  | accept first found performed =>
    cases State.steps_of_step performed with
    | accept unused created =>
      refine ⟨mute.sockets, fun task member => ?_, mute.workers, mute.responses, mute.resent⟩
      rcases List.mem_append.mp member with older | last
      · exact mute.queue task older
      · exact ⟨_, List.mem_singleton.mp last⟩
  | command first found =>
    obtain ⟨serverFd, same⟩ := isServer found
    cases same
  | relay first found =>
    obtain ⟨serverFd, same⟩ := isServer found
    cases same
  | idle empty performed =>
    have noClients : ∀ client, .client client ∉ loop.state.sockets := by
      intro client member
      obtain ⟨fd, same⟩ := listening _ (mute.sockets ▸ member)
      cases same
    obtain ⟨stats, rfl⟩ := timeout_stats noClients performed
    exact ⟨mute.sockets, mute.queue, mute.workers, mute.responses, mute.resent⟩
  | skipped | acceptFails | poll | failed =>
    exact ⟨mute.sockets, mute.queue, mute.workers, mute.responses, mute.resent⟩
  | interrupted => exact mute

/-- Without a listening socket. -/
theorem run_deaf (kernel : Kernel calls)
    (reached : main files stale calls argument openFds = .loops settings state) (silent : ¬ Listens calls)
    {allowed : EventLoop → LoopAction → Prop} {history : LoopHistory}
    (run : Run (startedLoop settings state) allowed history loop) : Deaf state.openFds loop := by
  obtain ⟨remaining, closed, rfl, -⟩ := loops_state kernel reached
  refine run.invariant (Deaf (calls.readPipe :: remaining)) ?_ ?_
  · rintro loop rfl
    refine ⟨rfl, fun socket member => ?_, rfl, rfl, rfl, rfl, rfl, rfl⟩
    simp only [registered, if_neg silent, List.nil_append] at member
    split at member
    · exact ⟨_, List.mem_singleton.mp member⟩
    · cases member
  · exact fun loop action after deaf _ stepped => deaf.step stepped

/-- Without the pipe. -/
theorem run_mute (kernel : Kernel calls)
    (reached : main files stale calls argument openFds = .loops settings state) (unread : ¬ Reads calls)
    {allowed : EventLoop → LoopAction → Prop} {history : LoopHistory}
    (run : Run (startedLoop settings state) allowed history loop) :
    Mute state.sockets loop ∧ ∀ socket ∈ state.sockets, ∃ fd, socket = .server fd := by
  obtain ⟨remaining, closed, rfl, -⟩ := loops_state kernel reached
  have listening : ∀ socket ∈ registered calls, ∃ fd, socket = .server fd := by
    intro socket member
    simp only [registered, if_neg unread, List.append_nil] at member
    split at member
    · exact ⟨_, List.mem_singleton.mp member⟩
    · cases member
  refine ⟨run.invariant (Mute (registered calls)) ?_ ?_, listening⟩
  · rintro loop rfl
    exact ⟨rfl, by simp [empty, State.initial], by simp [empty, State.initial], rfl, rfl⟩
  · exact fun loop action after mute _ stepped => mute.step listening stepped

/-- What `main` enters its loop in.  It is the state that the proxy begins in exactly if the listening
socket was created and both registrations succeeded.  Without a listening socket nobody ever connects;
without the pipe no client ever gets an answer, and no origin a request. -/
theorem start_up (kernel : Kernel calls)
    (reached : main files stale calls argument openFds = .loops settings state) :
    (state.Initial ↔ Listens calls ∧ Reads calls) ∧
    (¬ Listens calls → ∀ {allowed : EventLoop → LoopAction → Prop} {history : LoopHistory} {loop : EventLoop},
      Run (startedLoop settings state) allowed history loop →
        loop.state.sessions.sessionList = [] ∧ loop.state.responses = [] ∧
          loop.state.openFds = state.openFds) ∧
    (¬ Reads calls → ∀ {allowed : EventLoop → LoopAction → Prop} {history : LoopHistory} {loop : EventLoop},
      Run (startedLoop settings state) allowed history loop →
        loop.state.responses = [] ∧ loop.state.resent = [] ∧ loop.state.sockets = state.sockets) := by
  refine ⟨initial_iff kernel reached, fun silent => ?_, fun unread => ?_⟩
  · intro allowed history loop run
    have deaf := run_deaf kernel reached silent run
    exact ⟨deaf.sessions, deaf.responses, deaf.openFds⟩
  · intro allowed history loop run
    obtain ⟨mute, -⟩ := run_mute kernel reached unread run
    exact ⟨mute.responses, mute.resent, mute.sockets⟩

/-- No descriptor is left for the listening socket. -/
def noSocket : StartCalls where
  access := 0
  fork := 0
  setsid := 1
  devNull := [0, 1, 2]
  epollCreate1 := 3
  socket := -1
  setsockopt := 0
  bind := fun _ => 0
  listen := 0
  epollCtl := fun fd => if fd < 0 then -1 else 0
  pipe := 0
  readPipe := 4
  writePipe := 5
  sigaction := 0
  clock := 0

/-- The file of a proxy that serves everybody, and no socket: the program runs, and waits in vain. -/
theorem start_up_noSocket : ∃ settings state,
    main (adsFiles true) (fun _ => ([], [])) noSocket none [0, 1, 2] = .loops settings state ∧
      ¬ state.Initial ∧
      ∀ {history : LoopHistory} {loop : EventLoop},
        Run (startedLoop settings state) (fun _ _ => True) history loop →
          loop.state.sessions.sessionList = [] := by
  have kernel : Kernel noSocket := by
    refine ⟨fun fd negative => if_pos negative, fun created => ?_⟩
    exact absurd created (by decide)
  have silent : ¬ Listens noSocket := by decide
  have reached : main (adsFiles true) (fun _ => ([], [])) noSocket none [0, 1, 2] =
      .loops (adsSettings true) { empty [4, 5, 3, 0, 1, 2] 0 with sockets := [.command 4] } := by rfl
  obtain ⟨initial, deaf, -⟩ := start_up kernel reached
  exact ⟨_, _, reached, fun isInitial => silent (initial.mp isInitial).1, fun run => (deaf silent run).1⟩

end Start

end NermalProxy
