import NermalProxy.Ledger
import NermalProxy.Proxy

/-! # The life cycle of sessions

The ledger of a state of the proxy.  Every step of the proxy is simulated by steps of
the ledger, so the books are in order in every reachable state. -/

namespace NermalProxy

open NermalProxy.CString NermalProxy.KeyedList NermalProxy.Config NermalProxy.Transition

def Task.sessionId : Task → Nat
  | .asyncDetector sessionId => sessionId
  | .asyncConnector sessionId => sessionId

def Message.sessionId : Message → Nat
  | .hostDetectResult sessionId _ => sessionId
  | .hostConnectResult sessionId _ _ => sessionId

/-- The origin descriptor that comes with the message. -/
def Message.held : Message → Option Fd
  | .hostConnectResult _ proxyFd true => some proxyFd
  | _ => none

/-- The session whose result message the worker still has to write. -/
def Worker.owes (worker : Worker) : Option Nat :=
  if worker.replied then none else some worker.sessionId

def Pc.held : Pc → Option Fd
  | .connect sockFd _ => some sockFd
  | .resend sockFd => some sockFd
  | .setOptions sockFd => some sockFd
  | .connectReply sockFd => some sockFd
  | _ => none

def Worker.held (worker : Worker) : Option Fd := worker.pc.held

def ClientSocket.link (socket : ClientSocket) : End :=
  ⟨socket.sessionId, socket.socketFd, socket.peerFd⟩

/-- The client's end of the pair. -/
def ClientSocket.clientEnd (socket : ClientSocket) : End :=
  if socket.isClientToProxy then socket.link else socket.link.mirror

/-- The relay sockets of one direction. -/
def Socket.end? (isClientToProxy : Bool) : Socket → Option End
  | .client socket => if socket.isClientToProxy = isClientToProxy then some socket.link else none
  | _ => none

def Socket.fixedFd : Socket → Option Fd
  | .client _ => none
  | .server fd => some fd
  | .command fd => some fd

namespace State

def ledger (state : State) : Ledger where
  nextId := state.sessions.sessionId
  sessions := state.sessions.keys
  loose := (state.queue : Multiset Task).map Task.sessionId +
    (state.workers : Multiset Worker).filterMap Worker.owes +
    (state.pipe : Multiset Message).map Message.sessionId
  clientEnds := (state.sockets : Multiset Socket).filterMap (Socket.end? true)
  serverEnds := (state.sockets : Multiset Socket).filterMap (Socket.end? false)
  held := (state.workers : Multiset Worker).filterMap Worker.held +
    (state.pipe : Multiset Message).filterMap Message.held
  fixed := (state.sockets : Multiset Socket).filterMap Socket.fixedFd
  openFds := state.openFds

variable {state next : State} {settings : Settings}

theorem coe_snoc {α : Type*} (list : List α) (x : α) :
    ((list ++ [x] : List α) : Multiset α) = x ::ₘ (list : Multiset α) := by
  rw [Multiset.cons_coe]
  exact Multiset.coe_eq_coe.mpr (List.perm_append_singleton x list)

theorem coe_eraseIdx {α : Type*} {list : List α} {index : Nat} {x : α} (at_ : list[index]? = some x) :
    (list : Multiset α) = x ::ₘ (list.eraseIdx index : Multiset α) := by
  obtain ⟨inside, rfl⟩ := List.getElem?_eq_some_iff.mp at_
  rw [Multiset.cons_coe]
  exact Multiset.coe_eq_coe.mpr (List.getElem_cons_eraseIdx_perm inside).symm

theorem coe_set {α : Type*} {list : List α} {index : Nat} {x : α} (at_ : list[index]? = some x)
    (y : α) : (list.set index y : Multiset α) = y ::ₘ (list.eraseIdx index : Multiset α) := by
  obtain ⟨inside, rfl⟩ := List.getElem?_eq_some_iff.mp at_
  rw [Multiset.cons_coe]
  exact Multiset.coe_eq_coe.mpr (List.set_perm_cons_eraseIdx inside y)

/-! ## Sessions and descriptors -/

@[simp] theorem ledger_respond (fd : Fd) (response : Bytes) :
    (state.respond fd response).ledger = state.ledger := rfl

theorem ledger_close (fd : Fd) :
    (state.close fd).ledger = { state.ledger with openFds := state.ledger.openFds.erase fd } := by
  simp only [ledger, close, Multiset.coe_erase]

theorem ledger_updateSession {sessionId : Nat} {change : Session → Session}
    (unchanged : ∀ x, (change x).key = x.key) :
    (state.updateSession sessionId change).ledger = state.ledger := by
  simp only [ledger, updateSession, SessionManager.update_keys unchanged]
  rfl

theorem sessions_eq_cons {sessionId : Nat} {session : Session}
    (found : state.getSession sessionId = some session) (settings : Settings) (now : UInt64) :
    state.ledger.sessions = session.key ::ₘ (state.endSession settings now sessionId).ledger.sessions := by
  have perm := (perm_cons_remove found).map Session.key
  simp only [ledger, endSession, SessionManager.endSession_list, SessionManager.keys, Multiset.cons_coe]
  exact Multiset.coe_eq_coe.mpr perm

theorem ledger_endSession {sessionId : Nat} (now : UInt64) :
    (state.endSession settings now sessionId).ledger =
      { state.ledger with sessions := (state.endSession settings now sessionId).ledger.sessions } := by
  simp only [ledger, endSession, SessionManager.endSession_list]

theorem take_ledger (taken : state.take = some next) : next.ledger = state.ledger := by
  unfold take at taken
  cases queue : state.queue with
  | nil => simp [queue] at taken
  | cons task rest =>
    simp only [queue] at taken
    split at taken
    · cases taken
      have owes : task.worker.owes = some task.sessionId := by cases task <;> rfl
      have held : task.worker.held = none := by cases task <;> rfl
      simp only [ledger, queue, ← Multiset.cons_coe, coe_snoc, Multiset.map_cons,
        Multiset.filterMap_cons_some _ _ _ owes, Multiset.filterMap_cons_none _ _ held,
        Multiset.cons_add, Multiset.add_cons]
    · cases taken

/-! ## Worker steps -/

/-- What no worker step changes. -/
structure SameFrame (state next : State) : Prop where
  queue : next.queue = state.queue
  workers : next.workers = state.workers
  sockets : next.sockets = state.sockets
  nextId : next.sessions.sessionId = state.sessions.sessionId
  keys : next.sessions.keys = state.sessions.keys

/-- What a worker step does to the session's token and to the descriptor the worker holds. -/
inductive Handling (worker : Worker) (state next : State) : Option Pc → Prop
  | move {pc : Pc} (owing : worker.replied = false) (stillOwing : pc ≠ .clearCache)
      (held : pc.held = worker.held ∨ pc.held = none) (pipe : next.pipe = state.pipe)
      (openFds : next.openFds = state.openFds) : Handling worker state next (some pc)
  | openSocket {sockFd : Fd} {addresses : List HostInfoCache.HostInfo}
      (owing : worker.replied = false) (held : worker.held = none)
      (unused : sockFd ∉ state.openFds) (pipe : next.pipe = state.pipe)
      (openFds : next.openFds = sockFd :: state.openFds) :
      Handling worker state next (some (.connect sockFd addresses))
  | reply {after : Option Pc} {message : Message} (owing : worker.replied = false)
      (addressed : message.sessionId = worker.sessionId) (held : message.held = worker.held)
      (done : after = none ∨ after = some .clearCache) (pipe : next.pipe = state.pipe ++ [message])
      (openFds : next.openFds = state.openFds) : Handling worker state next after
  | leave (settled : worker.replied = true) (held : worker.held = none)
      (pipe : next.pipe = state.pipe) (openFds : next.openFds = state.openFds) :
      Handling worker state next none

theorem SameFrame.refl (state : State) : SameFrame state state := ⟨rfl, rfl, rfl, rfl, rfl⟩

theorem SameFrame.update (state : State) (sessionId : Nat) {change : Session → Session}
    (unchanged : ∀ x, (change x).key = x.key) :
    SameFrame state (state.updateSession sessionId change) :=
  ⟨rfl, rfl, rfl, rfl, SessionManager.update_keys unchanged⟩

theorem step_frame {worker : Worker} {input : Input} {after : Option Pc}
    (stepped : worker.step input state = some (next, after)) : SameFrame state next := by
  have steps := Worker.steps_of_step stepped
  obtain ⟨sessionId, pc⟩ := worker
  cases steps with
  | setHost => exact .update state _ (fun _ => rfl)
  | setPort => exact .update state _ (fun _ => rfl)
  | setRequest => exact .update state _ (fun _ => rfl)
  | setTransparent => exact .update state _ (fun _ => rfl)
  | _ => exact ⟨rfl, rfl, rfl, rfl, rfl⟩

theorem step_handling {worker : Worker} {input : Input} {after : Option Pc}
    (stepped : worker.step input state = some (next, after)) : Handling worker state next after := by
  have steps := Worker.steps_of_step stepped
  obtain ⟨sessionId, pc⟩ := worker
  cases steps with
  | detectReply => exact .reply rfl rfl rfl (.inl rfl) rfl rfl
  | socket unused => exact .openSocket rfl rfl unused rfl rfl
  | exhausted => exact .move rfl (by simp) (.inr rfl) rfl rfl
  | abort => exact .reply rfl rfl rfl (.inl rfl) rfl rfl
  | giveUp => exact .reply rfl rfl rfl (.inr rfl) rfl rfl
  | clearCache => exact .leave rfl rfl rfl rfl
  | connectReply => exact .reply rfl rfl rfl (.inl rfl) rfl rfl
  | _ => exact .move rfl (by simp) (.inl rfl) rfl rfl

/-- The ledger with other entries in the parts that the workers and the pipe contribute to. -/
def withWork (state : State) (loose : Multiset Nat) (held openFds : Multiset Fd) : Ledger :=
  { state.ledger with loose, held, openFds }

theorem ledger_of_frame (frame : SameFrame state next) (workers : List Worker) :
    ({ next with workers } : State).ledger =
      withWork state
        ((state.queue : Multiset Task).map Task.sessionId +
          (workers : Multiset Worker).filterMap Worker.owes +
          (next.pipe : Multiset Message).map Message.sessionId)
        ((workers : Multiset Worker).filterMap Worker.held +
          (next.pipe : Multiset Message).filterMap Message.held)
        next.openFds := by
  simp only [ledger, withWork, frame.queue, frame.sockets, frame.nextId, frame.keys]

theorem owes_of_owing {worker : Worker} (owing : worker.replied = false) :
    worker.owes = some worker.sessionId := by
  simp [Worker.owes, owing]

theorem owes_of_replied {worker : Worker} (settled : worker.replied = true) : worker.owes = none := by
  simp [Worker.owes, settled]

/-- A worker that only moves on keeps its token, and its descriptor or leaks it. -/
theorem work_move {index : Nat} {worker : Worker} (at_ : state.workers[index]? = some worker)
    (frame : SameFrame state next) {pc : Pc} (owing : worker.replied = false)
    (stillOwing : pc ≠ .clearCache) (held : pc.held = worker.held ∨ pc.held = none)
    (pipe : next.pipe = state.pipe) (openFds : next.openFds = state.openFds) :
    Relation.ReflTransGen Ledger.Step state.ledger
      ({ next with workers := next.workers.set index { worker with pc } } : State).ledger := by
  have moved : ({ worker with pc } : Worker).owes = some worker.sessionId :=
    owes_of_owing (by simpa [Worker.replied] using stillOwing)
  rw [ledger_of_frame frame, ledger_of_frame (SameFrame.refl state) state.workers, frame.workers,
    coe_set at_, coe_eraseIdx at_, Multiset.filterMap_cons_some _ _ _ moved,
    Multiset.filterMap_cons_some _ _ _ (owes_of_owing owing), pipe, openFds,
    Multiset.filterMap_cons Worker.held, Multiset.filterMap_cons Worker.held]
  rcases held with same | dropped
  · have sameHeld : ({ worker with pc } : Worker).held = worker.held := same
    rw [sameHeld]
  · have noHeld : ({ worker with pc } : Worker).held = none := dropped
    rw [noHeld]
    apply Relation.ReflTransGen.single
    apply Ledger.Step.leak
    simp only [Option.map_none, Option.getD_none, Multiset.zero_add]
    exact Multiset.add_le_add_right (Multiset.le_add_left _ _)

theorem work_openSocket {index : Nat} {worker : Worker} (at_ : state.workers[index]? = some worker)
    (frame : SameFrame state next) {sockFd : Fd} {addresses : List HostInfoCache.HostInfo}
    (owing : worker.replied = false) (held : worker.held = none) (unused : sockFd ∉ state.openFds)
    (pipe : next.pipe = state.pipe) (openFds : next.openFds = sockFd :: state.openFds) :
    Ledger.Step state.ledger
      ({ next with
        workers := next.workers.set index { worker with pc := .connect sockFd addresses } } :
          State).ledger := by
  have holds : ({ worker with pc := .connect sockFd addresses } : Worker).held = some sockFd := rfl
  have moved : ({ worker with pc := .connect sockFd addresses } : Worker).owes =
      some worker.sessionId := owes_of_owing rfl
  rw [ledger_of_frame frame, ledger_of_frame (SameFrame.refl state) state.workers, frame.workers,
    coe_set at_, coe_eraseIdx at_, Multiset.filterMap_cons_some _ _ _ moved,
    Multiset.filterMap_cons_some _ _ _ (owes_of_owing owing), pipe, openFds,
    Multiset.filterMap_cons_some _ _ _ holds, Multiset.filterMap_cons_none _ _ held,
    Multiset.cons_add, ← Multiset.cons_coe]
  exact Ledger.Step.hold (by simpa [withWork] using unused)

/-- The reply carries the worker's token and its descriptor. -/
theorem work_reply {index : Nat} {worker : Worker} (at_ : state.workers[index]? = some worker)
    (frame : SameFrame state next) {message : Message} (owing : worker.replied = false)
    (addressed : message.sessionId = worker.sessionId) (held : message.held = worker.held)
    (pipe : next.pipe = state.pipe ++ [message]) (openFds : next.openFds = state.openFds)
    {workers : List Worker}
    (owes : (workers : Multiset Worker).filterMap Worker.owes =
      (state.workers.eraseIdx index : Multiset Worker).filterMap Worker.owes)
    (heldAfter : (workers : Multiset Worker).filterMap Worker.held =
      (state.workers.eraseIdx index : Multiset Worker).filterMap Worker.held) :
    ({ next with workers } : State).ledger = state.ledger := by
  rw [ledger_of_frame frame, ledger_of_frame (SameFrame.refl state) state.workers, owes, heldAfter,
    coe_eraseIdx at_, Multiset.filterMap_cons_some _ _ _ (owes_of_owing owing), pipe, openFds,
    coe_snoc, Multiset.map_cons, addressed, Multiset.filterMap_cons Worker.held,
    Multiset.filterMap_cons Message.held, held]
  congr 1
  · simp only [Multiset.add_cons, Multiset.cons_add]
  · rw [← Multiset.add_assoc, Multiset.add_comm (Multiset.filterMap _ _)]

theorem work_ledger {index : Nat} {input : Input} (worked : state.work index input = some next) :
    Relation.ReflTransGen Ledger.Step state.ledger next.ledger := by
  obtain ⟨worker, shared, after, at_, stepped, rfl⟩ := exists_of_work worked
  have frame := step_frame stepped
  cases step_handling stepped with
  | move owing stillOwing held pipe openFds =>
    exact work_move at_ frame owing stillOwing held pipe openFds
  | openSocket owing held unused pipe openFds =>
    exact .single (work_openSocket at_ frame owing held unused pipe openFds)
  | reply owing addressed held done pipe openFds =>
    have kept : ({ shared with workers := placed index worker shared.workers after } : State).ledger =
        state.ledger := by
      rcases done with rfl | rfl
      · exact work_reply at_ frame owing addressed held pipe openFds
          (by rw [placed, frame.workers]) (by rw [placed, frame.workers])
      · refine work_reply at_ frame owing addressed held pipe openFds ?_ ?_
        · rw [placed, frame.workers, coe_set at_]
          exact Multiset.filterMap_cons_none _ _ rfl
        · rw [placed, frame.workers, coe_set at_]
          exact Multiset.filterMap_cons_none _ _ rfl
    rw [kept]
  | leave settled held pipe openFds =>
    have kept : ({ shared with workers := shared.workers.eraseIdx index } : State).ledger =
        state.ledger := by
      rw [ledger_of_frame frame, ledger_of_frame (SameFrame.refl state) state.workers,
        frame.workers, coe_eraseIdx at_, Multiset.filterMap_cons_none _ _ held,
        Multiset.filterMap_cons_none _ _ (owes_of_replied settled), pipe, openFds]
    exact kept ▸ .refl

/-! ## New clients -/

theorem getSession_key {sessionId : Nat} {session : Session}
    (found : state.getSession sessionId = some session) :
    (sessionId, session.clientFd) ∈ state.ledger.sessions := by
  have member := List.mem_map_of_mem (f := Session.key) (SessionManager.mem_of_getSession found)
  rwa [Session.key, SessionManager.getSession_sessionId found] at member

/-- A new descriptor belongs to no live session, so the lookup behind `CreateSession` finds the
session it has just added. -/
theorem createSession_new (sound : state.ledger.Sound) {clientFd : Fd}
    (unused : clientFd ∉ state.openFds) (storage : SessionStorage) (now : UInt64) :
    (state.sessions.createSession storage clientFd now).2 =
      some (Session.make storage clientFd state.sessions.sessionId now) := by
  have noOwner : lookup Session.clientFd clientFd state.sessions.sessionList = none := by
    apply lookup_eq_none.mpr
    rintro session member rfl
    have owned : session.clientFd ∈ state.ledger.owned := by
      have inKeys : session.key ∈ state.ledger.sessions := List.mem_map_of_mem member
      have isFd := Multiset.mem_map_of_mem Prod.snd inKeys
      simp only [Ledger.owned, Multiset.mem_add]
      exact .inl (.inl (.inl isFd))
    exact unused (sound.owned_open _ owned)
  simp only [SessionManager.createSession, SessionManager.getSessionForClient, lookup_append, noOwner,
    lookup_cons]
  simp [Session.make]

theorem accept_ledger (sound : state.ledger.Sound) {clientFd : Fd} (unused : clientFd ∉ state.openFds)
    {storage : SessionStorage} {now : UInt64} {clientIp : Bytes}
    (handled : SocketManager.handleServerSocketRead storage now clientFd clientIp state = some next) :
    Ledger.Step state.ledger next.ledger := by
  simp only [SocketManager.handleServerSocketRead, createSession_new sound unused,
    Option.some.injEq] at handled
  subst handled
  have keys : (state.sessions.createSession storage clientFd now).1.keys =
      state.sessions.keys ++ [(state.sessions.sessionId, clientFd)] := by
    simp [SessionManager.createSession, SessionManager.keys, Session.make, Session.key]
  have created : ∀ change : Session → Session, (∀ x, (change x).key = x.key) →
      ((State.updateSession
        { state with
          sessions := (state.sessions.createSession storage clientFd now).1
          openFds := clientFd :: state.openFds } state.sessions.sessionId change).dispatch
        (.asyncDetector state.sessions.sessionId)).ledger =
      { state.ledger with
        nextId := state.sessions.sessionId + 1
        sessions := (state.sessions.sessionId, clientFd) ::ₘ state.ledger.sessions
        loose := state.sessions.sessionId ::ₘ state.ledger.loose
        openFds := clientFd ::ₘ state.ledger.openFds } := by
    intro change unchanged
    simp only [ledger, dispatch, updateSession, SessionManager.update_keys unchanged, keys, coe_snoc,
      Multiset.map_cons, Multiset.cons_add, ← Multiset.cons_coe]
    rfl
  have ledger_next := created (fun session => session.setClientAddress clientIp) (fun _ => rfl)
  exact ledger_next ▸ Ledger.Step.create (by simpa [ledger] using unused)

/-! ## Messages -/

/-- A message in the pipe is a token; taking it out leaves the rest of the ledger. -/
theorem ledger_pipe {message : Message} {rest : List Message} (pipe : state.pipe = message :: rest) :
    state.ledger =
      { ({ state with pipe := rest } : State).ledger with
        loose := message.sessionId ::ₘ ({ state with pipe := rest } : State).ledger.loose
        held := ((message.held).map singleton).getD 0 +
          ({ state with pipe := rest } : State).ledger.held } := by
  simp only [ledger, pipe, ← Multiset.cons_coe, Multiset.map_cons, Multiset.add_cons,
    Multiset.filterMap_cons Message.held, Ledger.mk.injEq, true_and, and_true]
  rw [← Multiset.add_assoc, ← Multiset.add_assoc, Multiset.add_comm (Multiset.filterMap _ _)]

/-- A rejection spends the token, closes the client's descriptor and ends the session. -/
theorem reject_ledger {message : Message} {rest : List Message} (pipe : state.pipe = message :: rest)
    {current : State} (popped : current.ledger = ({ state with pipe := rest } : State).ledger)
    (noHeld : message.held = none) {session found : Session}
    (search : current.getSession message.sessionId = some found) (same : session.key = found.key)
    (now : UInt64) (response : Bytes) :
    Ledger.Step state.ledger (SocketManager.reject settings now session response current).ledger := by
  have identity : session.sessionId = message.sessionId ∧ session.clientFd = found.clientFd := by
    simp only [Session.key, Prod.mk.injEq] at same
    exact ⟨same.1.trans (SessionManager.getSession_sessionId search), same.2⟩
  have closed : ((current.respond session.clientFd response).close session.clientFd).ledger =
      { ({ state with pipe := rest } : State).ledger with
        openFds := state.ledger.openFds.erase session.clientFd } := by
    rw [ledger_close, ledger_respond, popped]
    rfl
  have books := ledger_pipe pipe
  rw [noHeld, Option.map_none, Option.getD_none, Multiset.zero_add] at books
  have ended := sessions_eq_cons (show ((current.respond session.clientFd response).close
    session.clientFd).getSession message.sessionId = some found from search) settings now
  rw [closed, show found.key = (message.sessionId, session.clientFd) by
    rw [← same, Session.key, identity.1]] at ended
  have token : state.ledger.loose =
      message.sessionId ::ₘ ({ state with pipe := rest } : State).ledger.loose := by rw [books]
  have step := Ledger.Step.finish (show state.ledger.sessions = _ ::ₘ _ from ended) token
  have rejected : (SocketManager.reject settings now session response current).ledger =
      { state.ledger with
        sessions := (SocketManager.reject settings now session response current).ledger.sessions
        loose := ({ state with pipe := rest } : State).ledger.loose
        openFds := state.ledger.openFds.erase session.clientFd } := by
    rw [SocketManager.reject, ledger_endSession, closed, books]
  rw [SocketManager.reject, identity.1] at rejected ⊢
  rw [rejected]
  exact step

theorem connectProxy_ledger {sessionId : Nat}
    (connected : SocketManager.connectProxy settings sessionId state = some next) :
    next.ledger = { state.ledger with loose := sessionId ::ₘ state.ledger.loose } := by
  unfold SocketManager.connectProxy at connected
  split at connected
  · cases connected
  · split at connected
    · cases connected
      simp only [ledger, writeMessage, coe_snoc, Multiset.map_cons, Multiset.add_cons,
        Message.sessionId]
      rfl
    · cases connected
      simp only [ledger, dispatch, coe_snoc, Multiset.map_cons, Multiset.cons_add, Task.sessionId]

theorem setVerdictName_key (verdict : SocketManager.Verdict) (session : Session) :
    (SocketManager.setVerdictName verdict session).key = session.key := by
  unfold SocketManager.setVerdictName
  cases verdict.userName with
  | none => rfl
  | some userName => rfl

theorem getSession_update_key {sessionId : Nat} {session : Session} {change : Session → Session}
    (unchanged : ∀ x, (change x).key = x.key) (found : state.getSession sessionId = some session) :
    (state.updateSession sessionId change).getSession sessionId = some (change session) := by
  have updated : (state.sessions.update sessionId change).getSession sessionId =
      (state.sessions.getSession sessionId).map change :=
    SessionManager.getSession_update_same unchanged
  unfold getSession at found
  rw [found] at updated
  exact updated

theorem ledger_addClient (clientFd proxyFd : Fd) (sessionId : Nat) :
    (SocketManager.addSocket true (.client (.make clientFd proxyFd sessionId true)) state).ledger =
      { state.ledger with clientEnds := ⟨sessionId, clientFd, proxyFd⟩ ::ₘ state.ledger.clientEnds } := by
  simp only [ledger, SocketManager.addSocket, if_true, coe_snoc]
  rw [Multiset.filterMap_cons_some (Socket.end? true) _ _ rfl,
    Multiset.filterMap_cons_none _ _ rfl, Multiset.filterMap_cons_none _ _ rfl]
  rfl

theorem ledger_addServer (proxyFd clientFd : Fd) (sessionId : Nat) :
    (SocketManager.addSocket true (.client (.make proxyFd clientFd sessionId false)) state).ledger =
      { state.ledger with serverEnds := ⟨sessionId, proxyFd, clientFd⟩ ::ₘ state.ledger.serverEnds } := by
  simp only [ledger, SocketManager.addSocket, if_true, coe_snoc]
  rw [Multiset.filterMap_cons_some (Socket.end? false) _ _ rfl,
    Multiset.filterMap_cons_none _ _ rfl, Multiset.filterMap_cons_none _ _ rfl]
  rfl

/-- A successful connection turns the message's token into a pair of sockets. -/
theorem register_ledger {sessionId : Nat} {proxyFd : Fd} {rest : List Message}
    (pipe : state.pipe = .hostConnectResult sessionId proxyFd true :: rest) {session : Session}
    (found : state.getSession sessionId = some session) :
    Ledger.Step state.ledger
      (SocketManager.addSocket true (.client (.make proxyFd session.clientFd sessionId false))
        (SocketManager.addSocket true (.client (.make session.clientFd proxyFd sessionId true))
          { state with pipe := rest })).ledger := by
  have books := ledger_pipe pipe
  have token : state.ledger.loose = sessionId ::ₘ ({ state with pipe := rest } : State).ledger.loose :=
    congrArg Ledger.loose books
  have holds : state.ledger.held = proxyFd ::ₘ ({ state with pipe := rest } : State).ledger.held := by
    rw [← Multiset.singleton_add]
    exact congrArg Ledger.held books
  rw [ledger_addServer, ledger_addClient]
  exact Ledger.Step.link (getSession_key found) token holds

theorem message_ledger {message : Message} {rest : List Message}
    (pipe : state.pipe = message :: rest) {localTime : Option LocalTime} {now : UInt64}
    (handled : SocketManager.handleMessage settings localTime now (true, true) message
      { state with pipe := rest } = some next) :
    Relation.ReflTransGen Ledger.Step state.ledger next.ledger := by
  cases message with
  | hostDetectResult sessionId success =>
    simp only [SocketManager.handleMessage] at handled
    cases search : State.getSession { state with pipe := rest } sessionId with
    | none => simp [search] at handled
    | some session =>
      simp only [search] at handled
      cases success with
      | false =>
        cases handled
        exact .single (reject_ledger pipe rfl rfl search rfl now _)
      | true =>
        simp only [Bool.true_eq_false, if_false] at handled
        have unchanged := setVerdictName_key (SocketManager.authorize settings localTime session)
        split at handled
        · cases handled
          exact .single (reject_ledger pipe (ledger_updateSession unchanged) rfl
            (getSession_update_key unchanged search) (unchanged session).symm now _)
        · have connected := connectProxy_ledger handled
          rw [ledger_updateSession unchanged] at connected
          have same : next.ledger = state.ledger := by
            rw [connected, ledger_pipe pipe]
            simp [Message.held, Message.sessionId]
          rw [same]
  | hostConnectResult sessionId proxyFd success =>
    simp only [SocketManager.handleMessage] at handled
    cases search : State.getSession { state with pipe := rest } sessionId with
    | none => simp [search] at handled
    | some session =>
      simp only [search] at handled
      cases success with
      | false =>
        cases handled
        exact .single (reject_ledger pipe rfl rfl search rfl now _)
      | true =>
        cases handled
        exact .single (register_ledger pipe search)

/-! ## Relay sockets -/

theorem fds_eq (sockets : List Socket) :
    ((sockets.map Socket.fd : List Fd) : Multiset Fd) =
      ((sockets : Multiset Socket).filterMap (Socket.end? true)).map End.fd +
      ((sockets : Multiset Socket).filterMap (Socket.end? false)).map End.fd +
      (sockets : Multiset Socket).filterMap Socket.fixedFd := by
  induction sockets with
  | nil => rfl
  | cons socket sockets inductionHypothesis =>
    rw [List.map_cons, ← Multiset.cons_coe, inductionHypothesis, ← Multiset.cons_coe]
    cases socket with
    | server fd | command fd =>
      rw [Multiset.filterMap_cons_none _ _ rfl, Multiset.filterMap_cons_none _ _ rfl,
        Multiset.filterMap_cons_some Socket.fixedFd _ _ rfl]
      simp only [Multiset.add_cons]
      rfl
    | client socket =>
      cases direction : socket.isClientToProxy with
      | true =>
        have isEnd : Socket.end? true (.client socket) = some socket.link := by
          simp [Socket.end?, direction]
        have notEnd : Socket.end? false (.client socket) = none := by simp [Socket.end?, direction]
        rw [Multiset.filterMap_cons_some _ _ _ isEnd, Multiset.filterMap_cons_none _ _ notEnd,
          Multiset.filterMap_cons_none _ _ rfl]
        simp only [Multiset.map_cons, Multiset.cons_add]
        rfl
      | false =>
        have notEnd : Socket.end? true (.client socket) = none := by simp [Socket.end?, direction]
        have isEnd : Socket.end? false (.client socket) = some socket.link := by
          simp [Socket.end?, direction]
        rw [Multiset.filterMap_cons_none _ _ notEnd, Multiset.filterMap_cons_some _ _ _ isEnd,
          Multiset.filterMap_cons_none _ _ rfl]
        simp only [Multiset.map_cons, Multiset.add_cons, Multiset.cons_add]
        rfl

theorem clientEnds_fds_le (sound : state.ledger.Sound) :
    state.ledger.clientEnds.map End.fd ≤ state.ledger.sessions.map Prod.snd := by
  have ids_nodup : (state.ledger.clientEnds.map End.sessionId).Nodup := by
    have nodup := sound.ids_nodup
    rw [← sound.tokens_eq] at nodup
    exact Multiset.nodup_of_le (Multiset.le_add_left _ _) nodup
  have keys_nodup : (state.ledger.clientEnds.map (fun e => (e.sessionId, e.fd))).Nodup := by
    apply Multiset.Nodup.of_map Prod.fst
    rwa [Multiset.map_map]
  have keys_le : state.ledger.clientEnds.map (fun e => (e.sessionId, e.fd)) ≤ state.ledger.sessions := by
    rw [Multiset.le_iff_subset keys_nodup]
    intro key member
    obtain ⟨e, isEnd, rfl⟩ := Multiset.mem_map.mp member
    exact sound.linked e isEnd
  have fds_le := Multiset.map_le_map (f := Prod.snd) keys_le
  rwa [Multiset.map_map] at fds_le

/-- No two registered sockets have the same descriptor. -/
theorem fds_nodup (sound : state.ledger.Sound) : (state.sockets.map Socket.fd).Nodup := by
  rw [← Multiset.coe_nodup, fds_eq]
  refine Multiset.nodup_of_le ?_ sound.owned_nodup
  apply Multiset.add_le_add_right
  exact (Multiset.add_le_add_right (clientEnds_fds_le sound)).trans (Multiset.le_add_right _ _)

theorem mem_ends {isClientToProxy : Bool} {sockets : List Socket} {e : End} :
    e ∈ (sockets : Multiset Socket).filterMap (Socket.end? isClientToProxy) ↔
      ∃ socket : ClientSocket, .client socket ∈ sockets ∧ socket.link = e ∧
        socket.isClientToProxy = isClientToProxy := by
  rw [Multiset.mem_filterMap]
  constructor
  · rintro ⟨socket, member, isEnd⟩
    cases socket with
    | server fd => cases isEnd
    | command fd => cases isEnd
    | client socket =>
      simp only [Socket.end?] at isEnd
      split at isEnd
      · rename_i direction
        exact ⟨socket, member, Option.some.inj isEnd, direction⟩
      · cases isEnd
  · rintro ⟨socket, member, rfl, rfl⟩
    exact ⟨.client socket, member, by simp [Socket.end?]⟩

/-- The peer of a registered relay socket is registered. -/
theorem exists_peer (sound : state.ledger.Sound) {socket : ClientSocket}
    (member : .client socket ∈ state.sockets) :
    ∃ peer : ClientSocket, .client peer ∈ state.sockets ∧ peer.link = socket.link.mirror ∧
      peer.isClientToProxy = !socket.isClientToProxy := by
  cases direction : socket.isClientToProxy with
  | true =>
    have isEnd : socket.link ∈ state.ledger.clientEnds := mem_ends.mpr ⟨socket, member, rfl, direction⟩
    have mirror := Multiset.mem_map_of_mem End.mirror isEnd
    rw [sound.mirrored] at mirror
    exact mem_ends.mp mirror
  | false =>
    have isEnd : socket.link ∈ state.ledger.serverEnds := mem_ends.mpr ⟨socket, member, rfl, direction⟩
    rw [← sound.mirrored] at isEnd
    obtain ⟨e, isClientEnd, same⟩ := Multiset.mem_map.mp isEnd
    have back : e = socket.link.mirror := by rw [← same]; rfl
    rw [back] at isClientEnd
    exact mem_ends.mp isClientEnd

theorem getSession_of_key (sound : state.ledger.Sound) {sessionId : Nat} {fd : Fd}
    (member : (sessionId, fd) ∈ state.ledger.sessions) :
    ∃ session, state.getSession sessionId = some session ∧ session.key = (sessionId, fd) := by
  obtain ⟨session, inList, same⟩ := List.mem_map.mp (show (sessionId, fd) ∈ state.sessions.keys from member)
  have ids : (state.sessions.sessionList.map Session.sessionId).Nodup := by
    have nodup := sound.ids_nodup
    simp only [Ledger.ids, ledger, SessionManager.keys, Multiset.map_coe, List.map_map] at nodup
    exact nodup
  have found := lookup_of_mem ids inList
  rw [show session.sessionId = sessionId from congrArg Prod.fst same] at found
  exact ⟨session, found, same⟩

/-- The ledger without a pair of sockets. -/
theorem ledger_pair {socket peer : ClientSocket} {rest : List Socket}
    (perm : state.sockets.Perm (.client socket :: .client peer :: rest))
    (mirror : peer.link = socket.link.mirror) (opposite : peer.isClientToProxy = !socket.isClientToProxy) :
    state.ledger =
      { ({ state with sockets := rest } : State).ledger with
        clientEnds := socket.clientEnd ::ₘ ({ state with sockets := rest } : State).ledger.clientEnds
        serverEnds := socket.clientEnd.mirror ::ₘ
          ({ state with sockets := rest } : State).ledger.serverEnds } := by
  have sockets : (state.sockets : Multiset Socket) =
      .client socket ::ₘ .client peer ::ₘ (rest : Multiset Socket) := by
    simpa using Multiset.coe_eq_coe.mpr perm
  have noFixed : ∀ client : ClientSocket, Socket.fixedFd (.client client) = none := fun _ => rfl
  simp only [ledger, sockets, Multiset.filterMap_cons_none _ _ (noFixed _), Ledger.mk.injEq, true_and,
    and_true]
  cases direction : socket.isClientToProxy with
  | true =>
    have peerDirection : peer.isClientToProxy = false := by simp [opposite, direction]
    have ends : Socket.end? true (.client socket) = some socket.link ∧
        Socket.end? false (.client socket) = none ∧ Socket.end? true (.client peer) = none ∧
        Socket.end? false (.client peer) = some socket.link.mirror := by
      simp [Socket.end?, direction, peerDirection, mirror]
    rw [Multiset.filterMap_cons_some _ _ _ ends.1, Multiset.filterMap_cons_none _ _ ends.2.1,
      Multiset.filterMap_cons_none _ _ ends.2.2.1, Multiset.filterMap_cons_some _ _ _ ends.2.2.2]
    simp [ClientSocket.clientEnd, direction]
  | false =>
    have peerDirection : peer.isClientToProxy = true := by simp [opposite, direction]
    have ends : Socket.end? true (.client socket) = none ∧
        Socket.end? false (.client socket) = some socket.link ∧
        Socket.end? true (.client peer) = some socket.link.mirror ∧
        Socket.end? false (.client peer) = none := by
      simp [Socket.end?, direction, peerDirection, mirror]
    rw [Multiset.filterMap_cons_none _ _ ends.1, Multiset.filterMap_cons_some _ _ _ ends.2.1,
      Multiset.filterMap_cons_some _ _ _ ends.2.2.1, Multiset.filterMap_cons_none _ _ ends.2.2.2]
    simp [ClientSocket.clientEnd, direction, End.mirror]

/-- The peer that the second search of a teardown finds. -/
theorem lookup_peer (sound : state.ledger.Sound) {socket : ClientSocket} {rest : List Socket}
    (perm : state.sockets.Perm (.client socket :: rest)) :
    ∃ peer : ClientSocket, lookup Socket.fd socket.peerFd rest = some (.client peer) ∧
      peer.link = socket.link.mirror ∧ peer.isClientToProxy = !socket.isClientToProxy := by
  have member : .client socket ∈ state.sockets := perm.symm.subset (List.mem_cons_self ..)
  obtain ⟨peer, peerMember, mirror, opposite⟩ := exists_peer sound member
  have peerFd : Socket.fd (.client peer) = socket.peerFd := congrArg End.fd mirror
  have differ : Socket.client peer ≠ .client socket := by
    intro same
    cases same
    cases direction : socket.isClientToProxy <;> simp [direction] at opposite
  have inRest : .client peer ∈ rest := by
    rcases List.mem_cons.mp (perm.subset peerMember) with same | inRest
    · exact absurd same differ
    · exact inRest
  have distinct : (rest.map Socket.fd).Nodup := by
    have nodup := (perm.map Socket.fd).nodup_iff.mp (fds_nodup sound)
    exact (List.nodup_cons.mp nodup).2
  refine ⟨peer, ?_, mirror, opposite⟩
  rw [← peerFd]
  exact lookup_of_mem distinct inRest

/-- A pair is removed: both descriptors are closed, this socket's first. -/
theorem removeSocket_peer {socket peer : ClientSocket} {rest : List Socket}
    (found : lookup Socket.fd socket.peerFd rest = some (.client peer)) :
    SocketManager.removeSocket socket.peerFd
      (SocketManager.destroy (.client socket) { state with sockets := rest }) =
      (State.close { state with sockets := remove Socket.fd socket.peerFd rest }
        socket.socketFd).close socket.peerFd := by
  have peerFd : peer.socketFd = socket.peerFd := Socket.socketFd_of_lookup found
  simp only [SocketManager.removeSocket, SocketManager.destroy, close, found, peerFd]

theorem clientEnd_sessionId (socket : ClientSocket) : socket.clientEnd.sessionId = socket.sessionId := by
  unfold ClientSocket.clientEnd
  split <;> rfl

/-- The session of a pair. -/
theorem getSession_pair (sound : state.ledger.Sound) {socket : ClientSocket}
    (member : socket.clientEnd ∈ state.ledger.clientEnds) :
    ∃ session, state.getSession socket.sessionId = some session ∧
      session.key = (socket.sessionId, socket.clientEnd.fd) := by
  have linked := sound.linked socket.clientEnd member
  rw [clientEnd_sessionId] at linked
  exact getSession_of_key sound linked

theorem unlink_ledger (sound : state.ledger.Sound) {socket : ClientSocket} {rest : List Socket}
    (perm : state.sockets.Perm (.client socket :: rest)) (now : UInt64) :
    Ledger.Step state.ledger
      ((SocketManager.removeSocket socket.peerFd
        (SocketManager.destroy (.client socket) { state with sockets := rest })).endSession settings now
          socket.sessionId).ledger := by
  obtain ⟨peer, found, mirror, opposite⟩ := lookup_peer sound perm
  have pair := perm.trans ((perm_cons_remove found).cons _)
  have books := ledger_pair pair mirror opposite
  have client : state.ledger.clientEnds = socket.clientEnd ::ₘ
      ({ state with sockets := remove Socket.fd socket.peerFd rest } : State).ledger.clientEnds :=
    congrArg Ledger.clientEnds books
  have server : state.ledger.serverEnds = socket.clientEnd.mirror ::ₘ
      ({ state with sockets := remove Socket.fd socket.peerFd rest } : State).ledger.serverEnds :=
    congrArg Ledger.serverEnds books
  obtain ⟨session, search, key⟩ := getSession_pair sound (by rw [client]; exact Multiset.mem_cons_self _ _)
  have sameFds : (state.ledger.openFds.erase socket.clientEnd.fd).erase socket.clientEnd.peerFd =
      (state.ledger.openFds.erase socket.socketFd).erase socket.peerFd := by
    unfold ClientSocket.clientEnd
    split
    · rfl
    · exact Multiset.erase_comm _ _ _
  have ended := sessions_eq_cons (show ((State.close
    { state with sockets := remove Socket.fd socket.peerFd rest } socket.socketFd).close
      socket.peerFd).getSession socket.sessionId = some session from search) settings now
  rw [key, ← clientEnd_sessionId] at ended
  have step := Ledger.Step.unlink (show state.ledger.sessions = _ ::ₘ _ from ended) client server
  have fixed : state.ledger.fixed =
      ({ state with sockets := remove Socket.fd socket.peerFd rest } : State).ledger.fixed := by
    rw [books]
  rw [sameFds, fixed, clientEnd_sessionId] at step
  rw [removeSocket_peer found, ledger_endSession, ledger_close, ledger_close]
  exact step

/-- An event that ends with both sockets in place only changes whether they are active. -/
theorem relayed_ledger {socket after : ClientSocket}
    (found : lookup Socket.fd socket.socketFd state.sockets = some (.client socket))
    (same : ClientSocket.SameSocket socket after) :
    ({ state with
      sockets := adjust Socket.fd socket.socketFd (fun _ => .client after) state.sockets } :
        State).ledger = state.ledger := by
  have before : (state.sockets : Multiset Socket) =
      .client socket ::ₘ (remove Socket.fd socket.socketFd state.sockets : Multiset Socket) :=
    Multiset.coe_eq_coe.mpr (perm_cons_remove found)
  have adjusted : (adjust Socket.fd socket.socketFd (fun _ => .client after) state.sockets :
      Multiset Socket) =
      .client after ::ₘ (remove Socket.fd socket.socketFd state.sockets : Multiset Socket) :=
    Multiset.coe_eq_coe.mpr (perm_cons_adjust found)
  have sameEnd : ∀ direction, Socket.end? direction (.client after) =
      Socket.end? direction (.client socket) := by
    intro direction
    rw [same]
    rfl
  simp only [ledger, adjusted, before, Multiset.filterMap_cons, sameEnd]
  rfl

theorem relay_ledger (sound : state.ledger.Sound) {fd : Fd} {socket : ClientSocket}
    (found : lookup Socket.fd fd state.sockets = some (.client socket)) {now : UInt64}
    {memory : ClientSocket.Memory} {reads : List ReadResult} {writes : List WriteResult}
    (handled : SocketManager.handleClientSocketRead settings now memory reads writes socket state =
      some next) : Relation.ReflTransGen Ledger.Step state.ledger next.ledger := by
  obtain rfl := Socket.socketFd_of_lookup found
  cases SocketManager.relayEnds_of_handled handled with
  | teardown outcome =>
    have removed : SocketManager.removeSocket socket.socketFd state =
        SocketManager.destroy (.client socket)
          { state with sockets := remove Socket.fd socket.socketFd state.sockets } := by
      simp only [SocketManager.removeSocket, found]
    rw [SocketManager.teardown, removed]
    exact .single (unlink_ledger sound (perm_cons_remove found) now)
  | relayed outcome _ =>
    rw [ledger_updateSession, relayed_ledger found (Relay.relay_sameSocket outcome)]
    intro session
    unfold SocketManager.countBytes
    split <;> rfl

/-! ## Timeouts -/

theorem evictOldest_ledger (sound : state.ledger.Sound) {now : UInt64}
    (evicted : SocketManager.evictOldest settings now state = some next) :
    Ledger.Step state.ledger next.ledger := by
  unfold SocketManager.evictOldest at evicted
  split at evicted
  · rename_i socket first
    cases evicted
    exact unlink_ledger sound (perm_cons_eraseP first) now
  · cases evicted

theorem evictions_ledger {pruned : State} (sound : state.ledger.Sound)
    (evictions : Relation.ReflTransGen (SocketManager.Evicts settings) state pruned) :
    Relation.ReflTransGen Ledger.Step state.ledger pruned.ledger := by
  induction evictions with
  | refl => exact .refl
  | tail _ eviction inductionHypothesis =>
    obtain ⟨now, evicted⟩ := eviction
    exact .tail inductionHypothesis
      (evictOldest_ledger (Ledger.steps_sound inductionHypothesis sound) evicted)

theorem timeout_ledger (sound : state.ledger.Sound) {now : Nat → UInt64} {logTime : UInt64}
    (handled : SocketManager.handleTimeout settings now logTime state = some next) :
    Relation.ReflTransGen Ledger.Step state.ledger next.ledger := by
  obtain ⟨pruned, evictions, rfl | rfl⟩ := SocketManager.handleTimeout_evicts handled
  · exact evictions_ledger sound evictions
  · change Relation.ReflTransGen Ledger.Step state.ledger pruned.ledger
    exact evictions_ledger sound evictions

/-! ## Every step -/

/-- The simulation: a step of the proxy is a sequence of steps of the ledger. -/
theorem step_ledger (sound : state.ledger.Sound) {action : Action} (registers : Registers state action)
    (stepped : state.step settings action = some next) :
    Relation.ReflTransGen Ledger.Step state.ledger next.ledger := by
  cases action with
  | accept storage now clientFd clientIp =>
    simp only [step] at stepped
    split at stepped
    · cases stepped
    · rename_i unused
      exact .single (accept_ledger sound unused stepped)
  | command localTime now registered =>
    have both : registered = (true, true) := registers
    subst both
    simp only [step, SocketManager.handleCommandSocketRead] at stepped
    split at stepped
    · cases stepped
    · rename_i pipe
      exact message_ledger pipe stepped
  | relay fd now memory reads writes =>
    simp only [step] at stepped
    split at stepped
    · rename_i found
      exact relay_ledger sound found stepped
    · cases stepped
  | timeout now logTime => exact timeout_ledger sound stepped
  | take =>
    rw [take_ledger stepped]
  | work index input => exact work_ledger stepped

theorem initial_sound (serverFd commandFd : Fd) (openFds : List Fd) (now : UInt64)
    (differ : serverFd ≠ commandFd) (server : serverFd ∈ openFds) (command : commandFd ∈ openFds) :
    (initial serverFd commandFd openFds now).ledger.Sound where
  tokens_eq := rfl
  ids_nodup := Multiset.nodup_zero
  ids_lt id member := absurd member (Multiset.notMem_zero id)
  mirrored := rfl
  linked e member := absurd member (Multiset.notMem_zero e)
  owned_nodup := by
    change ((0 : Multiset Fd) + 0 + (0 + 0) + ([serverFd, commandFd] : List Fd)).Nodup
    simpa using differ
  owned_open := by
    intro fd member
    change fd ∈ (0 : Multiset Fd) + 0 + (0 + 0) + ([serverFd, commandFd] : List Fd) at member
    simp only [Multiset.zero_add, Multiset.mem_coe, List.mem_cons, List.not_mem_nil, or_false] at member
    rcases member with rfl | rfl
    · exact server
    · exact command

/-- The books are in order in every reachable state. -/
theorem run_sound {history : History} (run : Run (proxySystem settings) Registers history state) :
    state.ledger.Sound := by
  apply run.invariant (fun state => state.ledger.Sound)
  · rintro state ⟨serverFd, commandFd, openFds, now, differ, server, command, rfl⟩
    exact initial_sound serverFd commandFd openFds now differ server command
  · exact fun state action next sound registers stepped =>
      Ledger.steps_sound (step_ledger sound registers stepped) sound

end State

end NermalProxy
