import NermalProxy.Descriptors

/-! # Registering a pair

A successful connection is turned into two sockets, each of which `AddSocket` registers or
destroys.  The handler looks at neither result: where one call of `epoll_ctl` fails, the
session is left with half a pair, or with none and its descriptors closed. -/

namespace NermalProxy

open NermalProxy.CString NermalProxy.KeyedList NermalProxy.Config NermalProxy.Transition

/-- Where this step registers a pair, both calls of `epoll_ctl` succeed. -/
def RegistersPairs (state : State) : Action → Prop
  | .command _ _ registered =>
    ∀ sessionId proxyFd rest, state.pipe = .hostConnectResult sessionId proxyFd true :: rest →
      registered = (true, true)
  | _ => True

namespace SocketManager

variable {state : State}

theorem addSocket_sockets (registered : Bool) (socket : ClientSocket) :
    (addSocket registered (.client socket) state).sockets =
      state.sockets ++ if registered then [.client socket] else [] := by
  cases registered with
  | true => rfl
  | false => exact (List.append_nil _).symm

theorem addSocket_getSession (registered : Bool) (socket : ClientSocket) (sessionId : Nat) :
    (addSocket registered (.client socket) state).getSession sessionId = state.getSession sessionId := by
  cases registered <;> rfl

end SocketManager

namespace State

variable {state next : State} {settings : Settings}

/-- The results are only used where a pair is registered. -/
theorem step_registered (settings : Settings) {action : Action}
    (registers : RegistersPairs state action) :
    ∃ same, Registers state same ∧ state.step settings same = state.step settings action := by
  cases action with
  | command localTime now registered =>
    refine ⟨.command localTime now (true, true), rfl, ?_⟩
    simp only [step, SocketManager.handleCommandSocketRead]
    cases pipe : state.pipe with
    | nil => rfl
    | cons message rest =>
      cases message with
      | hostDetectResult sessionId success => rfl
      | hostConnectResult sessionId proxyFd success =>
        cases success with
        | false => rfl
        | true => rw [registers sessionId proxyFd rest pipe]
  | _ =>
    refine ⟨_, ?_, rfl⟩
    trivial

theorem sound_of_registersPairs {history : History}
    (run : Run (proxySystem settings) RegistersPairs history state) :
    state.ledger.Sound := by
  apply run.invariant (fun state => state.ledger.Sound)
  · rintro state ⟨serverFd, commandFd, openFds, now, differ, server, command, rfl⟩
    exact initial_sound serverFd commandFd openFds now differ server command
  · intro state action next sound registers stepped
    obtain ⟨same, registersSame, equal⟩ := step_registered settings registers
    exact Ledger.steps_sound (step_ledger sound registersSame (equal.trans stepped)) sound

/-! ## The outcome -/

/-- Both sockets of the session are registered, or none is, their descriptors are closed and the
session has ended. -/
def RegisteredOrUndone (session : Session) (proxyFd : Fd) (next : State) : Prop :=
  (.client (.make session.clientFd proxyFd session.sessionId true) ∈ next.sockets ∧
    .client (.make proxyFd session.clientFd session.sessionId false) ∈ next.sockets) ∨
  (next.socketsOf session.sessionId = [] ∧ session.clientFd ∉ next.openFds ∧ proxyFd ∉ next.openFds ∧
    next.getSession session.sessionId = none)

/-- No registered relay socket has a peer descriptor that is closed or that is another's. -/
def PeersOwned (state : State) : Prop :=
  ∀ socket, .client socket ∈ state.sockets → socket.peerFd ∈ state.openFds ∧
    ∀ whose, state.Owns socket.peerFd whose → whose = some socket.sessionId

/-- `CreateSession` returns the session it has created. -/
def CreatesNew (state : State) : Prop :=
  ∀ clientFd ∉ state.openFds, ∀ storage now,
    (state.sessions.createSession storage clientFd now).2 =
      some (Session.make storage clientFd state.sessions.sessionId now)

theorem connected_step (settings : Settings) {sessionId : Nat} {proxyFd : Fd} {rest : List Message}
    {session : Session} (pipe : state.pipe = .hostConnectResult sessionId proxyFd true :: rest)
    (found : state.getSession sessionId = some session) (localTime : Option LocalTime) (now : UInt64)
    (registered : Bool × Bool) :
    state.step settings (.command localTime now registered) =
      some (SocketManager.addSocket registered.2 (.client (.make proxyFd session.clientFd sessionId false))
        (SocketManager.addSocket registered.1 (.client (.make session.clientFd proxyFd sessionId true))
          { state with pipe := rest })) := by
  have stillFound : ({ state with pipe := rest } : State).getSession sessionId = some session := found
  simp [step, SocketManager.handleCommandSocketRead, pipe, SocketManager.handleMessage, stillFound]

/-- A session whose message is still in the pipe has no sockets. -/
theorem no_socket_of_message (sound : state.ledger.Sound) {session : Session}
    (live : session ∈ state.sessions.sessionList) (message : session.sessionId ∈ state.messageIds) :
    state.socketsOf session.sessionId = [] := by
  have pending := List.count_pos_iff.mpr message
  cases situation sound live with
  | inTask _ noMessage _ => omega
  | inMessage _ _ noSocket => exact noSocket
  | relaying _ noMessage => omega

theorem registeredOrUndone_iff (sound : state.ledger.Sound) {sessionId : Nat} {proxyFd : Fd}
    {rest : List Message} {session : Session}
    (pipe : state.pipe = .hostConnectResult sessionId proxyFd true :: rest)
    (found : state.getSession sessionId = some session) {localTime : Option LocalTime} {now : UInt64}
    {registered : Bool × Bool}
    (stepped : state.step settings (.command localTime now registered) = some next) :
    RegisteredOrUndone session proxyFd next ↔ registered = (true, true) := by
  have named := SessionManager.getSession_sessionId found
  subst named
  rw [connected_step settings pipe found] at stepped
  cases stepped
  have none : state.socketsOf session.sessionId = [] :=
    no_socket_of_message sound (SessionManager.mem_of_getSession found) (by simp [messageIds, pipe, Message.sessionId])
  have unregistered : ∀ socket : ClientSocket, socket.sessionId = session.sessionId →
      .client socket ∉ state.sockets := by
    intro socket same member
    have inSockets := mem_socketsOf.mpr ⟨member, same⟩
    simp [none] at inSockets
  have noClient := unregistered (.make session.clientFd proxyFd session.sessionId true) rfl
  have noProxy := unregistered (.make proxyFd session.clientFd session.sessionId false) rfl
  have live : ¬ (SocketManager.addSocket registered.2
      (.client (.make proxyFd session.clientFd session.sessionId false))
      (SocketManager.addSocket registered.1 (.client (.make session.clientFd proxyFd session.sessionId true))
        { state with pipe := rest })).getSession session.sessionId = Option.none := by
    rw [SocketManager.addSocket_getSession, SocketManager.addSocket_getSession]
    change ¬ state.getSession session.sessionId = Option.none
    rw [found]
    simp
  obtain ⟨client, proxy⟩ := registered
  simp only [RegisteredOrUndone, live, and_false, or_false, SocketManager.addSocket_sockets]
  have differ : Socket.client (.make session.clientFd proxyFd session.sessionId true) ≠
      .client (.make proxyFd session.clientFd session.sessionId false) := by
    simp [ClientSocket.make]
  cases client <;> cases proxy <;> simp [noClient, noProxy, differ, differ.symm]

theorem peersOwned (sound : state.ledger.Sound) : PeersOwned state := by
  intro socket registered
  obtain ⟨peer, peerRegistered, mirror, -⟩ := exists_peer sound registered
  have peerFd : peer.socketFd = socket.peerFd := congrArg End.fd mirror
  have sameId : peer.sessionId = socket.sessionId := congrArg End.sessionId mirror
  have owner := (Owns.socket peerRegistered peerFd).owner sound
  rw [sameId] at owner
  exact ⟨open_of_owners sound owner, fun whose owns => owns.unique sound owner⟩

/-- While the pairs of sockets are registered, no socket is left with a foreign peer; and a pair is
registered, or undone, exactly where both calls succeed. -/
theorem registration {history : History} (run : Run (proxySystem settings) RegistersPairs history state) :
    (∀ sessionId proxyFd rest session,
      state.pipe = .hostConnectResult sessionId proxyFd true :: rest →
      state.getSession sessionId = some session → ∀ localTime now registered,
      ∃ next, state.step settings (.command localTime now registered) = some next ∧
        (RegisteredOrUndone session proxyFd next ↔ registered = (true, true))) ∧
    PeersOwned state ∧ CreatesNew state := by
  have sound := sound_of_registersPairs run
  refine ⟨?_, peersOwned sound, fun clientFd unused storage now => createSession_new sound unused storage now⟩
  intro sessionId proxyFd rest session pipe found localTime now registered
  have stepped := connected_step settings pipe found localTime now registered
  exact ⟨_, stepped, registeredOrUndone_iff sound pipe found stepped⟩

/-- The origin's socket cannot be registered, and is destroyed; the client's stays. -/
theorem registration_failed : ∃ (state next : State) (session : Session),
    state.step ⟨10080, false, [], [], []⟩ (.command none 10 (true, false)) = some next ∧
      ¬ RegisteredOrUndone session 6 next := by
  have executed : ∃ history state session,
      runActions (State.step unrestricted) [] (initial 3 4 [3, 4] 0) connect = some (history, state) ∧
      state.pipe = [.hostConnectResult 0 6 true] ∧ state.getSession 0 = some session :=
    ⟨_, _, _, rfl, by decide, rfl⟩
  obtain ⟨history, state, session, executed, pipe, found⟩ := executed
  have started : Run (proxySystem unrestricted) RegistersPairs [] (initial 3 4 [3, 4] 0) := .start initially
  have permitted : ∀ action ∈ connect, ∀ state, RegistersPairs state action := by
    simp [connect, serve, RegistersPairs]
  have run := run_of_runActions started permitted executed
  obtain ⟨next, stepped, outcome⟩ := (registration run).1 0 6 [] session pipe found none 10 (true, false)
  exact ⟨state, next, session, stepped, by simp [outcome]⟩

/-- The client's socket cannot be registered and is destroyed: the session stays, and the origin's
socket with it, and the next client that gets the number is attached to both. -/
theorem half_open_pair :
    (¬ ∀ settings history state, Run (proxySystem settings) (fun _ _ => True) history state →
      ∀ sessionId proxyFd rest session, state.pipe = .hostConnectResult sessionId proxyFd true :: rest →
        state.getSession sessionId = some session → ∀ localTime now registered next,
        state.step settings (.command localTime now registered) = some next →
          RegisteredOrUndone session proxyFd next) ∧
    (¬ ∀ settings history state, Run (proxySystem settings) (fun _ _ => True) history state →
      PeersOwned state) ∧
    ¬ ∀ settings history state, Run (proxySystem settings) (fun _ _ => True) history state →
      CreatesNew state := by
  have executed : ∃ history state session next,
      runActions (State.step unrestricted) [] (initial 3 4 [3, 4] 0) connect = some (history, state) ∧
      state.step unrestricted (.command none 10 (false, true)) = some next ∧
      state.pipe = [.hostConnectResult 0 6 true] ∧ state.getSession 0 = some session ∧
      .client (.make 6 5 0 false) ∈ next.sockets ∧ 5 ∉ next.openFds ∧ next.sessions.sessionId = 1 ∧
      (next.sessions.createSession ⟨false, 0, 0, 0⟩ 5 12).2.map Session.sessionId = some 0 :=
    ⟨_, _, _, _, rfl, rfl, by decide, rfl, by decide, by decide, by decide, by decide⟩
  obtain ⟨history, state, session, next, executed, stepped, pipe, found, halfOpen, isClosed, nextId,
    older⟩ :=
    executed
  have run := run_of_executed registers_connect executed
  have anyRun : Run (proxySystem unrestricted) (fun _ _ => True) history state :=
    run.weaken (fun _ _ _ => trivial)
  refine ⟨fun claim => ?_, fun claim => ?_, fun claim => ?_⟩
  · have outcome :=
      claim unrestricted history state anyRun 0 6 [] session pipe found none 10 (false, true) next stepped
    rw [registeredOrUndone_iff (run_sound run) pipe found stepped] at outcome
    simp at outcome
  · have owned := claim unrestricted _ next (anyRun.snoc trivial stepped) _ halfOpen
    exact isClosed owned.1
  · have new := claim unrestricted _ next (anyRun.snoc trivial stepped) 5 isClosed ⟨false, 0, 0, 0⟩ 12
    rw [new, nextId] at older
    simp [Session.make] at older

end State

end NermalProxy
