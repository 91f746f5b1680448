import NermalProxy.ByteCount
import NermalProxy.EventLoop
import NermalProxy.Library.LinkedList

/-! # The cursor of the event loop

For each event `ProcessSockets` scans `m_sockets` and hands the event to the first socket with
its descriptor.  The scan only stops at the head of the turn behind the handler, so the cursor is
advanced from that socket's node, which the handler has removed when it tore its pair down. -/

namespace NermalProxy.SocketScan

open NermalProxy.CString NermalProxy.KeyedList NermalProxy.Config NermalProxy.LinkedList

/-- What the calls of a handler return, whichever handler an event turns out to be for. -/
structure HandlerCalls where
  accepted : Bool
  /-- The sockets that `AddSocket` takes in. -/
  registered : List ClientSocket
  memory : ClientSocket.Memory
  reads : List ReadResult
  writes : List WriteResult

/-- What a handler does with the list; a relay socket is changed in its place. -/
def handler (calls : HandlerCalls) (node : Node Socket) (sockets : LinkedList Socket) : Reaction Socket :=
  match node.value with
  | .server _ => if calls.accepted then .done sockets else .left
  | .command _ =>
    .done (calls.registered.foldl (fun sockets socket => sockets.emplaceBack (.client socket)) sockets)
  | .client socket =>
    match Relay.relay socket calls.memory calls.reads calls.writes with
    | .pending _ => .stuck
    | .teardown =>
      .done ((sockets.eraseFirst (fun peer => peer.fd = socket.socketFd)).eraseFirst
        (fun peer => peer.fd = socket.peerFd))
    | .relayed after _ _ _ => .done (sockets.assign node.address (.client after))

/-- The scan for one event. -/
def scanEvent (fd : Fd) (calls : HandlerCalls) (sockets : LinkedList Socket) : Option (Scan Socket) :=
  scanAll (fun socket => socket.fd = fd) (handler calls) sockets

/-- The scans for a batch of events, as far as `ProcessSockets` gets. -/
def processSockets : List (Fd × HandlerCalls) → LinkedList Socket → Option (List (Scan Socket))
  | [], _ => some []
  | (fd, calls) :: batch, sockets =>
    match scanEvent fd calls sockets with
    | none => none
    | some scan =>
      match scan.ending with
      | .finished sockets => (processSockets batch sockets).map (fun scans => scan :: scans)
      | _ => some [scan]

/-- Not an inactive relay socket. -/
def Active (node : Node Socket) : Prop := ∀ socket, node.value = .client socket → socket.isActive = true

/-- No event is for a relay socket that is inactive by the time. -/
def MeetsActive : List (Fd × HandlerCalls) → LinkedList Socket → Prop
  | [], _ => True
  | (fd, calls) :: batch, sockets =>
    match sockets.nodes.find? (fun node => node.value.fd = fd) with
    | none => MeetsActive batch sockets
    | some node => Active node ∧
      match handler calls node sockets with
      | .done sockets => MeetsActive batch sockets
      | _ => True

section

variable {calls : HandlerCalls} {node : Node Socket} {sockets after : LinkedList Socket} {fd : Fd}

/-- What a handler that gets to its end has done with the list. -/
inductive Handles (calls : HandlerCalls) (node : Node Socket) (sockets : LinkedList Socket) :
    LinkedList Socket → Prop
  | accepted {serverFd : Fd} (isServer : node.value = .server serverFd) :
      Handles calls node sockets sockets
  | registered {commandFd : Fd} (isCommand : node.value = .command commandFd) :
      Handles calls node sockets
        (calls.registered.foldl (fun sockets socket => sockets.emplaceBack (.client socket)) sockets)
  | teardown {socket : ClientSocket} (isClient : node.value = .client socket)
      (inactive : socket.isActive = false) :
      Handles calls node sockets ((sockets.eraseFirst (fun peer => peer.fd = socket.socketFd)).eraseFirst
        (fun peer => peer.fd = socket.peerFd))
  | relayed {socket changed : ClientSocket} (isClient : node.value = .client socket)
      (active : socket.isActive = true) :
      Handles calls node sockets (sockets.assign node.address (.client changed))

theorem handles_of_handler (handled : handler calls node sockets = .done after) :
    Handles calls node sockets after := by
  unfold handler at handled
  split at handled
  · rename_i isServer
    split at handled
    · cases handled
      exact .accepted isServer
    · cases handled
  · rename_i isCommand
    cases handled
    exact .registered isCommand
  · rename_i socket isClient
    cases outcome : Relay.relay socket calls.memory calls.reads calls.writes with
    | pending transfer => simp [outcome] at handled
    | teardown =>
      rw [outcome] at handled
      cases handled
      exact .teardown isClient (Relay.inactive_of_teardown outcome)
    | relayed changed numRead numWritten transfer =>
      rw [outcome] at handled
      cases handled
      refine .relayed isClient ?_
      cases active : socket.isActive with
      | true => rfl
      | false =>
        rw [Relay.relay_inactive active] at outcome
        cases outcome

theorem mem_foldl_emplaceBack {address : Nat} (registered : List ClientSocket) :
    ∀ {sockets : LinkedList Socket}, address ∈ sockets.addresses →
      address ∈ (registered.foldl (fun sockets socket => sockets.emplaceBack (.client socket))
        sockets).addresses := by
  induction registered with
  | nil => exact id
  | cons socket registered inductionHypothesis =>
    exact fun member => inductionHypothesis (mem_emplaceBack _ member)

/-- A handler removes the node of the socket it is called for exactly when that is inactive. -/
theorem stays_iff (found : sockets.nodes.find? (fun node => node.value.fd = fd) = some node)
    (handled : handler calls node sockets = .done after) :
    node.address ∈ after.addresses ↔ Active node := by
  have member : node.address ∈ sockets.addresses :=
    List.mem_map_of_mem (List.mem_of_find?_eq_some found)
  cases handles_of_handler handled with
  | accepted isServer => exact iff_of_true member (fun socket isClient => by simp [isServer] at isClient)
  | registered isCommand =>
    exact iff_of_true (mem_foldl_emplaceBack _ member)
      (fun socket isClient => by simp [isCommand] at isClient)
  | @teardown socket isClient inactive =>
    have named : node.value.fd = fd := by simpa using List.find?_some found
    rw [isClient] at named
    refine iff_of_false (fun stays => ?_) (fun active => by simp [active socket isClient] at inactive)
    rw [← named] at found
    exact notMem_eraseFirst (fun peer : Socket => peer.fd = socket.socketFd) found
      (mem_of_mem_eraseFirst stays)
  | relayed isClient active =>
    rw [addresses_assign]
    refine iff_of_true member (fun socket same => ?_)
    rw [isClient] at same
    cases same
    exact active

/-- A handler that does not get to its end is not called for an inactive relay socket. -/
theorem active_of_unfinished
    (unfinished : handler calls node sockets = .stuck ∨ handler calls node sockets = .left) :
    Active node := by
  intro socket isClient
  cases active : socket.isActive with
  | true => rfl
  | false => simp [handler, isClient, Relay.relay_inactive active] at unfinished

/-- A first scan that is sound. -/
theorem exists_behind (scan : Scan Socket) (sound : Live scan.uses ∧ scan.acted.length ≤ 1)
    (scans : Option (List (Scan Socket))) :
    (∃ all, scans.map (fun scans => scan :: scans) = some all ∧
        ∀ scan ∈ all, Live scan.uses ∧ scan.acted.length ≤ 1) ↔
      ∃ later, scans = some later ∧ ∀ scan ∈ later, Live scan.uses ∧ scan.acted.length ≤ 1 := by
  constructor
  · rintro ⟨all, isAll, allSound⟩
    obtain ⟨later, isLater, rfl⟩ := Option.map_eq_some_iff.mp isAll
    exact ⟨later, isLater, (List.forall_mem_cons.mp allSound).2⟩
  · rintro ⟨later, rfl, laterSound⟩
    exact ⟨scan :: later, rfl, List.forall_mem_cons.mpr ⟨sound, laterSound⟩⟩

/-- The cursor is only used where its node is in the list, and each event is handed to one handler at
most, exactly when no event of the batch is for an inactive relay socket. -/
theorem cursor_sound_iff (batch : List (Fd × HandlerCalls)) (sockets : LinkedList Socket) :
    (∃ scans, processSockets batch sockets = some scans ∧
        ∀ scan ∈ scans, Live scan.uses ∧ scan.acted.length ≤ 1) ↔
      MeetsActive batch sockets := by
  induction batch generalizing sockets with
  | nil => exact iff_of_true ⟨[], rfl, by simp⟩ trivial
  | cons event batch inductionHypothesis =>
    obtain ⟨fd, calls⟩ := event
    obtain ⟨result, scanned, ends⟩ := ends_scanAll (fun socket => decide (socket.fd = fd)) (handler calls)
      sockets
    have first : scanEvent fd calls sockets = some result := scanned
    rw [processSockets, MeetsActive, first]
    cases ends with
    | @missed uses absent live =>
      simp only [absent]
      rw [← inductionHypothesis]
      exact exists_behind ⟨uses, [], .finished sockets⟩ ⟨live, Nat.zero_le 1⟩ _
    | @stuck uses node found reaction live =>
      simp only [found, reaction, and_true]
      refine iff_of_true ⟨_, rfl, ?_⟩ (active_of_unfinished (.inl reaction))
      exact List.forall_mem_singleton.mpr ⟨live, Nat.le_refl 1⟩
    | @left uses node found reaction live =>
      simp only [found, reaction, and_true]
      refine iff_of_true ⟨_, rfl, ?_⟩ (active_of_unfinished (.inr reaction))
      exact List.forall_mem_singleton.mpr ⟨live, Nat.le_refl 1⟩
    | @finished uses node after found reaction stays live =>
      simp only [found, reaction, (stays_iff found reaction).mp stays, true_and]
      rw [← inductionHypothesis]
      exact exists_behind ⟨uses, [node.address], .finished after⟩ ⟨live, Nat.le_refl 1⟩ _
    | @stray uses node after found reaction gone dead =>
      have inactive : ¬ Active node := fun active => gone ((stays_iff found reaction).mpr active)
      simp only [found]
      refine iff_of_false ?_ (fun meets => inactive meets.1)
      rintro ⟨scans, only, sound⟩
      cases only
      exact dead (sound _ List.mem_cons_self).1

/-! ## The loop of the running proxy -/

theorem values_foldl_emplaceBack (registered : List ClientSocket) (sockets : LinkedList Socket) :
    (registered.foldl (fun sockets socket => sockets.emplaceBack (.client socket)) sockets).values =
      sockets.values ++ registered.map Socket.client := by
  induction registered generalizing sockets with
  | nil => exact (List.append_nil _).symm
  | cons socket registered inductionHypothesis =>
    simp [inductionHypothesis, values_emplaceBack]

/-- A change of the first node that is found, seen as one of the values. -/
theorem values_assign {key : Socket → Fd} {nodes : List (Node Socket)}
    (distinct : (nodes.map Node.address).Nodup)
    (found : nodes.find? (fun node => key node.value = fd) = some node) (value : Socket) :
    (adjust Node.address node.address (fun node => { node with value }) nodes).map Node.value =
      adjust key fd (fun _ => value) (nodes.map Node.value) := by
  induction nodes with
  | nil => cases found
  | cons first nodes inductionHypothesis =>
    rw [List.map_cons, List.nodup_cons] at distinct
    by_cases here : key first.value = fd
    · rw [List.find?_cons_of_pos (by simpa using here)] at found
      cases found
      simp [adjust, here]
    · rw [List.find?_cons_of_neg (by simpa using here)] at found
      have other : first.address ≠ node.address := by
        intro same
        apply distinct.1
        rw [same]
        exact List.mem_map_of_mem (List.mem_of_find?_eq_some found)
      simp only [adjust, if_neg other, List.map_cons, if_neg here, inductionHypothesis distinct.2 found]

theorem removeSocket_sockets (fd : Fd) (state : State) :
    (SocketManager.removeSocket fd state).sockets = remove Socket.fd fd state.sockets := by
  unfold SocketManager.removeSocket
  cases search : lookup Socket.fd fd state.sockets with
  | some socket => cases socket <;> rfl
  | none =>
    symm
    apply List.eraseP_of_forall_not
    intro socket member
    simpa using lookup_eq_none.mp search socket member

/-- A command appends the sockets of a connected session, or nothing. -/
theorem command_appends {settings : Settings} {state next : State} {localTime : Option LocalTime}
    {now : UInt64} {registered : Bool × Bool}
    (stepped : state.step settings (.command localTime now registered) = some next) :
    ∃ added : List ClientSocket, next.sockets = state.sockets ++ added.map Socket.client := by
  cases State.steps_of_step stepped with
  | @connected _ _ _ sessionId proxyFd rest session pipe =>
    let client := ClientSocket.make session.clientFd proxyFd sessionId true
    let proxy := ClientSocket.make proxyFd session.clientFd sessionId false
    refine ⟨(if registered.1 then [client] else []) ++ if registered.2 then [proxy] else [], ?_⟩
    rw [SocketManager.addSocket_sockets, SocketManager.addSocket_sockets]
    obtain ⟨first, second⟩ := registered
    cases first <;> cases second <;> simp [client, proxy]
  | undetected | refused | blocked | admitted | unconnected => exact ⟨[], (List.append_nil _).symm⟩

/-- Whatever a handler of the running proxy does, it does to the list with the nodes as well. -/
theorem handler_refines {settings : Settings} {batch : List Fd} {outcome : Outcome} {state : State}
    {next : EventLoop} (same : sockets.values = state.sockets)
    (found : sockets.nodes.find? (fun node => node.value.fd = fd) = some node)
    (handled : EventLoop.handle settings fd batch outcome state = some next)
    (running : next.running = true) :
    ∃ calls after, handler calls node sockets = .done after ∧ after.values = next.state.sockets := by
  have search : lookup Socket.fd fd state.sockets = some node.value := by
    rw [← same, lookup, values, List.find?_map]
    exact congrArg (Option.map Node.value) found
  unfold EventLoop.handle at handled
  rw [search] at handled
  cases kind : node.value with
  | server serverFd =>
    rw [kind] at handled
    cases outcome with
    | accept storage now accepted =>
      cases accepted with
      | none =>
        cases handled
        cases running
      | some client =>
        obtain ⟨after, stepped, rfl⟩ := Option.map_eq_some_iff.mp handled
        cases State.steps_of_step stepped with
        | accept => exact ⟨⟨true, [], fun _ => 0, [], []⟩, sockets, by simp [handler, kind], same⟩
    | command localTime now registered => cases handled
    | relay now memory reads writes => cases handled
  | command commandFd =>
    rw [kind] at handled
    cases outcome with
    | command localTime now registered =>
      obtain ⟨after, stepped, rfl⟩ := Option.map_eq_some_iff.mp handled
      obtain ⟨added, appended⟩ := command_appends stepped
      refine ⟨⟨true, added, fun _ => 0, [], []⟩, _, by rw [handler, kind], ?_⟩
      rw [values_foldl_emplaceBack, same]
      exact appended.symm
    | accept storage now accepted => cases handled
    | relay now memory reads writes => cases handled
  | client socket =>
    rw [kind] at handled search
    have named : socket.socketFd = fd := Socket.socketFd_of_lookup search
    cases outcome with
    | relay now memory reads writes =>
      obtain ⟨after, stepped, rfl⟩ := Option.map_eq_some_iff.mp handled
      simp only [State.step, search] at stepped
      refine ⟨⟨true, [], memory, reads, writes⟩, ?_⟩
      simp only [handler, kind]
      cases SocketManager.relayEnds_of_handled stepped with
      | teardown outcome =>
        refine ⟨_, by rw [outcome], ?_⟩
        rw [values_eraseFirst, values_eraseFirst, same]
        change _ = (SocketManager.removeSocket socket.peerFd
          (SocketManager.removeSocket socket.socketFd state)).sockets
        rw [removeSocket_sockets, removeSocket_sockets]
        rfl
      | relayed outcome =>
        refine ⟨_, by rw [outcome], ?_⟩
        change (adjust Node.address node.address _ sockets.nodes).map Node.value = _
        rw [values_assign sockets.distinct found, named]
        exact congrArg (adjust Socket.fd fd _) same
    | accept storage now accepted => cases handled
    | command localTime now registered => cases handled

end

/-- The client's end of a pair, inactive, and the other one. -/
def spentPair : LinkedList Socket where
  nodes := [⟨0, .client ⟨false, true, 5, 6, 0⟩⟩, ⟨1, .client ⟨true, false, 6, 5, 0⟩⟩]
  allocated := 2
  distinct := by decide
  older := by
    intro node member
    rcases List.mem_cons.mp member with rfl | last
    · decide
    · rw [List.mem_singleton.mp last]
      decide

/-- One event for a socket whose last read has found the end of the stream. -/
theorem cursor_strays :
    ¬ ∀ (batch : List (Fd × HandlerCalls)) (sockets : LinkedList Socket),
      ∃ scans, processSockets batch sockets = some scans ∧
        ∀ scan ∈ scans, Live scan.uses ∧ scan.acted.length ≤ 1 := by
  intro claim
  obtain ⟨scans, scanned, sound⟩ := claim [(5, ⟨true, [], fun _ => 0, [], []⟩)] spentPair
  have strays : processSockets [(5, ⟨true, [], fun _ => 0, [], []⟩)] spentPair =
      some [⟨[⟨0, [0, 1]⟩, ⟨0, []⟩], [0], .stray⟩] := rfl
  rw [strays] at scanned
  cases scanned
  have live := (sound _ List.mem_cons_self).1 ⟨0, []⟩ (by simp)
  cases live

end NermalProxy.SocketScan
