import NermalProxy.ConfiguredRuns
import NermalProxy.Startup
import NermalProxy.Transcript

/-! # The whole process

`main` reads the configuration file, makes its sockets and handles batches of events until
it ends.  Its loop and the proxy have the same runs, history and all.  So what holds of the
proxy under the file's settings holds of the process: no byte goes to an origin, or comes from
one, but for a session that the file lets through. -/

namespace NermalProxy

open NermalProxy.CString NermalProxy.KeyedList NermalProxy.ConfigFile NermalProxy.Config
  NermalProxy.SocketManager NermalProxy.Transition

/-! ## Who is written to -/

namespace State

variable {settings : Settings} {history : History} {state : State} {wrote : Nat → WriteResult}

/-- What has been moved went from one end to the other of a session that was linked. -/
theorem run_moves_linked (run : Run (proxySystem settings) Registers history state) :
    ∀ moved ∈ moves history, ∃ session, session.sessionId = moved.pair.sessionId ∧
      session.clientFd = moved.pair.fd ∧ Linked settings history session moved.pair.peerFd := by
  apply run.historyInvariant (fun history _ => ∀ moved ∈ moves history, ∃ session,
    session.sessionId = moved.pair.sessionId ∧ session.clientFd = moved.pair.fd ∧
      Linked settings history session moved.pair.peerFd)
  · rintro state - moved member
    cases member
  · intro history state action next earlier linked registers stepped moved member
    have sound := run_sound earlier
    have transcribed := run_transcribed earlier
    have answered := run_answered earlier
    rw [moves_snoc, List.mem_append, Option.mem_toList] at member
    rcases member with older | newer
    · obtain ⟨session, named, isClient, before⟩ := linked moved older
      obtain ⟨answer, given, -⟩ := transcribed.moved moved older
      have idle := notReading_answered answered given action
      rw [← named] at idle
      exact ⟨session, named, isClient, before.snoc idle⟩
    · obtain ⟨socket, isSocket, isPair⟩ := moves_pair newer
      obtain ⟨session, admitted, found, same, before⟩ := exists_linked earlier isSocket
      obtain ⟨paired, isPaired, key⟩ := getSession_pair sound (clientEnd_mem sound isSocket)
      rw [found] at isPaired
      cases isPaired
      obtain ⟨answer, given, -⟩ := transcribed.reaches answered sound isSocket
      have sameId : admitted.sessionId = socket.clientEnd.sessionId :=
        (congrArg Session.sessionId same).trans ((congrArg Prod.fst key).trans (clientEnd_sessionId socket).symm)
      have sameFd : admitted.clientFd = socket.clientEnd.fd :=
        (congrArg Session.clientFd same).trans (congrArg Prod.snd key)
      have idle := notReading_answered answered given action
      rw [← sameId] at idle
      rw [isPair]
      exact ⟨admitted, sameId, sameFd, before.snoc idle⟩

/-- What is written is some of a refusal, or it goes to one end of a session that was linked. -/
theorem writing_linked (run : Run (proxySystem settings) Registers history state) {written : Writing}
    (member : written ∈ writings settings wrote history) :
    (written.isClientToProxy = false ∧
        ∃ refusal ∈ [clientError, forbidden, authenticationRequired, notFound], written.data <+: refusal) ∨
      ∃ session sockFd, session.sessionId = written.sessionId ∧ Linked settings history session sockFd ∧
        written.fd = if written.isClientToProxy then sockFd else session.clientFd := by
  rcases mem_writings member with ⟨⟨sessionId, answer⟩, given, rfl⟩ | ⟨moved, isMoved, rfl⟩
  · obtain ⟨session, same, deserves⟩ := run_deserved run _ given
    cases answer with
    | toClient clientFd response =>
      by_cases accepts : response = okResponse
      · obtain ⟨isClient, -, -, -, tunnelled⟩ := deserves_toClient deserves
        obtain ⟨-, sockFd, linked⟩ := tunnelled accepts
        exact .inr ⟨session, sockFd, same, linked, isClient.symm⟩
      · have texts := response_mem given rfl
        have refusals : response ∈ [clientError, forbidden, authenticationRequired, notFound] := by
          simpa [accepts] using texts
        exact .inl ⟨rfl, response, refusals, WriteResult.accepted_prefix response (wrote sessionId)⟩
    | toOrigin sockFd request =>
      exact .inr ⟨session, sockFd, same, (deserves_toOrigin deserves).2.1, rfl⟩
  · obtain ⟨session, same, isClient, linked⟩ := run_moves_linked run moved isMoved
    refine .inr ⟨session, moved.pair.peerFd, same, linked, ?_⟩
    rw [isClient]
    rfl

end State

/-! ## From the start on -/

namespace Start

variable {files : Files} {stale : Nat → Bytes × Bytes} {calls : StartCalls} {argument : Option Bytes}
  {openFds : List Fd} {settings : Settings} {state : State} {loop : EventLoop} {lifted : LoopHistory}
  {wrote : Nat → WriteResult}

/-- The file that `main` reads. -/
def configFile (argument : Option Bytes) : Bytes := argument.getD (bytes "default.conf")

theorem startSockets_settings {started : Settings}
    (reached : startSockets calls started openFds = .loops settings state) : started = settings := by
  unfold startSockets at reached
  grind

/-- The settings of the loop are those of the file. -/
theorem loops_configured (reached : main files stale calls argument openFds = .loops settings state) :
    doConfig files stale (configFile argument) = some settings := by
  unfold main at reached
  split at reached
  · cases reached
  · simp only at reached
    split at reached
    · cases reached
    · split at reached
      · cases reached
      · rename_i started configured
        exact startSockets_settings reached ▸ configured

/-- A loop that has no relay socket and does not read the pipe, and whose threads only detect. -/
structure Quiet (loop : EventLoop) : Prop where
  clients : ∀ client, .client client ∉ loop.state.sockets
  unread : loop.batch = [] ∨ ∀ fd, .command fd ∉ loop.state.sockets
  detects : ∀ worker ∈ loop.state.workers, worker.pc.detects = true

theorem Deaf.quiet {atStart : List Fd} (deaf : Deaf atStart loop) : Quiet loop := by
  refine ⟨fun client member => ?_, .inl deaf.batch, fun worker member => ?_⟩
  · obtain ⟨fd, same⟩ := deaf.sockets _ member
    cases same
  · rw [deaf.workers] at member
    cases member

theorem Mute.quiet {atStart : List Socket} (mute : Mute atStart loop)
    (listening : ∀ socket ∈ atStart, ∃ fd, socket = .server fd) : Quiet loop := by
  refine ⟨fun client member => ?_, .inr fun fd member => ?_, mute.workers⟩
  · obtain ⟨serverFd, same⟩ := listening _ (mute.sockets ▸ member)
    cases same
  · obtain ⟨serverFd, same⟩ := listening _ (mute.sockets ▸ member)
    cases same

/-- A detector answers nobody. -/
theorem answer_detects (settings : Settings) {index : Nat} {input : Input}
    (detects : ∀ worker ∈ state.workers, worker.pc.detects = true) :
    state.answer settings (.work index input) = none := by
  cases input with
  | write result =>
    simp only [State.answer]
    split
    · rename_i sessionId sockFd at_
      cases detects _ (List.mem_of_getElem? at_)
    · rfl
  | _ => rfl

theorem Quiet.unwritten (quiet : Quiet loop) {action : LoopAction} {performed : State × Action}
    (shown : EventLoop.shows (loop, action) = some performed) : State.writing settings wrote performed = none := by
  cases action with
  | take =>
    cases shown
    rfl
  | work index input =>
    cases shown
    rw [State.writing, answer_detects settings quiet.detects]
    rfl
  | idle now logTime =>
    cases shown
    rfl
  | dispatch outcome =>
    cases isBatch : loop.batch with
    | nil => simp [EventLoop.shows, isBatch] at shown
    | cons fd batch =>
      have noCommand := quiet.unread.resolve_left (by simp [isBatch])
      simp only [EventLoop.shows, isBatch] at shown
      split at shown
      · cases shown
        rfl
      · rename_i found
        exact absurd (mem_of_lookup found) (noCommand _)
      · rename_i found
        exact absurd (mem_of_lookup found) (quiet.clients _)
      · cases shown
  | poll | interrupted | failed => cases shown

/-- Whoever starts without its listener or without its pipe never writes anything. -/
theorem unstarted_unwritten (kernel : Kernel calls)
    (reached : main files stale calls argument openFds = .loops settings state)
    (unstarted : ¬ (Listens calls ∧ Reads calls)) {allowed : EventLoop → LoopAction → Prop}
    (run : Run (startedLoop settings state) allowed lifted loop) :
    State.writings settings wrote (lifted.filterMap EventLoop.shows) = [] := by
  rw [State.writings, List.filterMap_eq_nil_iff]
  intro performed member
  obtain ⟨⟨earlier, action⟩, inRun, shown⟩ := List.mem_filterMap.mp member
  obtain ⟨before, after, split⟩ := List.append_of_mem inRun
  subst split
  obtain ⟨soFar, -, -⟩ := run.opened
  have quiet : Quiet earlier := by
    by_cases listens : Listens calls
    · obtain ⟨mute, listening⟩ := run_mute kernel reached (fun reads => unstarted ⟨listens, reads⟩) soFar
      exact mute.quiet listening
    · exact (run_deaf kernel reached listens soFar).quiet
  exact quiet.unwritten shown

/-- In every faultless run of the process from its start on, under a legible file, whatever the calls of the
start and the writes have returned and whatever the interleaving: all bytes that it writes are of a refusal
to a client, or they go to one end of a session that the configuration file lets through to a host that
passes its lists, and this end is the client's own or a descriptor that was connected to this host. -/
theorem configured_process {logging : Logging} (kernel : Kernel calls)
    (reached : main files stale calls argument openFds = .loops settings state)
    (legible : Legible (files (configFile argument)))
    (ordinary : Ordinary (fileData (files (configFile argument))))
    (run : Run (startedLoop settings state) (LoopFaultless settings logging) lifted loop)
    (wrote : Nat → WriteResult) :
    ∀ written ∈ State.writings settings wrote (lifted.filterMap EventLoop.shows),
      (written.isClientToProxy = false ∧
        ∃ refusal ∈ [clientError, forbidden, authenticationRequired, notFound], written.data <+: refusal) ∨
      ∃ session, session.sessionId = written.sessionId ∧
        LetThrough (fileData (files (configFile argument))) (lifted.filterMap EventLoop.shows) session ∧
        Passes files (fileData (files (configFile argument))) session.userName session.hostUrl ∧
        if written.isClientToProxy then Dialled (lifted.filterMap EventLoop.shows) session written.fd
        else written.fd = session.clientFd := by
  rw [← loadData_legible stale legible] at ordinary ⊢
  intro written member
  by_cases started : Listens calls ∧ Reads calls
  · have initial := (initial_iff kernel reached).mpr started
    have proxyRun : Run (proxySystem settings) (Faultless settings logging) (lifted.filterMap EventLoop.shows)
        loop.state := by
      refine EventLoop.run_shown ?_ faultless_of_performs run
      rintro loop rfl
      exact initial
    rcases State.writing_linked (registers_of_faultless proxyRun) member with refusal | ⟨session, sockFd, named, linked, isEnd⟩
    · exact .inl refusal
    · obtain ⟨through, passes⟩ := admitted_configured (loops_configured reached) ordinary linked.admitted
      refine .inr ⟨session, named, through, passes, ?_⟩
      rw [isEnd]
      split
      · exact linked.dialled
      · rfl
  · rw [unstarted_unwritten kernel reached started run] at member
    cases member

/-- The calls of a start that succeeds. -/
def bound : StartCalls := { noSocket with socket := 4, readPipe := 5, writePipe := 6 }

/-- The events until the request of a first client is passed on. -/
def fetch : List LoopAction :=
  [.poll [4], .dispatch (.accept ⟨false, 0, 0, 0⟩ 7 (some (7, bytes "10.0.0.2"))),
    .take, .work 0 .none, .work 0 (.read (.data (bytes "GET http://example.com/ HTTP/1.1\r\n\r\n")) []),
    .work 0 .none, .work 0 .none, .work 0 .none, .work 0 .none, .work 0 .none,
    .poll [5], .dispatch (.command none 8 (true, true)),
    .take, .work 0 .none, .work 0 (.clock (fun _ => 8)),
    .work 0 (.resolver (fun _ _ => some [⟨true, bytes "10.0.0.9"⟩]) 9), .work 0 .none,
    .work 0 (.socket (some 8)), .work 0 (.network (fun _ _ => .connected)),
    .work 0 (.write (.accepts 36))]

/-- A request that is passed on, where one list is blocked for everybody. -/
theorem configured_process_fetch : ∃ (settings : Settings) (state : State) (lifted : LoopHistory)
    (session : Session),
    main (adsFiles true) (fun _ => ([], [])) bound none [0, 1, 2] = .loops settings state ∧
    ⟨0, true, 8, bytes "GET http://example.com/ HTTP/1.1\r\n\r\n"⟩ ∈
      State.writings settings (fun _ => .accepts 0) (lifted.filterMap EventLoop.shows) ∧
    session.sessionId = 0 ∧ Dialled (lifted.filterMap EventLoop.shows) session 8 ∧
    ¬ Blocks (adsFiles true) (fileData (adsFiles true (bytes "default.conf"))) [bytes "ads"]
      session.hostUrl := by
  have kernel : Kernel bound := by
    refine ⟨fun fd negative => if_pos negative, fun _ _ => ?_⟩
    decide
  have executed : ∃ state lifted loop,
      main (adsFiles true) (fun _ => ([], [])) bound none [0, 1, 2] = .loops (adsSettings true) state ∧
      runActions (EventLoop.step (adsSettings true)) [] ⟨state, [], true⟩ fetch = some (lifted, loop) ∧
      ⟨0, true, 8, bytes "GET http://example.com/ HTTP/1.1\r\n\r\n"⟩ ∈
        State.writings (adsSettings true) (fun _ => .accepts 0) (lifted.filterMap EventLoop.shows) ∧
      ∀ entry ∈ lifted, LoopInBounds (adsSettings true) ⟨.debug, 9⟩ entry.1 entry.2 :=
    ⟨_, _, _, rfl, rfl, by decide, by decide⟩
  obtain ⟨state, lifted, loop, reached, executed, member, inBounds⟩ := executed
  have permitted : ∀ action ∈ fetch, ∀ loop, LoopRegisters loop action := by
    simp [fetch, LoopRegisters]
  have registered : Run (startedLoop (adsSettings true) state) LoopRegisters lifted loop :=
    run_of_runActions (.start rfl) permitted executed
  have run : Run (startedLoop (adsSettings true) state) (LoopFaultless (adsSettings true) ⟨.debug, 9⟩) lifted
      loop :=
    registered.recorded fun entry recorded =>
      ⟨registered.permitted entry recorded, inBounds entry recorded⟩
  rcases configured_process kernel reached legible_ads ordinary_ads run _ _ member with ⟨toClient, -⟩ |
    ⟨session, named, -, passes, dialled⟩
  · cases toClient
  · exact ⟨_, state, lifted, session, reached, member, named, dialled, passes_ads passes⟩

end Start

end NermalProxy
