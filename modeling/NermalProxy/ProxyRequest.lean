import NermalProxy.RequestedPort
import NermalProxy.Workers

/-! # Which first reads the detector accepts

The detector fails a GET or POST that is not for an `http://` URL and nothing else: any
other method passes as CONNECT, with or without a target, and a port that does not scan
or does not fit is stored as it comes out.  The theorem gives the reads for which it
accepts proxy requests only. -/

namespace NermalProxy

open NermalProxy.CString

/-- What the detector stores in its session. -/
def Session.detected (session : Session) (detection : Detector.Detection) : Session :=
  (((session.setHost detection.host).setPort detection.port).setRequest
    detection.request).setTransparent detection.transparent

namespace Detector

/-- The success flag of the detector's message, and the session behind it. -/
def outcome (result : ReadResult) (beyond : Bytes) (session : Session) : Bool × Session :=
  match asyncDetector result beyond with
  | some detection => (true, session.detected detection)
  | none => (false, session)

/-- The task of a worker, step after step, to its end. -/
def runTask (sessionId : Nat) : Pc → List Input → State → Option State
  | _, [], _ => none
  | pc, input :: inputs, state =>
    match Worker.step ⟨sessionId, pc⟩ input state with
    | some (next, some pc) => runTask sessionId pc inputs next
    | some (next, none) => some next
    | none => none

/-- A task that has detected a request stores it in the session, field by field, and reports success. -/
theorem runTask_setHost {state : State} {sessionId : Nat} {session : Session}
    (found : state.getSession sessionId = some session) (detection : Detection) :
    ∃ final, runTask sessionId (.setHost detection) [.none, .none, .none, .none, .none] state = some final ∧
      final.getSession sessionId = some (session.detected detection) ∧
      final.pipe = state.pipe ++ [.hostDetectResult sessionId true] := by
  have updated : ∀ (state : State) (session : Session) (change : Session → Session),
      (∀ x, (change x).key = x.key) → state.getSession sessionId = some session →
      (state.updateSession sessionId change).getSession sessionId = some (change session) :=
    fun state session change unchanged found =>
      (SessionManager.getSession_update_same unchanged).trans (congrArg (Option.map change) found)
  have hostSet := updated _ _ (fun session => session.setHost detection.host) (fun _ => rfl) found
  have portSet := updated _ _ (fun session => session.setPort detection.port) (fun _ => rfl) hostSet
  have requestSet :=
    updated _ _ (fun session => session.setRequest detection.request) (fun _ => rfl) portSet
  have modeSet :=
    updated _ _ (fun session => session.setTransparent detection.transparent) (fun _ => rfl) requestSet
  let stored := (((state.updateSession sessionId (fun session => session.setHost detection.host)
    ).updateSession sessionId (fun session => session.setPort detection.port)
    ).updateSession sessionId (fun session => session.setRequest detection.request)
    ).updateSession sessionId (fun session => session.setTransparent detection.transparent)
  exact ⟨stored.writeMessage (.hostDetectResult sessionId true),
    by simp only [runTask, Worker.step, stored], modeSet, rfl⟩

/-- From the read on, the task stores what was detected in the session and writes the flag. -/
theorem runTask_read {state : State} {sessionId : Nat} {session : Session}
    (found : state.getSession sessionId = some session) (clientFd : Fd) (result : ReadResult)
    (beyond : Bytes) :
    ∃ inputs final, runTask sessionId (.read clientFd) (.read result beyond :: inputs) state = some final ∧
      final.getSession sessionId = some (outcome result beyond session).2 ∧
      final.pipe = state.pipe ++ [.hostDetectResult sessionId (outcome result beyond session).1] := by
  cases parsed : asyncDetector result beyond with
  | none =>
    refine ⟨[.none], state.writeMessage (.hostDetectResult sessionId false), ?_, ?_, ?_⟩
    · simp [runTask, Worker.step, parsed]
    · rw [outcome, parsed]
      exact found
    · simp [outcome, parsed, State.writeMessage]
  | some detection =>
    obtain ⟨final, stores, after, written⟩ := runTask_setHost found detection
    refine ⟨[.none, .none, .none, .none, .none], final, ?_, ?_, ?_⟩
    · rw [← stores, runTask]
      simp only [Worker.step, parsed]
    · rw [outcome, parsed]
      exact after
    · rw [outcome, parsed]
      exact written

/-- Whatever the memory behind the buffer and the session hold: success is reported only for a proxy
request, with its port stored, and any other read leaves the session alone. -/
def AcceptsOnlyRequests (data : Bytes) : Prop :=
  ∀ beyond session,
    ((outcome (.data data) beyond session).1 = true →
      ∃ port, requestedPort data = some port ∧
        (outcome (.data data) beyond session).2.port.toNat = port) ∧
    (requestedPort data = none → outcome (.data data) beyond session = (false, session))

/-- The text ends inside the buffer. -/
def Closed (data : Bytes) : Prop := data.length < requestBufferSize ∨ (0 : UInt8) ∈ data

def HasOrigin (text : Bytes) : Prop :=
  scheme.isPrefixOf (target text) = true ∧ originWord text ≠ []

/-- `CONNECT host[:port]`. -/
def AsksForTunnel (data : Bytes) : Prop :=
  method data = bytes "CONNECT" ∧ ∃ port, requestedPort data = some port

/-- GET or POST for `http://host` or `http://host:80`. -/
def AsksForOrigin (data : Bytes) : Prop :=
  isTransparent (method data) = true ∧ requestedPort data = some 80

/-- GET or POST, and no `http://` with a word behind it. -/
def IsRefused (data : Bytes) : Prop :=
  isTransparent (method (cstr data)) = true ∧ ¬ HasOrigin (cstr data)

/-! ## One text in the buffer -/

theorem requestBuffer_closed {data : Bytes} (closed : Closed data) (beyond : Bytes) :
    requestBuffer data beyond = cstr data := by
  by_cases nul : (0 : UInt8) ∈ data
  · rw [requestBuffer, List.append_assoc]
    exact cstr_append_of_nul nul _
  · rw [requestBuffer_eq nul (closed.resolve_right nul), cstr_of_nul_free nul]

theorem requestBuffer_full {data : Bytes} (full : ¬ Closed data) (beyond : Bytes) :
    requestBuffer data beyond = data ++ cstr beyond := by
  simp only [Closed, not_or, Nat.not_lt] at full
  have nothing : requestBufferSize - data.length = 0 := by omega
  rw [requestBuffer, nothing, List.replicate_zero, List.append_nil, cstr_append_of_nul_free full.2]

/-- The same for one text in the buffer. -/
def Answers (requested : Option Nat) (text : Bytes) : Prop :=
  if isTransparent (method text) = true then HasOrigin text → requested = some 80
  else requested = some (narrowed (storedPort (urlWord (method text) (target text))))

theorem acceptsOnlyRequests_iff_answers {data : Bytes} (nonempty : data ≠ []) :
    AcceptsOnlyRequests data ↔ ∀ beyond, Answers (requestedPort data) (requestBuffer data beyond) := by
  refine forall_congr' fun beyond => ?_
  simp only [outcome, asyncDetector_data nonempty]
  by_cases transparent : isTransparent (method (requestBuffer data beyond)) = true
  · rw [detect_transparent transparent, Answers, if_pos transparent]
    by_cases origin : HasOrigin (requestBuffer data beyond)
    · simp only [if_pos (show scheme.isPrefixOf _ = true ∧ _ from origin), Session.detected,
        Session.setTransparent, Session.setRequest, Session.setPort, origin, true_imp_iff]
      constructor
      · intro accepts
        obtain ⟨port, requested, stored⟩ := (accepts (Session.make ⟨false, 0, 0, 0⟩ 0 0 0)).1
        rw [requested, ← stored]
        rfl
      · intro requested session
        exact ⟨⟨80, requested, rfl⟩, fun none => by rw [requested] at none; cases none⟩
    · simp only [if_neg (show ¬ (scheme.isPrefixOf _ = true ∧ _) from origin), origin,
        Bool.false_eq_true, false_imp_iff, implies_true, and_self]
  · rw [Bool.not_eq_true] at transparent
    rw [detect_tunnel transparent, Answers, if_neg (by simp [transparent])]
    simp only [Session.detected, Session.setTransparent, Session.setRequest, Session.setPort,
      true_imp_iff]
    constructor
    · intro accepts
      obtain ⟨port, requested, stored⟩ := (accepts (Session.make ⟨false, 0, 0, 0⟩ 0 0 0)).1
      rw [requested, ← stored]
      rfl
    · intro requested session
      exact ⟨⟨_, requested, rfl⟩, fun none => by rw [requested] at none; cases none⟩

/-! ## What was asked for -/

theorem isTransparent_connect : isTransparent (bytes "CONNECT") = false := by decide

theorem requestedPort_tunnel {data : Bytes} (tunnel : method data = bytes "CONNECT") :
    requestedPort data = authorityPort (target data) := by
  rw [requestedPort, if_pos tunnel]

theorem requestedPort_transparent {data : Bytes} (transparent : isTransparent (method data) = true) :
    requestedPort data =
      if scheme.isPrefixOf (target data) = true then authorityPort (cutAt ((target data).drop 7) 47)
      else none := by
  have notTunnel : ¬ method data = bytes "CONNECT" := by
    intro tunnel
    rw [tunnel, isTransparent_connect] at transparent
    cases transparent
  simp only [requestedPort, if_neg notTunnel, isTransparent_iff.mp transparent, true_and]

/-- Only three methods ask for anything. -/
theorem method_of_requestedPort {data : Bytes} {port : Nat} (requested : requestedPort data = some port) :
    method data = bytes "CONNECT" ∨ isTransparent (method data) = true := by
  by_cases tunnel : method data = bytes "CONNECT"
  · exact .inl tunnel
  · rw [requestedPort, if_neg tunnel] at requested
    split at requested
    · rename_i transparent
      exact .inr (isTransparent_iff.mpr transparent.1)
    · cases requested

/-! ## The text in front of a NUL -/

theorem method_cstr (data : Bytes) : method (cstr data) = cstr (method data) := firstWord_cstr data

theorem target_cstr {data : Bytes} (nulFree : (0 : UInt8) ∉ method data) :
    target (cstr data) = cstr (target data) := by
  rw [target, behindWord_cstr nulFree, firstWord_cstr, target]

theorem nul_free_of_transparent {word : Bytes} (transparent : isTransparent word = true) :
    (0 : UInt8) ∉ word := by
  rcases isTransparent_iff.mp transparent with rfl | rfl <;> decide

theorem method_cstr_of_transparent {data : Bytes} (transparent : isTransparent (method data) = true) :
    method (cstr data) = method data := by
  rw [method_cstr, cstr_of_nul_free (nul_free_of_transparent transparent)]

theorem method_cstr_of_tunnel {data : Bytes} (tunnel : method data = bytes "CONNECT") :
    method (cstr data) = bytes "CONNECT" := by
  rw [method_cstr, tunnel]
  decide

theorem target_cstr_of_tunnel {data : Bytes} {port : Nat} (tunnel : method data = bytes "CONNECT")
    (requested : requestedPort data = some port) : target (cstr data) = target data := by
  have methodNulFree : (0 : UInt8) ∉ method data := by
    rw [tunnel]
    decide
  rw [requestedPort_tunnel tunnel] at requested
  rw [target_cstr methodNulFree, cstr_of_nul_free (authorityPort_cases requested).1]

theorem urlWord_connect (authority : Bytes) : urlWord (bytes "CONNECT") authority = authority.take 1024 := by
  rw [urlWord, if_pos (by decide)]

theorem answers_iff {data : Bytes} (fits : (target (cstr data)).length < 1024) :
    Answers (requestedPort data) (cstr data) ↔
      AsksForTunnel data ∨ AsksForOrigin data ∨ IsRefused data := by
  have uncut : (target (cstr data)).take 1024 = target (cstr data) := List.take_of_length_le fits.le
  constructor
  · intro answers
    unfold Answers at answers
    split at answers
    · rename_i transparent
      by_cases origin : HasOrigin (cstr data)
      · have requested := answers origin
        rcases method_of_requestedPort requested with tunnel | sameMethod
        · rw [method_cstr_of_tunnel tunnel, isTransparent_connect] at transparent
          cases transparent
        · exact .inr (.inl ⟨sameMethod, requested⟩)
      · exact .inr (.inr ⟨transparent, origin⟩)
    · rename_i opaque_
      rcases method_of_requestedPort answers with tunnel | transparent
      · exact .inl ⟨tunnel, _, answers⟩
      · rw [method_cstr_of_transparent transparent] at opaque_
        exact absurd transparent opaque_
  · rintro (⟨tunnel, port, requested⟩ | ⟨transparent, requested⟩ | ⟨transparent, refused⟩)
    · have sameTarget := target_cstr_of_tunnel tunnel requested
      have named := requested
      rw [requestedPort_tunnel tunnel] at named
      rw [Answers, method_cstr_of_tunnel tunnel, if_neg (by decide), urlWord_connect, uncut, sameTarget,
        requested, narrowed_storedPort named]
    · rw [Answers, method_cstr_of_transparent transparent, if_pos transparent]
      exact fun _ => requested
    · rw [Answers, if_pos transparent]
      exact fun origin => absurd origin refused

/-! ## What stands behind the buffer

A full buffer without a NUL goes on in the memory behind it.  Words that fit their arrays
whatever stands there have ended before. -/

/-- A word that no text can lengthen to 1024 bytes has ended. -/
theorem finished_of_fits {text : Bytes}
    (fits : ∀ more, (0 : UInt8) ∉ more → (firstWord (text ++ more)).length < 1024) :
    behindWord text ≠ [] := by
  intro unfinished
  have size : (List.replicate 1024 (65 : UInt8)).length = 1024 := List.length_replicate
  have isWord : IsWord (List.replicate 1024 (65 : UInt8)) := isWord_replicate (by decide) rfl
  have short := fits (List.replicate 1024 65) (notMem_replicate (by decide))
  by_cases empty : firstWord text = []
  · rw [(firstWord_append_of_empty empty _).1, firstWord_of_isWord isWord, size] at short
    exact absurd short (by decide)
  · rw [firstWord_append_word empty unfinished, word_of_isWord isWord, List.length_append, size] at short
    omega

theorem words_append {data : Bytes} (methodEnds : behindWord data ≠ [])
    (targetEnds : behindTarget data ≠ []) (more : Bytes) :
    method (data ++ more) = method data ∧ target (data ++ more) = target data ∧
      behindTarget (data ++ more) = behindTarget data ++ more := by
  obtain ⟨sameMethod, behind⟩ := firstWord_append methodEnds more
  obtain ⟨sameTarget, rest⟩ := firstWord_append targetEnds more
  refine ⟨sameMethod, ?_, ?_⟩
  · rw [target, behind, sameTarget, target]
  · rw [behindTarget, behind, rest, behindTarget]

theorem originWord_append {data : Bytes} (methodEnds : behindWord data ≠ [])
    (targetEnds : behindTarget data ≠ [])
    (originEnds : target data = scheme → behindWord (behindTarget data) ≠ []) (more : Bytes) :
    originWord (data ++ more) = originWord data := by
  obtain ⟨-, sameTarget, rest⟩ := words_append methodEnds targetEnds more
  unfold originWord
  rw [sameTarget, rest]
  by_cases bare : target data = scheme
  · rw [if_pos bare, if_pos bare, (firstWord_append (originEnds bare) more).1]
  · rw [if_neg bare, if_neg bare]

theorem wordsFit_cstr {data : Bytes} (fits : ∀ beyond, WordsFit (requestBuffer data beyond)) :
    WordsFit (cstr data) := by
  have alone := fits []
  by_cases closed : Closed data
  · rwa [requestBuffer_closed closed] at alone
  · have nulFree : (0 : UInt8) ∉ data := fun member => closed (.inr member)
    rw [cstr_of_nul_free nulFree]
    rwa [requestBuffer_full closed, show cstr [] = [] from rfl, List.append_nil] at alone

/-- What is asked for is answered alike, whatever stands behind the buffer. -/
theorem answers_requestBuffer_iff {data : Bytes}
    (fits : ∀ beyond, WordsFit (requestBuffer data beyond)) (requested : Option Nat) (beyond : Bytes) :
    Answers requested (requestBuffer data beyond) ↔ Answers requested (cstr data) := by
  by_cases closed : Closed data
  · rw [requestBuffer_closed closed]
  · have nulFree : (0 : UInt8) ∉ data := fun member => closed (.inr member)
    have longer : ∀ more, (0 : UInt8) ∉ more → WordsFit (data ++ more) := by
      intro more absent
      have fit := fits more
      rwa [requestBuffer_full closed, cstr_of_nul_free absent] at fit
    have methodEnds : behindWord data ≠ [] := finished_of_fits fun more absent => (longer more absent).method
    have targetEnds : behindTarget data ≠ [] := by
      apply finished_of_fits
      intro more absent
      have short := (longer more absent).target
      rwa [target, (firstWord_append methodEnds more).2] at short
    rw [requestBuffer_full closed, cstr_of_nul_free nulFree]
    obtain ⟨sameMethod, sameTarget, -⟩ := words_append methodEnds targetEnds (cstr beyond)
    unfold Answers HasOrigin
    rw [sameMethod, sameTarget]
    by_cases transparent : isTransparent (method data) = true
    · have originEnds : target data = scheme → behindWord (behindTarget data) ≠ [] := by
        intro bare
        apply finished_of_fits
        intro more absent
        obtain ⟨still, stillBare, rest⟩ := words_append methodEnds targetEnds more
        have short := (longer more absent).origin (by rw [still]; exact transparent)
          (by rw [stillBare]; exact bare)
        rwa [rest] at short
      rw [originWord_append methodEnds targetEnds originEnds]
    · rw [if_neg transparent, if_neg transparent]

/-- Where the words of the request line fit their arrays, the detector accepts nothing but proxy
requests, with the port they name, exactly for these three kinds of first reads. -/
theorem acceptsOnlyRequests_iff {data : Bytes} (nonempty : data ≠ [])
    (fits : ∀ beyond, WordsFit (requestBuffer data beyond)) :
    AcceptsOnlyRequests data ↔ AsksForTunnel data ∨ AsksForOrigin data ∨ IsRefused data := by
  rw [acceptsOnlyRequests_iff_answers nonempty]
  simp only [answers_requestBuffer_iff fits, forall_const]
  exact answers_iff (wordsFit_cstr fits).target

theorem acceptsOnlyRequests_tunnel :
    AcceptsOnlyRequests (bytes "CONNECT example.com:443 HTTP/1.1\r\n\r\n") := by
  have closed : Closed (bytes "CONNECT example.com:443 HTTP/1.1\r\n\r\n") := .inl (by decide)
  have fits : ∀ beyond,
      WordsFit (requestBuffer (bytes "CONNECT example.com:443 HTTP/1.1\r\n\r\n") beyond) := by
    intro beyond
    rw [requestBuffer_closed closed]
    decide
  exact (acceptsOnlyRequests_iff (by decide) fits).mpr (.inl ⟨by decide, 443, by decide⟩)

/-- An unknown method without a target is accepted as a tunnel to an empty host. -/
theorem unknown_method_accepted :
    ¬ ∀ data : Bytes, data ≠ [] → data.length ≤ requestBufferSize → AcceptsOnlyRequests data := by
  intro claim
  have accepted := (claim (bytes "PUT\r\n\r\n") (by decide) (by decide) []
    (Session.make ⟨false, 0, 0, 0⟩ 0 0 0)).1
  obtain ⟨port, requested, -⟩ := accepted (by decide)
  have nothing : requestedPort (bytes "PUT\r\n\r\n") = none := by decide
  rw [nothing] at requested
  cases requested

end Detector

end NermalProxy
