import NermalProxy.RequestLine

/-! # Parsing a GET or POST request

The host of a transparent request is taken out of `http://host[:port][/path]` by a cut
at the first slash alone, so a port stays part of it. -/

namespace NermalProxy.Detector

open NermalProxy.CString

/-- The text of the port in a target, from its digits. -/
def portText : Option Bytes → Bytes
  | none => []
  | some digits => 58 :: digits

/-- `M http://h[:p][/path] HTTP/1.` and what is read behind it. -/
structure TransparentRequest where
  method : Bytes
  host : Bytes
  /-- The digits behind the colon, if there is one. -/
  port : Option Bytes
  path : Bytes
  rest : Bytes
  isMethod : method = bytes "GET" ∨ method = bytes "POST"
  isHost : IsWord host
  slashFree : (47 : UInt8) ∉ host
  colonFree : (58 : UInt8) ∉ host
  isPort : ∀ digits ∈ port, (∀ c ∈ digits, isDigit c = true) ∧
    1 ≤ digitsValue digits ∧ digitsValue digits ≤ 65535
  isPath : path = [] ∨ path.head? = some 47
  pathSpaceless : ∀ c ∈ path, isSpace c = false
  short : (scheme ++ (host ++ portText port ++ path)).length < 1024

namespace TransparentRequest

variable (request : TransparentRequest)

def writtenPort : Int :=
  match request.port with
  | none => 80
  | some digits => digitsValue digits

/-- The target behind the scheme. -/
def origin : Bytes := request.host ++ portText request.port ++ request.path

def target : Bytes := scheme ++ request.origin

def data : Bytes := request.method ++ 32 :: (request.target ++ bytes " HTTP/1." ++ request.rest)

variable {request}

theorem isWord_method : IsWord request.method := by
  rcases request.isMethod with get | post
  · rw [get]
    decide
  · rw [post]
    decide

theorem portText_visible {c : UInt8} (member : c ∈ portText request.port) :
    isSpace c = false ∧ c ≠ 0 ∧ c ≠ 47 := by
  cases written : request.port with
  | none =>
    rw [written] at member
    cases member
  | some digits =>
    rw [written, portText] at member
    rcases List.mem_cons.mp member with rfl | inside
    · decide
    · exact isDigit_visible ((request.isPort digits written).1 c inside)

theorem origin_spaceless : ∀ c ∈ request.origin, isSpace c = false := by
  intro c member
  rcases List.mem_append.mp member with front | inPath
  · rcases List.mem_append.mp front with inHost | inPort
    · exact request.isHost.2 c inHost
    · exact (portText_visible inPort).1
  · exact request.pathSpaceless c inPath

/-- The text in the buffer: a NUL in the target hides all that follows. -/
theorem requestBuffer_data (beyond : Bytes) :
    ∃ more, requestBuffer request.data beyond =
        request.method ++ 32 :: (scheme ++ cstr request.origin ++ more) ∧ Delimits more ∧
      ((0 : UInt8) ∈ request.origin → more = []) := by
  have front : (0 : UInt8) ∉ request.method ++ 32 :: scheme := by
    rcases request.isMethod with get | post
    · rw [get]
      decide
    · rw [post]
      decide
  rw [requestBuffer, List.append_assoc]
  generalize List.replicate (requestBufferSize - request.data.length) 0 ++ beyond = memory
  have ends : Delimits (bytes " HTTP/1." ++ request.rest ++ memory) := rfl
  obtain ⟨more, split, delimits, hidden⟩ := cstr_word_append request.origin ends
  refine ⟨more, ?_, delimits, hidden⟩
  have whole : request.data ++ memory = (request.method ++ 32 :: scheme) ++
      (request.origin ++ (bytes " HTTP/1." ++ request.rest ++ memory)) := by
    simp only [data, target, List.append_assoc, List.cons_append]
  rw [whole, cstr_append_of_nul_free front, split]
  simp only [List.append_assoc, List.cons_append]

theorem isTransparent_method : isTransparent request.method = true :=
  isTransparent_iff.mpr request.isMethod

theorem origin_nonempty : request.origin ≠ [] := by
  simp [origin, request.isHost.1]

/-- What the detector makes of the bytes read. -/
theorem detected (beyond : Bytes) :
    (asyncDetector (.data request.data) beyond).map Detection.endpoint =
      if cstr request.origin = [] then none else some (cutAt (cstr request.origin) 47, 80, true) := by
  obtain ⟨more, text, delimits, hidden⟩ := request.requestBuffer_data beyond
  have nonempty : request.data ≠ [] := by simp [data]
  have spaceless : ∀ c ∈ cstr request.origin, isSpace c = false :=
    fun c member => origin_spaceless c (List.takeWhile_prefix _ |>.subset member)
  have last : cstr request.origin = [] → more = [] := by
    intro empty
    refine hidden (Decidable.byContradiction fun nulFree => ?_)
    rw [cstr_of_nul_free nulFree] at empty
    exact origin_nonempty empty
  have fits : (cstr request.origin).take 1024 = cstr request.origin := by
    apply List.take_of_length_le
    have shorter := cstr_length_le request.origin
    have short : (scheme ++ request.origin).length < 1024 := request.short
    rw [List.length_append] at short
    omega
  rw [asyncDetector_data nonempty, text,
    detect_origin isTransparent_method isWord_method spaceless delimits last, fits]
  split <;> rfl

/-- What a cut at the first slash leaves, when no NUL is in the host. -/
theorem cut_origin (nulFree : (0 : UInt8) ∉ request.host) :
    cutAt (cstr request.origin) 47 = request.host ++ portText request.port := by
  have frontNulFree : (0 : UInt8) ∉ request.host ++ portText request.port := by
    intro member
    rcases List.mem_append.mp member with inHost | inPort
    · exact nulFree inHost
    · exact (portText_visible inPort).2.1 rfl
  have frontSlashFree : (47 : UInt8) ∉ request.host ++ portText request.port := by
    intro member
    rcases List.mem_append.mp member with inHost | inPort
    · exact request.slashFree inHost
    · exact (portText_visible inPort).2.2 rfl
  rw [origin, cstr_append_of_nul_free frontNulFree]
  apply cutAt_delimited frontSlashFree
  rcases request.isPath with none | slash
  · simp [none, cstr]
  · obtain ⟨path, split⟩ : ∃ path, request.path = 47 :: path := List.head?_eq_some_iff.mp slash
    exact .inr (by simp [split, cstr])

/-- A NUL in the host ends what is stored of it. -/
theorem cut_origin_of_nul (nul : (0 : UInt8) ∈ request.host) :
    cutAt (cstr request.origin) 47 ≠ request.host := by
  intro same
  have inCut : (0 : UInt8) ∈ cutAt (cstr request.origin) 47 := by rwa [same]
  exact cstr_nul_free _ ((List.takeWhile_prefix _).subset inCut)

/-- Detection succeeds with just the host and the port that the request names when it names no port
(and no NUL hides part of the host): a port that is written becomes part of the host. -/
theorem transparent_parse_iff (request : TransparentRequest) (beyond : Bytes) :
    (∃ detection, asyncDetector (.data request.data) beyond = some detection ∧
      detection.transparent = true ∧ detection.host = request.host ∧
      detection.port = request.writtenPort) ↔
      request.port = none ∧ (0 : UInt8) ∉ request.host := by
  have detected := request.detected beyond
  constructor
  · rintro ⟨detection, found, -, host, -⟩
    rw [found, Option.map_some] at detected
    split at detected
    · cases detected
    · have stored : detection.host = cutAt (cstr request.origin) 47 :=
        congrArg Prod.fst (Option.some.inj detected)
      rw [host] at stored
      have nulFree : (0 : UInt8) ∉ request.host := fun nul => cut_origin_of_nul nul stored.symm
      refine ⟨?_, nulFree⟩
      rw [cut_origin nulFree] at stored
      cases written : request.port with
      | none => rfl
      | some digits =>
        rw [written, portText] at stored
        have lengths := congrArg List.length stored
        simp only [List.length_append, List.length_cons] at lengths
        omega
  · rintro ⟨unwritten, nulFree⟩
    have cut := cut_origin nulFree
    rw [unwritten, portText, List.append_nil] at cut
    have nonempty : cstr request.origin ≠ [] := by
      intro empty
      rw [empty] at cut
      exact request.isHost.1 cut.symm
    rw [if_neg nonempty, cut] at detected
    obtain ⟨detection, found, endpoint⟩ := Option.map_eq_some_iff.mp detected
    simp only [Detection.endpoint, Prod.mk.injEq] at endpoint
    refine ⟨detection, found, endpoint.2.2, endpoint.1, ?_⟩
    rw [endpoint.2.1, writtenPort, unwritten]

end TransparentRequest

/-- GET http://example.com:8080/ HTTP/1.1 -/
def portRequest : TransparentRequest where
  method := bytes "GET"
  host := bytes "example.com"
  port := some (bytes "8080")
  path := bytes "/"
  rest := bytes "1\r\n\r\n"
  isMethod := .inl rfl
  isHost := by decide
  slashFree := by decide
  colonFree := by decide
  isPort := by
    rintro digits ⟨⟩
    exact ⟨List.all_eq_true.mp (by decide), by decide, by decide⟩
  isPath := .inr rfl
  pathSpaceless := spaceless_of_all (by decide)
  short := by decide

/-- The port is stored as part of the host, and 80 as the port. -/
theorem port_stored_in_host :
    ¬ ∀ (request : TransparentRequest) (beyond : Bytes),
      ∃ detection, asyncDetector (.data request.data) beyond = some detection ∧
        detection.transparent = true ∧ detection.host = request.host ∧
        detection.port = request.writtenPort := by
  intro claim
  obtain ⟨detection, found, -, -, port⟩ := claim portRequest []
  have stored : (asyncDetector (.data portRequest.data) []).map Detection.endpoint =
      some (bytes "example.com:8080", 80, true) := by decide
  rw [found, Option.map_some, Option.some.injEq] at stored
  have eighty : detection.port = 80 := congrArg (fun endpoint => endpoint.2.1) stored
  rw [eighty] at port
  exact absurd port (by decide)

end NermalProxy.Detector
