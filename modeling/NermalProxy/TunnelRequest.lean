import NermalProxy.ProxyRequest
import NermalProxy.TransparentRequest

/-! # Parsing a CONNECT request

A target that fits its buffer is cut at its colon, so that the host is stored as the
client wrote it and the port behind the colon as a number; the request is stored whole. -/

namespace NermalProxy.Detector

open NermalProxy.CString

/-- `CONNECT h[:p] HTTP/1.` and what is read behind it, in a buffer that it does not fill. -/
structure TunnelRequest where
  host : Bytes
  /-- The digits behind the colon, if there is one. -/
  port : Option Bytes
  rest : Bytes
  isHost : IsWord host
  hostNulFree : (0 : UInt8) ∉ host
  colonFree : (58 : UInt8) ∉ host
  isPort : ∀ digits ∈ port, digits ≠ [] ∧ (∀ c ∈ digits, isDigit c = true) ∧ digitsValue digits ≤ 65535
  restNulFree : (0 : UInt8) ∉ rest
  fits : (host ++ portText port).length < 1024
  short : (bytes "CONNECT" ++ 32 :: (host ++ portText port ++ (bytes " HTTP/1." ++ rest))).length <
    requestBufferSize

namespace TunnelRequest

def writtenPort (request : TunnelRequest) : Nat :=
  match request.port with
  | none => 80
  | some digits => digitsValue digits

def target (request : TunnelRequest) : Bytes := request.host ++ portText request.port

def data (request : TunnelRequest) : Bytes :=
  bytes "CONNECT" ++ 32 :: (request.target ++ (bytes " HTTP/1." ++ request.rest))

variable {request : TunnelRequest}

theorem portText_visible {c : UInt8} (member : c ∈ portText request.port) : isSpace c = false ∧ c ≠ 0 := by
  cases written : request.port with
  | none =>
    rw [written] at member
    cases member
  | some digits =>
    rw [written, portText] at member
    rcases List.mem_cons.mp member with rfl | inside
    · decide
    · have visible := isDigit_visible ((request.isPort digits written).2.1 c inside)
      exact ⟨visible.1, visible.2.1⟩

theorem isWord_target : IsWord request.target := by
  refine ⟨by simp [target, request.isHost.1], fun c member => ?_⟩
  rcases List.mem_append.mp member with inHost | inPort
  · exact request.isHost.2 c inHost
  · exact (portText_visible inPort).1

theorem data_nul_free : (0 : UInt8) ∉ request.data := by
  have port : (0 : UInt8) ∉ portText request.port := fun member => (portText_visible member).2 rfl
  have protocol : (0 : UInt8) ∉ bytes "CONNECT" ∧ (0 : UInt8) ∉ bytes " HTTP/1." := by decide
  simp [data, target, request.hostNulFree, request.restNulFree, port, protocol]

theorem cut_target : cutAt request.target 58 = request.host := by
  apply cutAt_delimited request.colonFree
  cases request.port with
  | none => exact .inl rfl
  | some digits => exact .inr rfl

theorem storedPort_target : storedPort request.target = request.writtenPort := by
  cases written : request.port with
  | none =>
    rw [target, writtenPort, written, portText, List.append_nil, storedPort_of_notMem request.colonFree]
    rfl
  | some digits =>
    obtain ⟨nonempty, all, small⟩ := request.isPort digits written
    rw [target, writtenPort, written, portText,
      storedPort_digits request.colonFree nonempty all (by omega)]

/-- What the detector makes of the bytes read. -/
theorem detected (request : TunnelRequest) (beyond : Bytes) :
    asyncDetector (.data request.data) beyond = some
      { host := request.host
        port := request.writtenPort
        request := request.data
        transparent := false } := by
  have isMethod : IsWord (bytes "CONNECT") := by decide
  have ends : Delimits (bytes " HTTP/1." ++ request.rest) := rfl
  have method_ : method request.data = bytes "CONNECT" := method_line isMethod _ _
  have target_ : Detector.target request.data = request.target :=
    (target_line isMethod request.isWord_target ends).1
  have tunnel : isTransparent (method request.data) = false := by
    rw [method_]
    exact isTransparent_connect
  have whole : request.target.take 1024 = request.target := List.take_of_length_le request.fits.le
  rw [asyncDetector_data (by simp [data]), requestBuffer_eq data_nul_free request.short,
    detect_tunnel tunnel, method_, target_, urlWord_connect, whole, cut_target, storedPort_target]

/-- The task of a session that reads such a request stores just its host, its port and its text, and
reports success for the session. -/
theorem connect_request_stored (request : TunnelRequest) (beyond : Bytes) {state : State}
    {sessionId : Nat} {session : Session} (found : state.getSession sessionId = some session) :
    ∃ final,
      runTask sessionId .detectorEnter
        [.none, .read (.data request.data) beyond, .none, .none, .none, .none, .none] state = some final ∧
      final.pipe = state.pipe ++ [.hostDetectResult sessionId true] ∧
      ∃ stored, final.getSession sessionId = some stored ∧
        stored.hostUrl = request.host ∧ stored.port.toNat = request.writtenPort ∧
        stored.request = request.data ∧ stored.transparent = false := by
  obtain ⟨final, stores, after, written⟩ := runTask_setHost found
    { host := request.host, port := request.writtenPort, request := request.data, transparent := false }
  refine ⟨final, ?_, written, _, after, rfl, ?_, rfl, rfl⟩
  · rw [← stores, runTask]
    simp only [Worker.step, found]
    rw [runTask]
    simp only [Worker.step, request.detected beyond]
  · have small : request.writtenPort ≤ 65535 := by
      unfold writtenPort
      cases written : request.port with
      | none => decide
      | some digits => exact (request.isPort digits written).2.2
    change narrowed request.writtenPort = request.writtenPort
    rw [narrowed_natCast]
    omega

end TunnelRequest

/-- CONNECT mail.example.com:993 HTTP/1.0 -/
def tunnelRequest : TunnelRequest where
  host := bytes "mail.example.com"
  port := some (bytes "993")
  rest := bytes "0\r\n\r\n"
  isHost := by decide
  hostNulFree := by decide
  colonFree := by decide
  isPort := by
    rintro digits ⟨⟩
    exact ⟨by decide, List.all_eq_true.mp (by decide), by decide⟩
  restNulFree := by decide
  fits := by decide
  short := by decide

/-- In the one session of a proxy. -/
theorem connect_request_stored_one :
    ∃ final : State, ∃ stored, final.getSession 0 = some stored ∧ stored.hostUrl = bytes "mail.example.com" ∧
      stored.port.toNat = 993 := by
  let state : State :=
    { sessions := ⟨1, [Session.make ⟨false, 0, 0, 0⟩ 5 0 0]⟩, sockets := [], pipe := [], queue := []
      workers := [⟨0, .detectorEnter⟩], cache := [], stats := ⟨[], 0⟩, openFds := [5], closed := []
      responses := [], resent := [] }
  have found : state.getSession 0 = some (Session.make ⟨false, 0, 0, 0⟩ 5 0 0) := rfl
  obtain ⟨final, -, -, stored, after, host, port, -, -⟩ :=
    TunnelRequest.connect_request_stored tunnelRequest [] found
  exact ⟨final, stored, after, host, port⟩

end NermalProxy.Detector
