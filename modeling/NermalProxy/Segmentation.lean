import NermalProxy.Credentials
import NermalProxy.Detector

/-! # Detection and TCP segmentation

`asyncDetector` makes one `::read`, so of a request that arrives in several chunks it
parses the first.  Host, port, mode and credentials come out as for the whole request
once that chunk reaches behind them. -/

namespace NermalProxy.Segmentation

open NermalProxy.CString NermalProxy.Detector NermalProxy.Credentials

/-- A request as the client writes it: two words with one blank between them, and the version
and the headers behind them. -/
structure Request where
  method : Bytes
  target : Bytes
  rest : Bytes
  isMethod : IsWord method
  isTarget : IsWord target
  namesHost : target ≠ bytes "http://"
  delimits : Delimits rest
  nulFree : (0 : UInt8) ∉ method ++ 32 :: (target ++ rest)
  short : (method ++ 32 :: (target ++ rest)).length < requestBufferSize

def Request.text (request : Request) : Bytes :=
  request.method ++ 32 :: (request.target ++ request.rest)

/-- The number of bytes up to the end of the target. -/
def Request.targetEnd (request : Request) : Nat :=
  request.method.length + 1 + request.target.length

/-- The detector on a connection that delivers these chunks: its one `::read` gets the first. -/
def detectFrom (chunks : List Bytes) (beyond : Bytes) : Option Detection :=
  asyncDetector (match chunks with | [] => .endOfStream | first :: _ => .data first) beyond

/-- What is read of the first `n` bytes of a request, when they reach the end of the target. -/
theorem Request.take_text (request : Request) {n : Nat} (reaches : request.targetEnd ≤ n) :
    request.text.take n = request.method ++
      32 :: (request.target ++ request.rest.take (n - request.targetEnd)) := by
  obtain ⟨more, rfl⟩ := Nat.exists_eq_add_of_le reaches
  have whole : request.text = (request.method ++ 32 :: request.target) ++ request.rest := by
    simp [Request.text]
  have length : (request.method ++ 32 :: request.target).length = request.targetEnd := by
    simp [Request.targetEnd]
    omega
  rw [whole, ← length, List.take_length_add_append]
  simp [length]

theorem detectFrom_chunk (request : Request) {n : Nat} (reaches : request.targetEnd ≤ n)
    (others : List Bytes) (beyond : Bytes) :
    detectFrom (request.text.take n :: others) beyond = detect (request.text.take n) := by
  have nonempty : request.text.take n ≠ [] := by
    rw [request.take_text reaches]
    simp
  have nulFree : (0 : UInt8) ∉ request.text.take n := fun member =>
    request.nulFree (List.mem_of_mem_take member)
  have short : (request.text.take n).length < requestBufferSize :=
    Nat.lt_of_le_of_lt (List.length_take_le' n request.text) request.short
  rw [detectFrom, asyncDetector_data nonempty, requestBuffer_eq nulFree short]

/-- The endpoint is that of the whole request when the first chunk reaches the end of the target. -/
theorem detectFrom_endpoint (request : Request) {n : Nat} (reaches : request.targetEnd ≤ n)
    (others : List Bytes) (beyond : Bytes) :
    (detectFrom (request.text.take n :: others) beyond).map Detection.endpoint =
      endpoint request.method request.target := by
  rw [detectFrom_chunk request reaches, request.take_text reaches]
  exact detect_words request.isMethod request.isTarget (request.delimits.take _) request.namesHost

theorem detectFrom_request {request : Request} {n : Nat} (reaches : request.targetEnd ≤ n)
    {others : List Bytes} {beyond : Bytes} {detection : Detection}
    (detected : detectFrom (request.text.take n :: others) beyond = some detection) :
    detection.request = request.text.take n := by
  rw [detectFrom_chunk request reaches] at detected
  exact detect_request detected

/-- For every split whose first chunk reaches the end of the target, detection succeeds or fails
as on the whole request, with the same host, port and mode; the stored request yields the same
credentials if the chunk also reaches the end of what is read for them. -/
theorem detection_of_first_chunk (request : Request) (first : Bytes) (others : List Bytes)
    (beyond beyondWhole : Bytes) (split : (first :: others).flatten = request.text)
    (reaches : request.targetEnd ≤ first.length) :
    (detectFrom (first :: others) beyond).map Detection.endpoint =
      (detectFrom [request.text] beyondWhole).map Detection.endpoint ∧
    (authorizationEnd request.text ≤ first.length →
      (detectFrom (first :: others) beyond).map (fun detection => authorization detection.request) =
        (detectFrom [request.text] beyondWhole).map
          (fun detection => authorization detection.request)) := by
  have cut : request.text.take first.length = first := by
    rw [← split]
    simp
  have uncut : request.text.take request.text.length = request.text := List.take_length
  have wholeReaches : request.targetEnd ≤ request.text.length := by
    simp [Request.text, Request.targetEnd]
    omega
  have sameEndpoint : (detectFrom (first :: others) beyond).map Detection.endpoint =
      (detectFrom [request.text] beyondWhole).map Detection.endpoint := by
    have chunk := detectFrom_endpoint request reaches others beyond
    have whole := detectFrom_endpoint request wholeReaches [] beyondWhole
    rw [cut] at chunk
    rw [uncut] at whole
    rw [chunk, whole]
  refine ⟨sameEndpoint, fun credentialsInside => ?_⟩
  cases chunk : detectFrom (first :: others) beyond with
  | none =>
    cases whole : detectFrom [request.text] beyondWhole with
    | none => rfl
    | some detection => simp [chunk, whole] at sameEndpoint
  | some chunkDetection =>
    cases whole : detectFrom [request.text] beyondWhole with
    | none => simp [chunk, whole] at sameEndpoint
    | some detection =>
      rw [← cut] at chunk
      rw [← uncut] at whole
      simp only [Option.map_some, Option.some.injEq, detectFrom_request reaches chunk,
        detectFrom_request wholeReaches whole, uncut]
      exact authorization_take credentialsInside

theorem isWord_connect : IsWord (bytes "CONNECT") := by decide

theorem delimits_version : Delimits (bytes " HTTP/1.1\r\n\r\n") := rfl

def tunnelRequest : Request where
  method := bytes "CONNECT"
  target := bytes "example.com:443"
  rest := bytes " HTTP/1.1\r\n\r\n"
  isMethod := isWord_connect
  isTarget := by decide
  namesHost := by decide
  delimits := delimits_version
  nulFree := by decide
  short := by decide

/-- The first chunk ends with the target, the second holds the rest of the line. -/
theorem detection_of_first_chunk_tunnel :
    (detectFrom [bytes "CONNECT example.com:443", bytes " HTTP/1.1\r\n\r\n"] []).map
        Detection.endpoint =
      (detectFrom [tunnelRequest.text] []).map Detection.endpoint :=
  (detection_of_first_chunk tunnelRequest _ _ [] [] (by decide) (by decide)).1

/-- A first chunk that ends inside the host: detection succeeds with another host and port. -/
theorem detection_depends_on_split :
    ¬ ∀ (request : Request) (first : Bytes) (others : List Bytes),
      (first :: others).flatten = request.text →
      (detectFrom (first :: others) []).map Detection.endpoint =
        (detectFrom [request.text] []).map Detection.endpoint := by
  intro claim
  have same := claim tunnelRequest (bytes "CONNECT exam")
    [bytes "ple.com:443 HTTP/1.1\r\n\r\n"] (by decide)
  have chunk : (detectFrom [bytes "CONNECT exam", bytes "ple.com:443 HTTP/1.1\r\n\r\n"] []).map
      Detection.endpoint = some (bytes "exam", 80, false) := by decide
  have whole : (detectFrom [tunnelRequest.text] []).map Detection.endpoint =
      some (bytes "example.com", 443, false) := by decide
  rw [chunk, whole] at same
  exact absurd same (by decide)

end NermalProxy.Segmentation
