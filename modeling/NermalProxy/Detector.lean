import NermalProxy.ClientSocket

/-! # Proxy detection

`asyncDetector` makes one `::read` into a zeroed 4096-byte buffer and takes the host,
the port and the mode of the session out of the buffer's text with `sscanf`.  The text
ends at the first NUL, which after a full read lies behind the buffer.  The second half
of the module evaluates the parse on a request line. -/

namespace NermalProxy.Detector

open NermalProxy.CString

def requestBufferSize : Nat := 4096

/-- What an authorised session needs; `asyncDetector` stores it in the session. -/
structure Detection where
  host : Bytes
  port : Int
  request : Bytes
  transparent : Bool
  deriving DecidableEq, Repr

/-- The text in `buf` after a read of `data`; `beyond` is the memory behind the buffer. -/
def requestBuffer (data beyond : Bytes) : Bytes :=
  cstr (data ++ List.replicate (requestBufferSize - data.length) 0 ++ beyond)

/-- `sscanf(buf, "%1024s %1024s HTTP/1.%*d", mode, url)` into zeroed buffers of 1024 bytes.  What
follows the second `%s` stores nothing, and the count is not looked at.  The NUL of a word of 1024
bytes or more is stored behind its buffer; what that store changes is not modelled, so the
value stands for texts whose words fit. -/
def scanRequestLine (buffer : Bytes) : Bytes × Bytes :=
  match scanString 1024 buffer with
  | none => ([], [])
  | some (mode, rest) =>
    match scanString 1024 rest with
    | none => (mode, [])
    | some (url, _) => (mode, url)

/-- `sscanf(buf, "%*s http://%1024s HTTP/1.%*d", url)`; `none` when it does not return 1. -/
def scanOriginUrl (buffer : Bytes) : Option Bytes :=
  match scanWord buffer with
  | none => none
  | some (_, rest) =>
    match scanLiteral (bytes " http://") rest with
    | none => none
    | some rest => (scanString 1024 rest).map Prod.fst

/-- `sscanf(lastColon, ":%d", &port)` on the default of 80. -/
def scanPort (lastColon : Bytes) : Int :=
  match scanLiteral (bytes ":") lastColon with
  | none => 80
  | some rest =>
    match scanInt rest with
    | none => 80
    | some (port, _) => port

def isTransparent (mode : Bytes) : Bool :=
  if mode = bytes "CONNECT" then false
  else if mode = bytes "GET" then true
  else if mode = bytes "POST" then true
  else false

/-- The parse of the buffer; `none` is `success = false`.  It is the code's for words of less than
1024 bytes, as the scans are. -/
def detect (buffer : Bytes) : Option Detection :=
  let (mode, url) := scanRequestLine buffer
  if !isTransparent mode then
    -- also for a method that is none of the three
    match strchr url 58 with
    | some lastColon =>
      some { host := cutAt url 58, port := scanPort lastColon, request := buffer, transparent := false }
    | none => some { host := url, port := 80, request := buffer, transparent := false }
  else
    -- the host goes up to the first slash, a port of the URL with it
    match scanOriginUrl buffer with
    | none => none
    | some url => some { host := cutAt url 47, port := 80, request := buffer, transparent := true }

/-- From the result of the one `::read` to what goes into the session. -/
def asyncDetector (result : ReadResult) (beyond : Bytes) : Option Detection :=
  match result with
  | .data data => if data.length = 0 then none else detect (requestBuffer data beyond)
  | _ => none

/-! ## The request buffer -/

/-- A short read without a NUL is stored as it is. -/
theorem requestBuffer_eq {data : Bytes} (nulFree : (0 : UInt8) ∉ data)
    (short : data.length < requestBufferSize) (beyond : Bytes) :
    requestBuffer data beyond = data := by
  obtain ⟨padding, padded⟩ : ∃ padding, requestBufferSize - data.length = padding + 1 :=
    ⟨requestBufferSize - data.length - 1, by omega⟩
  unfold requestBuffer
  rw [List.append_assoc, cstr_append_of_nul_free nulFree, padded]
  simp [cstr, List.replicate_succ]

theorem asyncDetector_data {data : Bytes} (nonempty : data ≠ []) (beyond : Bytes) :
    asyncDetector (.data data) beyond = detect (requestBuffer data beyond) := by
  have size : ¬ data.length = 0 := by simpa using nonempty
  simp [asyncDetector, size]

/-- The stored request is the buffer's text. -/
theorem detect_request {buffer : Bytes} {detection : Detection}
    (detected : detect buffer = some detection) : detection.request = buffer := by
  simp only [detect] at detected
  split at detected
  · split at detected <;> cases detected <;> rfl
  · split at detected
    · cases detected
    · cases detected; rfl

/-! ## Request lines -/

/-- The word that the first `sscanf` stores in `url`: a first word that is too long for `mode`
runs over into it. -/
def urlWord (method target : Bytes) : Bytes :=
  if method.length ≤ 1024 then target.take 1024 else (method.drop 1024).take 1024

theorem scanRequestLine_words {method target rest : Bytes} (isMethod : IsWord method)
    (isTarget : IsWord target) (delimits : Delimits rest) :
    scanRequestLine (method ++ 32 :: (target ++ rest)) =
      (method.take 1024, urlWord method target) := by
  have blank : Delimits (32 :: (target ++ rest)) := rfl
  unfold scanRequestLine
  rw [scanString_word (by omega) isMethod blank]
  by_cases fits : method.length ≤ 1024
  · simp only [List.drop_eq_nil_of_le fits, List.nil_append, scanString_space,
      scanString_word (by omega : 0 < 1024) isTarget delimits, urlWord, fits, if_true]
  · have overrun := isMethod.drop (by omega : 1024 < method.length)
    simp only [scanString_word (by omega : 0 < 1024) overrun blank, urlWord, fits, if_false]

theorem scanOriginUrl_words {method target rest : Bytes} (isMethod : IsWord method)
    (isTarget : IsWord target) (delimits : Delimits rest) (proper : target ≠ bytes "http://") :
    scanOriginUrl (method ++ 32 :: (target ++ rest)) =
      if (bytes "http://").isPrefixOf target then some ((target.drop 7).take 1024) else none := by
  have blank : Delimits (32 :: (target ++ rest)) := rfl
  have leading : scanLiteral (bytes " http://") (32 :: (target ++ rest)) =
      scanLiteral (bytes "http://") (target ++ rest) := by
    have skipped : skipSpace (32 :: (target ++ rest)) = target ++ rest := by
      rw [skipSpace_space, skipSpace_of_spaceless isTarget]
    rw [show bytes " http://" = 32 :: bytes "http://" from by decide, scanLiteral,
      if_pos (by decide), skipped]
  unfold scanOriginUrl
  rw [scanWord_word isMethod blank]
  simp only [leading]
  rw [scanLiteral_word (spaceless_of_all (by decide)) delimits]
  by_cases starts : (bytes "http://").isPrefixOf target = true
  · have size : (bytes "http://").length = 7 := by decide
    have longer : 7 < target.length := by
      have atLeast := (List.isPrefixOf_iff_prefix.mp starts).length_le
      have notSame : target.length ≠ 7 := by
        intro same
        exact proper ((List.isPrefixOf_iff_prefix.mp starts).eq_of_length (by omega)).symm
      omega
    have isRest := isTarget.drop longer
    simp only [starts, if_true, size, scanString_word (by omega : 0 < 1024) isRest delimits,
      Option.map_some]
  · simp [starts]

/-- Host, port and mode, as a function of the first two words alone. -/
def endpoint (method target : Bytes) : Option (Bytes × Int × Bool) :=
  if !isTransparent (method.take 1024) then
    match strchr (urlWord method target) 58 with
    | some lastColon => some (cutAt (urlWord method target) 58, scanPort lastColon, false)
    | none => some (urlWord method target, 80, false)
  else if (bytes "http://").isPrefixOf target then
    some (cutAt ((target.drop 7).take 1024) 47, 80, true)
  else none

def Detection.endpoint (detection : Detection) : Bytes × Int × Bool :=
  (detection.host, detection.port, detection.transparent)

/-- The parse depends on the first two words only, whatever follows them. -/
theorem detect_words {method target rest : Bytes} (isMethod : IsWord method)
    (isTarget : IsWord target) (delimits : Delimits rest) (proper : target ≠ bytes "http://") :
    (detect (method ++ 32 :: (target ++ rest))).map Detection.endpoint = endpoint method target := by
  simp only [detect, scanRequestLine_words isMethod isTarget delimits,
    scanOriginUrl_words isMethod isTarget delimits proper, endpoint]
  by_cases tunnel : isTransparent (method.take 1024) = true
  · by_cases starts : (bytes "http://").isPrefixOf target = true
    · simp [tunnel, starts, Detection.endpoint]
    · simp [tunnel, starts]
  · simp only [tunnel, Bool.not_false, if_true]
    cases strchr (urlWord method target) 58 <;> rfl

end NermalProxy.Detector
