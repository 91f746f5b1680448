import NermalProxy.Detector
import NermalProxy.Library.Words

/-! # The request line

What the detector makes of a buffer, as a function of the first words of its text: the
method, the target and, behind a bare `http://`, one word more. -/

namespace NermalProxy.Detector

open NermalProxy.CString

def method (text : Bytes) : Bytes := firstWord text

def target (text : Bytes) : Bytes := firstWord (behindWord text)

def behindTarget (text : Bytes) : Bytes := behindWord (behindWord text)

def scheme : Bytes := bytes "http://"

/-- The word that `http://%1024s` stores: white space behind the scheme is skipped. -/
def originWord (text : Bytes) : Bytes :=
  if target text = scheme then firstWord (behindTarget text) else (target text).drop 7

/-- The port that is stored for the `url` of a tunnel. -/
def storedPort (url : Bytes) : Int :=
  match strchr url 58 with
  | some lastColon => scanPort lastColon
  | none => 80

/-- The words that the detector stores leave room for their NULs in its arrays of 1024 bytes. -/
structure WordsFit (text : Bytes) : Prop where
  method : (method text).length < 1024
  target : (target text).length < 1024
  /-- A bare scheme is completed by the next word. -/
  origin : isTransparent (Detector.method text) = true → Detector.target text = scheme →
    (firstWord (behindTarget text)).length < 1024

theorem wordsFit_iff {text : Bytes} :
    WordsFit text ↔ (method text).length < 1024 ∧ (target text).length < 1024 ∧
      (isTransparent (method text) = true → target text = scheme →
        (firstWord (behindTarget text)).length < 1024) :=
  ⟨fun fit => ⟨fit.method, fit.target, fit.origin⟩, fun ⟨first, second, third⟩ => ⟨first, second, third⟩⟩

instance (text : Bytes) : Decidable (WordsFit text) := decidable_of_iff _ wordsFit_iff.symm

theorem drop_scheme (rest : Bytes) : (scheme ++ rest).drop 7 = rest := rfl

theorem method_nil_target {text : Bytes} (empty : method text = []) : target text = [] := by
  rw [target, behindWord_of_empty empty, firstWord_nil]

theorem take_width_eq_nil {text : Bytes} : text.take 1024 = [] ↔ text = [] := by
  simp [List.take_eq_nil_iff]

theorem scanRequestLine_eq (text : Bytes) :
    scanRequestLine text = ((method text).take 1024, urlWord (method text) (target text)) := by
  unfold scanRequestLine
  rw [scanString_eq]
  simp only [take_width_eq_nil]
  by_cases empty : firstWord text = []
  · simp [empty, method, method_nil_target, urlWord]
  · rw [if_neg empty]
    by_cases fits : (firstWord text).length ≤ 1024
    · have whole : (firstWord text).take 1024 = firstWord text := List.take_of_length_le fits
      simp only [whole, scanString_eq, take_width_eq_nil, method, urlWord, fits, if_true]
      by_cases missing : target text = []
      · simp only [target, behindWord] at missing
        simp [missing, target, behindWord]
      · simp only [target, behindWord] at missing
        simp [missing, target, behindWord]
    · have isWord := isWord_firstWord empty
      have dropped : (skipSpace text).drop ((firstWord text).take 1024).length =
          (firstWord text).drop 1024 ++ behindWord text := by
        rw [← firstWord_append_behindWord, List.length_take, Nat.min_eq_left (by omega),
          List.drop_append_of_le_length (by omega)]
      have overrun := isWord.drop (by omega : 1024 < (firstWord text).length)
      simp only [dropped, scanString_word (by omega : 0 < 1024) overrun (behindWord_delimits text),
        method, urlWord, fits, if_false]

theorem isTransparent_iff {word : Bytes} :
    isTransparent word = true ↔ word = bytes "GET" ∨ word = bytes "POST" := by
  by_cases tunnel : word = bytes "CONNECT"
  · subst tunnel
    decide
  · by_cases get : word = bytes "GET"
    · subst get
      decide
    · simp [isTransparent, tunnel, get]

@[simp] theorem isTransparent_take (word : Bytes) :
    isTransparent (word.take 1024) = isTransparent word := by
  by_cases fits : word.length ≤ 1024
  · rw [List.take_of_length_le fits]
  · have cutLength : (word.take 1024).length = 1024 := by
      rw [List.length_take]
      omega
    have notShort : ∀ word : Bytes, 1024 ≤ word.length → isTransparent word = false := by
      intro word long
      rw [Bool.eq_false_iff, Ne, isTransparent_iff]
      rintro (rfl | rfl)
      · exact absurd long (by decide)
      · exact absurd long (by decide)
    rw [notShort word (by omega), notShort (word.take 1024) (by omega)]

theorem scanOriginUrl_eq (text : Bytes) :
    scanOriginUrl text =
      if scheme.isPrefixOf (target text) = true ∧ originWord text ≠ [] then
        some ((originWord text).take 1024)
      else none := by
  unfold scanOriginUrl
  rw [scanWord_eq]
  by_cases empty : firstWord text = []
  · have missing : target text = [] := method_nil_target empty
    have absent : ¬ scheme.isPrefixOf (target text) = true := by
      rw [missing]
      decide
    simp [empty, absent]
  · have leading : scanLiteral (bytes " http://") (behindWord text) =
        scanLiteral scheme (target text ++ behindTarget text) := by
      rw [show bytes " http://" = 32 :: scheme from by decide, scanLiteral_space, target,
        behindTarget, firstWord_append_behindWord]
    have delimits : Delimits (behindTarget text) := behindWord_delimits _
    rw [if_neg empty]
    simp only [leading]
    rw [scanLiteral_word (spaceless_of_all (by decide)) delimits]
    by_cases starts : scheme.isPrefixOf (target text) = true
    · have size : scheme.length = 7 := by decide
      simp only [starts, if_true, size, true_and]
      by_cases bare : target text = scheme
      · have nothing : (target text).drop 7 = [] := by
          rw [bare]
          decide
        rw [nothing, List.nil_append, scanString_eq]
        simp only [take_width_eq_nil, originWord, bare, if_true]
        by_cases missing : firstWord (behindTarget text) = [] <;> simp [missing]
      · obtain ⟨more, split⟩ := List.isPrefixOf_iff_prefix.mp starts
        have rest : (target text).drop 7 = more := by
          rw [← split, drop_scheme]
        have longer : more ≠ [] := by
          rintro rfl
          exact bare (by simpa using split.symm)
        have isRest : IsWord more := by
          refine ⟨longer, fun c member => firstWord_spaceless (behindWord text) c ?_⟩
          have inTarget : c ∈ target text := by
            rw [← split]
            exact List.mem_append_right _ member
          exact inTarget
        rw [rest, scanString_word (by omega : 0 < 1024) isRest delimits]
        simp [originWord, bare, rest, longer]
    · simp [starts]

/-! ## The two modes -/

theorem detect_tunnel {text : Bytes} (tunnel : isTransparent (method text) = false) :
    detect text = some
      { host := cutAt (urlWord (method text) (target text)) 58
        port := storedPort (urlWord (method text) (target text))
        request := text
        transparent := false } := by
  simp only [detect, scanRequestLine_eq, isTransparent_take, tunnel, Bool.not_false, if_true, storedPort]
  cases search : strchr (urlWord (method text) (target text)) 58 with
  | some lastColon => rfl
  | none => rw [cutAt_of_strchr search]

theorem detect_transparent {text : Bytes} (transparent : isTransparent (method text) = true) :
    detect text =
      if scheme.isPrefixOf (target text) = true ∧ originWord text ≠ [] then
        some { host := cutAt ((originWord text).take 1024) 47, port := 80, request := text, transparent := true }
      else none := by
  simp only [detect, scanRequestLine_eq, isTransparent_take, transparent, Bool.not_true,
    Bool.false_eq_true, if_false, scanOriginUrl_eq]
  by_cases named : scheme.isPrefixOf (target text) = true ∧ originWord text ≠ []
  · simp only [if_pos named]
  · simp only [if_neg named]

/-- The host and the port that the words of a request name, unless it is refused. -/
def namedEndpoint (text : Bytes) : Option (Bytes × Int) :=
  if isTransparent (method text) = true then
    if scheme.isPrefixOf (target text) = true ∧ originWord text ≠ [] then
      some (cutAt ((originWord text).take 1024) 47, 80)
    else none
  else
    some (cutAt (urlWord (method text) (target text)) 58,
      storedPort (urlWord (method text) (target text)))

theorem detect_endpoint (text : Bytes) :
    (detect text).map (fun detection => (detection.host, detection.port)) = namedEndpoint text := by
  unfold namedEndpoint
  cases transparent : isTransparent (method text) with
  | false => simp [detect_tunnel transparent]
  | true =>
    rw [detect_transparent transparent, if_pos rfl]
    by_cases origin : scheme.isPrefixOf (target text) = true ∧ originWord text ≠ []
    · rw [if_pos origin, if_pos origin]
      rfl
    · rw [if_neg origin, if_neg origin]
      rfl

theorem mem_originWord {text : Bytes} {c : UInt8} (member : c ∈ originWord text) :
    c ∈ text ∧ isSpace c = false := by
  unfold originWord at member
  split at member
  · obtain ⟨inside, visible⟩ := mem_firstWord member
    exact ⟨mem_of_mem_behindWord (mem_of_mem_behindWord inside), visible⟩
  · obtain ⟨inside, visible⟩ := mem_firstWord (List.mem_of_mem_drop member)
    exact ⟨mem_of_mem_behindWord inside, visible⟩

theorem mem_urlWord {text : Bytes} {c : UInt8} (member : c ∈ urlWord (method text) (target text)) :
    c ∈ text ∧ isSpace c = false := by
  unfold urlWord at member
  split at member
  · obtain ⟨inside, visible⟩ := mem_firstWord (List.mem_of_mem_take member)
    exact ⟨mem_of_mem_behindWord inside, visible⟩
  · exact mem_firstWord (List.mem_of_mem_drop (List.mem_of_mem_take member))

/-- A host is cut out of one of the words. -/
theorem mem_host {text host : Bytes} {port : Int} {c : UInt8}
    (named : namedEndpoint text = some (host, port)) (member : c ∈ host) :
    c ∈ text ∧ isSpace c = false := by
  have cut : ∀ {word : Bytes} {d : UInt8}, c ∈ cutAt word d → c ∈ word :=
    fun inCut => (List.takeWhile_prefix _).subset inCut
  unfold namedEndpoint at named
  split at named
  · split at named
    · cases named
      exact mem_originWord (List.mem_of_mem_take (cut member))
    · cases named
  · cases named
    exact mem_urlWord (cut member)

/-! ## The words of a line -/

section Line

variable {first second rest : Bytes}

theorem method_line (isFirst : IsWord first) (second rest : Bytes) :
    method (first ++ 32 :: (second ++ rest)) = first := by
  have blank : Delimits (32 :: (second ++ rest)) := rfl
  exact firstWord_front isFirst blank

theorem behindMethod_line (isFirst : IsWord first) (second rest : Bytes) :
    behindWord (first ++ 32 :: (second ++ rest)) = [32] ++ (second ++ rest) := by
  have blank : Delimits (32 :: (second ++ rest)) := rfl
  exact behindWord_front isFirst blank

theorem isPadding_blank : IsPadding [32] := by
  intro c member
  rw [List.mem_singleton.mp member]
  rfl

theorem target_line (isFirst : IsWord first) (isSecond : IsWord second) (delimits : Delimits rest) :
    target (first ++ 32 :: (second ++ rest)) = second ∧
      behindTarget (first ++ 32 :: (second ++ rest)) = rest := by
  rw [target, behindTarget, behindMethod_line isFirst]
  exact ⟨firstWord_known isPadding_blank isSecond delimits,
    behindWord_known isPadding_blank isSecond delimits⟩

/-- A transparent request for `http://` and a word is detected, with the word up to the first slash
as its host; when there is no word and nothing more, it is refused. -/
theorem detect_origin {origin : Bytes} (isTransparentMethod : isTransparent first = true)
    (isFirst : IsWord first) (spaceless : ∀ c ∈ origin, isSpace c = false) (delimits : Delimits rest)
    (last : origin = [] → rest = []) :
    detect (first ++ 32 :: (scheme ++ origin ++ rest)) =
      if origin = [] then none
      else some
        { host := cutAt (origin.take 1024) 47
          port := 80
          request := first ++ 32 :: (scheme ++ origin ++ rest)
          transparent := true } := by
  have isTarget : IsWord (scheme ++ origin) := by
    refine ⟨by simp [scheme, bytes], fun c member => ?_⟩
    rcases List.mem_append.mp member with inScheme | inOrigin
    · exact spaceless_of_all (by decide : scheme.all (fun c => !isSpace c) = true) c inScheme
    · exact spaceless c inOrigin
  have methodIs := method_line isFirst (scheme ++ origin) rest
  obtain ⟨targetIs, behindIs⟩ := target_line isFirst isTarget delimits
  have starts : scheme.isPrefixOf (scheme ++ origin) = true :=
    List.isPrefixOf_iff_prefix.mpr (List.prefix_append _ _)
  rw [detect_transparent (by rw [methodIs]; exact isTransparentMethod), originWord, targetIs, behindIs]
  by_cases empty : origin = []
  · simp [empty, last empty]
  · have longer : ¬ scheme ++ origin = scheme := by simpa using empty
    simp only [longer, drop_scheme, starts, empty, if_false, ne_eq, not_false_eq_true, true_and, if_true]

end Line

end NermalProxy.Detector
