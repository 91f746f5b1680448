import NermalProxy.Credentials
import NermalProxy.Library.Words

/-! # The header of the credentials

A request has lines, of which those behind the first and before a blank one are its headers.
`HandleCommandSocketRead` does not look for lines: a text is searched for in the whole request,
and read on from there.  What it finds is the header of the credentials where the text first
occurs in that header. -/

namespace NermalProxy.Credentials

open NermalProxy.CString

/-! ## Headers -/

/-- The text from each beginning of a line on. -/
def lineStarts : (atStart : Bool) → Bytes → List Bytes
  | _, [] => []
  | atStart, c :: text =>
    (if atStart then [c :: text] else []) ++ lineStarts (c == 10) text

/-- The header section, by where its lines begin. -/
def headers (request : Bytes) : List Bytes :=
  (lineStarts true request).tail.takeWhile (fun start => cutAt start 10 ∉ [[], [13]])

/-- In ASCII. -/
def lower (text : Bytes) : Bytes := text.map (fun c => if 65 ≤ c && c ≤ 90 then c + 32 else c)

def trim (text : Bytes) : Bytes := (skipSpace text).rdropWhile isSpace

/-- The value of a `Proxy-Authorization` header of the scheme `Basic`, both names in any case. -/
def basicValue (line : Bytes) : Option (Option Bytes) :=
  let name := cutAt line 58
  let field := line.drop (name.length + 1)
  if 58 ∈ line ∧ lower name = bytes "proxy-authorization" ∧ lower (firstWord field) = bytes "basic" then
    let value := trim (behindWord field)
    some (if value = [] then none else some value)
  else none

/-- Where the first such header begins, and its value. -/
def headerField (request : Bytes) : Option (Bytes × Option Bytes) :=
  (headers request).findSome? (fun start => (basicValue (cutAt start 10)).map (Prod.mk start))

/-- Where the text that is searched for begins, and what is read behind it. -/
def foundField (request : Bytes) : Option (Bytes × Option Bytes) :=
  (strstr request authHeader).map (fun authString => (authString, scanCredentials authString))

theorem authorization_eq (request : Bytes) : authorization request = (foundField request).map Prod.snd := by
  rw [authorization, foundField, Option.map_map]
  rfl

/-- What stands behind the text, up to the end of the line. -/
def behindText (authString : Bytes) : Bytes := cutAt (authString.drop authHeader.length) 10

/-! ## One line -/

theorem rdropWhile_append {α : Type*} {p : α → Bool} (front back : List α) :
    (front ++ back).rdropWhile p =
      if back.rdropWhile p = [] then front.rdropWhile p else front ++ back.rdropWhile p := by
  simp only [List.rdropWhile, List.reverse_append, List.dropWhile_append, List.isEmpty_iff,
    List.reverse_eq_nil_iff]
  split <;> simp

/-- Without the blanks around it, a text is its first word and what follows that but blanks. -/
theorem trim_eq (text : Bytes) :
    trim text = firstWord text ++ (behindWord text).rdropWhile isSpace := by
  have whole : (firstWord text).rdropWhile isSpace = firstWord text := by
    rw [List.rdropWhile_eq_self_iff]
    intro nonempty space
    rw [firstWord_spaceless text _ (List.getLast_mem nonempty)] at space
    cases space
  rw [trim, ← firstWord_append_behindWord, rdropWhile_append, whole]
  split
  · rename_i nothing
    rw [nothing, List.append_nil]
  · rfl

theorem rdropWhile_eq_nil_iff_firstWord {text : Bytes} :
    text.rdropWhile isSpace = [] ↔ firstWord text = [] := by
  rw [List.rdropWhile_eq_nil_iff]
  constructor
  · intro blanks
    rw [firstWord, skipSpace, List.dropWhile_eq_nil_iff.mpr blanks]
    rfl
  · intro empty
    exact List.dropWhile_eq_nil_iff.mp (skipSpace_eq_nil_of_firstWord empty)

/-- What is scanned is the whole value exactly if that is one word that fits. -/
theorem trim_eq_take_iff {text : Bytes} (width : Nat) :
    trim text = (firstWord text).take width ↔
      firstWord (behindWord text) = [] ∧ (firstWord text).length ≤ width := by
  rw [trim_eq, ← rdropWhile_eq_nil_iff_firstWord]
  constructor
  · intro same
    have lengths := congrArg List.length same
    rw [List.length_append, List.length_take] at lengths
    have nothing : ((behindWord text).rdropWhile isSpace).length = 0 := by omega
    exact ⟨List.length_eq_zero_iff.mp nothing, by omega⟩
  · rintro ⟨nothing, fits⟩
    rw [nothing, List.append_nil, List.take_of_length_le fits]

/-- A header in the spelling of the text. -/
theorem basicValue_authHeader (line : Bytes) :
    basicValue (authHeader ++ line) = some (if trim line = [] then none else some (trim line)) := by
  have text : authHeader = bytes "Proxy-Authorization" ++ 58 :: ([32] ++ (bytes "Basic" ++ [32])) := by
    decide
  have split : authHeader ++ line =
      bytes "Proxy-Authorization" ++ 58 :: ([32] ++ (bytes "Basic" ++ 32 :: line)) := by
    rw [text]
    simp only [List.append_assoc, List.cons_append, List.nil_append]
  have name : cutAt (authHeader ++ line) 58 = bytes "Proxy-Authorization" := by
    rw [split]
    exact cutAt_append (by decide) _
  have field : (authHeader ++ line).drop ((bytes "Proxy-Authorization").length + 1) =
      [32] ++ (bytes "Basic" ++ 32 :: line) := by
    rw [split, List.drop_length_add_append, List.drop_succ_cons, List.drop_zero]
  have padding : IsPadding [32] := List.forall_mem_singleton.mpr rfl
  have scheme : IsWord (bytes "Basic") := by decide
  have delimits : Delimits (32 :: line) := rfl
  have blank : trim (32 :: line) = trim line := by rw [trim, skipSpace_space, trim]
  have colon : (58 : UInt8) ∈ authHeader ++ line := List.mem_append_left _ (by decide)
  have known : lower (bytes "Proxy-Authorization") = bytes "proxy-authorization" ∧
      lower (bytes "Basic") = bytes "basic" := by decide
  simp only [basicValue, name, field, firstWord_known padding scheme delimits,
    behindWord_known padding scheme delimits, blank, colon, known, and_self, if_true]

theorem cutAt_authHeader (rest : Bytes) : cutAt (authHeader ++ rest) 10 = authHeader ++ cutAt rest 10 :=
  List.takeWhile_append_of_pos (all_ne_of_notMem (by decide))

theorem firstWord_append_delimits {text more : Bytes} (present : firstWord text ≠ [])
    (delimits : Delimits more) : firstWord (text ++ more) = firstWord text := by
  by_cases unfinished : behindWord text = []
  · rw [firstWord_append_word present unfinished, word_of_delimits delimits, List.append_nil]
  · exact (firstWord_append unfinished more).1

/-- The scan stays on the line where that has a word. -/
theorem firstWord_cutAt {rest : Bytes} (present : firstWord (cutAt rest 10) ≠ []) :
    firstWord rest = firstWord (cutAt rest 10) := by
  have split : cutAt rest 10 ++ rest.dropWhile (· != 10) = rest := List.takeWhile_append_dropWhile
  have delimits : Delimits (rest.dropWhile (· != 10)) := by
    cases behind : rest.dropWhile (· != 10) with
    | nil => trivial
    | cons c more =>
      have ends := List.head?_dropWhile_not (· != 10) rest
      rw [behind] at ends
      have newline : c = 10 := by simpa using ends
      rw [newline]
      rfl
  conv_lhs => rw [← split]
  exact firstWord_append_delimits present delimits

/-! ## The request -/

variable {request authString : Bytes}

/-- The first occurrence of the text has something behind it on its line. -/
def Filled (request : Bytes) : Prop :=
  ∀ authString, strstr request authHeader = some authString → firstWord (behindText authString) ≠ []

theorem scanCredentials_filled (occurs : strstr request authHeader = some authString)
    (filled : Filled request) :
    scanCredentials authString = some ((firstWord (behindText authString)).take 1024) := by
  have present := filled authString occurs
  obtain ⟨rest, rfl⟩ := authString_split occurs
  rw [behindText, List.drop_left] at present ⊢
  rw [scanCredentials_append, scanString_eq, firstWord_cutAt present, if_neg, Option.map_some]
  intro empty
  have nothing := List.take_eq_nil_iff.mp empty
  exact present (nothing.resolve_left (by decide))

/-- The header of the credentials, where it is in the spelling of the text. -/
theorem basicValue_occurrence (occurs : strstr request authHeader = some authString)
    (filled : Filled request) :
    basicValue (cutAt authString 10) = some (some (trim (behindText authString))) := by
  have present := filled authString occurs
  obtain ⟨rest, rfl⟩ := authString_split occurs
  rw [behindText, List.drop_left] at present ⊢
  rw [cutAt_authHeader, basicValue_authHeader, if_neg]
  rw [trim_eq]
  exact fun empty => present (List.append_eq_nil_iff.mp empty).1

/-- No line of these is a header of the credentials. -/
def NoneBasic (starts : List Bytes) : Prop := ∀ start ∈ starts, basicValue (cutAt start 10) = none

/-- The first occurrence of the text begins a line of the header section, behind no header of the
credentials in another spelling, and what stands behind it is one word that fits. -/
def InHeader (request authString : Bytes) : Prop :=
  (∃ before after, headers request = before ++ authString :: after ∧ NoneBasic before) ∧
    firstWord (behindWord (behindText authString)) = [] ∧
    (firstWord (behindText authString)).length ≤ 1024

theorem headerField_eq_none_iff : headerField request = none ↔ NoneBasic (headers request) := by
  rw [headerField, List.findSome?_eq_none_iff]
  simp only [Option.map_eq_none_iff]
  rfl

theorem headerField_eq_some_iff {value : Option Bytes} :
    headerField request = some (authString, value) ↔
      (∃ before after, headers request = before ++ authString :: after ∧ NoneBasic before) ∧
        basicValue (cutAt authString 10) = some value := by
  rw [headerField, List.findSome?_eq_some_iff]
  simp only [Option.map_eq_none_iff, Option.map_eq_some_iff, Prod.mk.injEq]
  constructor
  · rintro ⟨before, start, after, split, ⟨found, isValue, rfl, rfl⟩, none_⟩
    exact ⟨⟨before, after, split, none_⟩, isValue⟩
  · rintro ⟨⟨before, after, split, none_⟩, isValue⟩
    exact ⟨before, authString, after, split, ⟨value, isValue, rfl, rfl⟩, none_⟩

/-- The credentials are the word behind the first occurrence of the text.  That is the header of the
credentials with its value exactly if there is neither, or if the text stands in that header. -/
theorem foundField_eq_iff (filled : Filled request) :
    authorization request = (strstr request authHeader).map
      (fun authString => some ((firstWord (behindText authString)).take 1024)) ∧
    (foundField request = headerField request ↔
      (strstr request authHeader = none ∧ NoneBasic (headers request)) ∨
        ∃ authString, strstr request authHeader = some authString ∧ InHeader request authString) := by
  cases occurs : strstr request authHeader with
  | none =>
    refine ⟨by rw [authorization, occurs]; rfl, ?_⟩
    rw [foundField, occurs, ← headerField_eq_none_iff]
    simp [eq_comm]
  | some authString =>
    have scanned := scanCredentials_filled occurs filled
    have value := basicValue_occurrence occurs filled
    refine ⟨by rw [authorization, occurs, Option.map_some, scanned]; rfl, ?_⟩
    rw [foundField, occurs, Option.map_some, scanned, eq_comm, headerField_eq_some_iff, value]
    simp only [Option.some.injEq, trim_eq_take_iff, reduceCtorEq, false_and, false_or, exists_eq_left',
      InHeader]

/-- A tunnel with the credentials "a:b". -/
theorem foundField_eq_iff_header :
    let request := bytes "CONNECT a:1 HTTP/1.0\r\nProxy-Authorization: Basic YTpi\r\n\r\n"
    authorization request = some (some (bytes "YTpi")) := by
  intro request
  have occurs : strstr request authHeader =
      some (bytes "Proxy-Authorization: Basic YTpi\r\n\r\n") := by decide
  have filled : Filled request := by
    intro authString found
    rw [occurs] at found
    cases found
    decide
  rw [(foundField_eq_iff filled).1, occurs]
  decide

/-- The text in the name of another header. -/
theorem other_header_taken : ¬ ∀ request, foundField request = headerField request := by
  intro claim
  have same := claim (bytes "CONNECT a:1 HTTP/1.0\r\nX-Proxy-Authorization: Basic YTpi\r\n\r\n")
  have found : (foundField (bytes "CONNECT a:1 HTTP/1.0\r\nX-Proxy-Authorization: Basic YTpi\r\n\r\n")
    ).isSome = true := by decide
  rw [same] at found
  exact absurd found (by decide)

end NermalProxy.Credentials
