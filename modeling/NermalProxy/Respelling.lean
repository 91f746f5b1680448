import NermalProxy.Policy
import NermalProxy.Segmentation

/-! # Spellings of a host

A DNS name has many spellings: letters in either case, with or without a last dot.  The
detector stores the host as the client spelled it and the filter compares bytes. -/

namespace NermalProxy.Respelling

open NermalProxy.CString NermalProxy.KeyedList NermalProxy.Detector NermalProxy.Segmentation
open NermalProxy.BlacklistList NermalProxy.UserPolicyList

/-- The request asks for this host: `CONNECT host[:port]`, or `GET` or `POST` with
`http://host[/path]`, in a target that fits the detector's buffer. -/
inductive AsksFor (host : Bytes) : Request → Prop
  | tunnel {request : Request} (method : request.method = bytes "CONNECT") (port : Bytes)
      (target : request.target = host ++ port) (delimited : port = [] ∨ port.head? = some 58)
      (fits : request.target.length < 1024) : AsksFor host request
  | origin {request : Request} (method : request.method = bytes "GET" ∨ request.method = bytes "POST")
      (path : Bytes) (target : request.target = bytes "http://" ++ (host ++ path))
      (delimited : path = [] ∨ path.head? = some 47) (fits : request.target.length < 1024) :
      AsksFor host request

/-- A host that the detector does not cut. -/
structure IsHost (host : Bytes) : Prop where
  noColon : (58 : UInt8) ∉ host
  noSlash : (47 : UInt8) ∉ host

/-- The decision for the session that the detector makes of the request; `none` when it makes none. -/
def decision (lists : List Blacklist) (policies : List UserPolicy) (user : Bytes)
    (request : Request) (beyond : Bytes) : Option Bool :=
  (detectFrom [request.text] beyond).map
    (fun detection => isAllowed lists policies user detection.host)

/-- Lower case, without one trailing dot. -/
def dnsName (host : Bytes) : Bytes :=
  (if host.getLast? = some 46 then host.dropLast else host).map
    (fun c => if 65 ≤ c && c ≤ 90 then c + 32 else c)

/-- A host and what follows it, up to the delimiter. -/
theorem cutAt_take_append {host rest : Bytes} {c : UInt8} (fits : (host ++ rest).length < 1024)
    (absent : c ∉ host) (delimited : rest = [] ∨ rest.head? = some c) :
    cutAt ((host ++ rest).take 1024) c = host := by
  rw [List.take_of_length_le fits.le]
  exact cutAt_delimited absent delimited

/-- The detector stores exactly the host that was asked for. -/
theorem detectFrom_host {host : Bytes} (isHost : IsHost host) {request : Request}
    (asks : AsksFor host request) (beyond : Bytes) :
    (detectFrom [request.text] beyond).map Detection.host = some host := by
  have reaches : request.targetEnd ≤ request.text.length := by
    simp [Request.text, Request.targetEnd]
    omega
  have detected := detectFrom_endpoint request reaches [] beyond
  rw [List.take_length] at detected
  have hostOf : (detectFrom [request.text] beyond).map Detection.host =
      (endpoint request.method request.target).map Prod.fst := by
    rw [← detected, Option.map_map]
    rfl
  rw [hostOf]
  cases asks with
  | tunnel method port target delimited fits =>
    have cut := cutAt_take_append (target ▸ fits) isHost.noColon delimited
    have mode : isTransparent ((bytes "CONNECT").take 1024) = false := by decide
    have short : (bytes "CONNECT").length ≤ 1024 := by decide
    rw [method, target]
    simp only [endpoint, mode, urlWord, short, if_true, Bool.not_false]
    split
    · rw [cut]
      rfl
    · rename_i absent
      rw [cutAt_of_strchr absent] at cut
      rw [cut]
      rfl
  | origin method path target delimited fits =>
    have shorter : (host ++ path).length < 1024 := by
      rw [target, List.length_append] at fits
      omega
    have cut := cutAt_take_append shorter isHost.noSlash delimited
    have mode : isTransparent (request.method.take 1024) = true := by
      rcases method with get | post
      · rw [get]; decide
      · rw [post]; decide
    have scheme : (bytes "http://").isPrefixOf request.target = true := by
      rw [target]
      exact List.isPrefixOf_iff_prefix.mpr (List.prefix_append _ _)
    have behind : request.target.drop 7 = host ++ path := by
      have size : (bytes "http://").length = 7 := by decide
      rw [target, ← size, List.drop_left]
    simp only [endpoint, mode, Bool.not_true, Bool.false_eq_true, if_false, scheme, if_true, behind, cut]
    rfl

theorem decision_eq {host : Bytes} (isHost : IsHost host) {request : Request}
    (asks : AsksFor host request) (lists : List Blacklist) (policies : List UserPolicy)
    (user beyond : Bytes) :
    decision lists policies user request beyond = some (isAllowed lists policies user host) := by
  have stored := detectFrom_host isHost asks beyond
  unfold decision
  cases detected : detectFrom [request.text] beyond with
  | none => simp [detected] at stored
  | some detection =>
    simp only [detected, Option.map_some, Option.some.injEq] at stored
    simp [stored]

/-- A list holds both spellings or neither. -/
def Indifferent (lists : List Blacklist) (first second domain : Bytes) : Prop :=
  ∀ list, lookup Blacklist.name domain lists = some list →
    (first ∈ list.blacklist ↔ second ∈ list.blacklist)

theorem isAllowedInList_congr {lists : List Blacklist} {first second domain : Bytes}
    (indifferent : Indifferent lists first second domain) :
    isAllowedInList lists domain first = true ↔ isAllowedInList lists domain second = true := by
  rw [isAllowedInList_iff, isAllowedInList_iff]
  constructor
  · rintro ⟨list, found, absent⟩
    exact ⟨list, found, fun present => absent ((indifferent list found).mpr present)⟩
  · rintro ⟨list, found, absent⟩
    exact ⟨list, found, fun present => absent ((indifferent list found).mp present)⟩

theorem isAllowed_congr {lists : List Blacklist} {policies : List UserPolicy}
    {user first second : Bytes}
    (indifferent : ∀ domain ∈ userDomains policies user ++ userDomains policies globalDomain,
      Indifferent lists first second domain) :
    isAllowed lists policies user first = isAllowed lists policies user second := by
  rw [Bool.eq_iff_iff, isAllowed_iff, isAllowed_iff]
  have own : ∀ domain ∈ userDomains policies user,
      (isAllowedInList lists domain first = true ↔ isAllowedInList lists domain second = true) :=
    fun domain member => isAllowedInList_congr (indifferent domain (List.mem_append_left _ member))
  have shared : ∀ domain ∈ userDomains policies globalDomain,
      (isAllowedInList lists domain first = true ↔ isAllowedInList lists domain second = true) :=
    fun domain member => isAllowedInList_congr (indifferent domain (List.mem_append_right _ member))
  exact and_congr (forall₂_congr own) (forall₂_congr shared)

/-- The global policy with one list of one host. -/
theorem isAllowed_single (listed user host : Bytes) :
    isAllowed [⟨bytes "ads", [listed]⟩] [⟨globalDomain, [bytes "ads"]⟩] user host = true ↔
      host ≠ listed := by
  have refuses : isAllowedInList [⟨bytes "ads", [listed]⟩] (bytes "ads") host = true ↔
      host ≠ listed := by
    simp [isAllowedInList_iff, lookup_cons]
  rw [isAllowed_iff]
  by_cases reserved : user = globalDomain
  · simp [userDomains, lookup_cons, reserved, refuses]
  · have other : ¬ globalDomain = user := fun same => reserved same.symm
    simp [userDomains, lookup_cons, other, refuses]

/-- Two request lines get the same decision where the consulted lists do not tell their hosts
apart; where the hosts differ in any byte, there are lists that do. -/
theorem respelled_decision {first second : Bytes} (isFirst : IsHost first) (isSecond : IsHost second)
    {request respelled : Request} (asksFirst : AsksFor first request)
    (asksSecond : AsksFor second respelled) (beyond beyondSecond : Bytes) :
    (∀ lists policies user,
      (∀ domain ∈ userDomains policies user ++ userDomains policies globalDomain,
        Indifferent lists first second domain) →
      decision lists policies user request beyond =
        decision lists policies user respelled beyondSecond) ∧
    (first ≠ second → ∃ lists policies, ∀ user,
      decision lists policies user request beyond ≠
        decision lists policies user respelled beyondSecond) := by
  simp only [decision_eq isFirst asksFirst, decision_eq isSecond asksSecond]
  constructor
  · intro lists policies user indifferent
    rw [isAllowed_congr indifferent]
  · intro differ
    refine ⟨[⟨bytes "ads", [second]⟩], [⟨globalDomain, [bytes "ads"]⟩], fun user same => ?_⟩
    have decisions := Option.some.inj same
    have allowed := (isAllowed_single second user first).mpr differ
    rw [decisions] at allowed
    exact (isAllowed_single second user second).mp allowed rfl

def spelling (upper : Bool) : Bytes :=
  if upper then bytes "ADS.example.com." else bytes "ads.example.com"

theorem isTarget_spelling (upper : Bool) : IsWord (spelling upper ++ bytes ":443") ∧
    spelling upper ++ bytes ":443" ≠ bytes "http://" := by
  cases upper with
  | true => decide
  | false => decide

theorem isRequest_spelling (upper : Bool) :
    (0 : UInt8) ∉ bytes "CONNECT" ++ 32 :: (spelling upper ++ bytes ":443" ++ bytes " HTTP/1.1\r\n\r\n") ∧
    (bytes "CONNECT" ++ 32 :: (spelling upper ++ bytes ":443" ++ bytes " HTTP/1.1\r\n\r\n")).length <
      requestBufferSize := by
  cases upper with
  | true => decide
  | false => decide

/-- The same tunnel in two spellings of the host. -/
def spelledRequest (upper : Bool) : Request where
  method := bytes "CONNECT"
  target := spelling upper ++ bytes ":443"
  rest := bytes " HTTP/1.1\r\n\r\n"
  isMethod := isWord_connect
  isTarget := (isTarget_spelling upper).1
  namesHost := (isTarget_spelling upper).2
  delimits := delimits_version
  nulFree := (isRequest_spelling upper).1
  short := (isRequest_spelling upper).2

theorem isHost_spelling (upper : Bool) : IsHost (spelling upper) := by
  cases upper <;> exact ⟨by decide, by decide⟩

theorem asksFor_spelling (upper : Bool) : AsksFor (spelling upper) (spelledRequest upper) := by
  refine .tunnel rfl (bytes ":443") rfl (.inr rfl) ?_
  cases upper <;> decide

theorem respelled_decision_differs : ∃ lists policies, ∀ user,
    decision lists policies user (spelledRequest true) [] ≠
      decision lists policies user (spelledRequest false) [] :=
  (respelled_decision (isHost_spelling true) (isHost_spelling false) (asksFor_spelling true)
    (asksFor_spelling false) [] []).2 (by decide)

/-- A blocked host is reached through another spelling of its name. -/
theorem filter_evaded_by_respelling :
    ¬ ∀ (first second : Bytes) (request respelled : Request), IsHost first → IsHost second →
      AsksFor first request → AsksFor second respelled → dnsName first = dnsName second →
      ∀ lists policies user,
        decision lists policies user request [] = decision lists policies user respelled [] := by
  intro claim
  have same := claim _ _ _ _ (isHost_spelling false) (isHost_spelling true) (asksFor_spelling false)
    (asksFor_spelling true) (by decide) [⟨bytes "ads", [bytes "ads.example.com"]⟩]
    [⟨globalDomain, [bytes "ads"]⟩] (bytes "user1")
  have blocked : decision [⟨bytes "ads", [bytes "ads.example.com"]⟩] [⟨globalDomain, [bytes "ads"]⟩]
      (bytes "user1") (spelledRequest false) [] = some false := by decide
  have passes : decision [⟨bytes "ads", [bytes "ads.example.com"]⟩] [⟨globalDomain, [bytes "ads"]⟩]
      (bytes "user1") (spelledRequest true) [] = some true := by decide
  rw [blocked, passes] at same
  cases same

end NermalProxy.Respelling
