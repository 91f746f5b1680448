import NermalProxy.Library.KeyedList
import NermalProxy.TimeMap

/-! # Users and their authentication

`AuthManager` keeps the users in the order they were added; a search by name takes the
first.  `authenticate` reports success for every string that decodes; only the user
name it hands back tells whether the credentials were accepted. -/

namespace NermalProxy

open NermalProxy.CString NermalProxy.KeyedList

structure User where
  name : Bytes
  password : Bytes
  ipList : List Bytes
  weeklyAccess : WeeklyAccess
  audit : Bool
  deriving DecidableEq, Repr

namespace User

/-- The constructor. -/
def make (name password : Bytes) : User := ⟨name, password, [], .make, false⟩

def addIp (user : User) (ipAddress : Bytes) : User :=
  { user with ipList := user.ipList ++ [ipAddress] }

def setAudit (user : User) (audit : Bool) : User := { user with audit }

def hasIpList (user : User) : Bool := user.ipList.length != 0

end User

namespace AuthManager

def addUser (users : List User) (name password : Bytes) : List User :=
  users ++ [User.make name password]

/-- Applied to every user of the name. -/
def forUser (users : List User) (username : Bytes) (change : User → User) : List User :=
  users.map (fun user => if user.name = username then change user else user)

def addUserIp (users : List User) (username ipAddress : Bytes) : List User :=
  forUser users username (fun user => user.addIp ipAddress)

def setAudit (users : List User) (username : Bytes) (audit : Bool) : List User :=
  forUser users username (fun user => user.setAudit audit)

def isAuditEnabled (users : List User) (username : Bytes) : Bool :=
  match lookup User.name username users with
  | some user => user.audit
  | none => false

def dayIndex (day : Bytes) : Option Nat :=
  if day = bytes "sun" then some 0
  else if day = bytes "mon" then some 1
  else if day = bytes "tue" then some 2
  else if day = bytes "wed" then some 3
  else if day = bytes "thr" then some 4
  else if day = bytes "fri" then some 5
  else if day = bytes "sat" then some 6
  else none

/-- The day names index the week within its table. -/
def setWeeklyAccess (users : List User) (userName day initString : Bytes) : List User × Bool :=
  match lookup User.name userName users with
  | none => (users, false)
  | some user =>
    match dayIndex day with
    | none => (users, false)
    | some dayIdx =>
      match user.weeklyAccess.initDayFromString dayIdx initString with
      | none => (users, false)
      | some (weeklyAccess, accepted) =>
        (adjust User.name userName (fun user => { user with weeklyAccess }) users, accepted)

/-- The user name that is stored on a match. -/
def authenticateIp (users : List User) (ipAddress : Bytes) : Option Bytes :=
  match users.find? (fun user => user.hasIpList && user.ipList.contains ipAddress) with
  | some user => some user.name
  | none => none

def authenticate_i (users : List User) (userName password : Bytes) : Bool :=
  users.any (fun user => user.name == userName && user.password == password)

def base64Value (c : UInt8) : Option UInt32 :=
  if 65 ≤ c && c ≤ 90 then some (c - 65).toUInt32
  else if 97 ≤ c && c ≤ 122 then some ((c - 97).toUInt32 + 26)
  else if 48 ≤ c && c ≤ 57 then some ((c - 48).toUInt32 + 52)
  else if c == 43 then some 62
  else if c == 47 then some 63
  else none

/-- The loop of `Base64Decode`: what it stores from here on, `none` for a null result. -/
def base64Loop : (idx : Nat) → (tmp : UInt32) → Bytes → Option Bytes
  | idx, _, [] => if idx % 4 ≠ 0 then none else some []
  | idx, tmp, c :: source =>
    match if c ≠ 61 then (base64Value c).map (fun value => tmp ||| (value &&& 0x3F)) else some tmp with
    | none => none
    | some tmp =>
      if (idx + 1) % 4 = 0 then
        (base64Loop (idx + 1) 0 source).map
          (fun stored => (tmp >>> 16).toUInt8 :: (tmp >>> 8).toUInt8 :: tmp.toUInt8 :: stored)
      else base64Loop (idx + 1) (tmp <<< 6) source

/-- The decoded bytes; the block that holds them is zeroed and larger. -/
def base64Decode (source : Bytes) : Option Bytes := base64Loop 0 0 (cstr source)

/-- The text after the first colon has become a blank. -/
def blankColon (credString : Bytes) : Bytes :=
  match strchr credString 58 with
  | some (_ :: rest) => cutAt credString 58 ++ 32 :: rest
  | _ => credString

/-- `sscanf(credString, "%s %s", user, pass)` into zeroed buffers, here for words that fit them: the
conversions have no width, and a word of 128 bytes or more is stored beyond its buffer. -/
def scanUserPass (credString : Bytes) : Bytes × Bytes :=
  match scanWord credString with
  | none => ([], [])
  | some (user, rest) =>
    match scanWord rest with
    | none => (user, [])
    | some (pass, _) => (user, pass)

/-- The name and the password that `Authenticate` takes out of the credentials, for words that fit its
arrays of 128 bytes. -/
def credentials (base64Creds : Bytes) : Option (Bytes × Bytes) :=
  (base64Decode base64Creds).map (fun decoded => scanUserPass (blankColon (cstr decoded)))

/-- The result, and `username` as the call leaves it. -/
def authenticate (users : List User) (base64Creds username : Bytes) : Bool × Bytes :=
  match credentials base64Creds with
  | none => (false, username)
  | some (user, pass) =>
    -- the result is true either way; only the name tells
    if authenticate_i users user pass then (true, user) else (true, username)

/-- `localTime` is what `localtime` returns, which may be null. -/
def accessAllowedAtTime (users : List User) (localTime : Option LocalTime) (username : Bytes) : Bool :=
  match lookup User.name username users, localTime with
  | some user, some time =>
    (user.weeklyAccess.permittedAtTime time.wday time.hour time.minute).getD false
  | _, _ => false

/-! ## What a positive answer says -/

theorem authenticateIp_sound {users : List User} {ipAddress username : Bytes}
    (matched : authenticateIp users ipAddress = some username) :
    ∃ user ∈ users, user.name = username ∧ ipAddress ∈ user.ipList := by
  unfold authenticateIp at matched
  cases search : users.find? (fun user => user.hasIpList && user.ipList.contains ipAddress) with
  | none =>
    rw [search] at matched
    cases matched
  | some user =>
    have listed := List.find?_some search
    rw [search] at matched
    simp only [Option.some.injEq] at matched
    simp only [Bool.and_eq_true, List.contains_iff_mem] at listed
    exact ⟨user, List.mem_of_find?_eq_some search, matched, listed.2⟩

theorem authenticate_i_sound {users : List User} {userName password : Bytes}
    (accepted : authenticate_i users userName password = true) :
    ∃ user ∈ users, user.name = userName ∧ user.password = password := by
  simpa [authenticate_i] using accepted

theorem accessAllowedAtTime_registered {users : List User} {localTime : Option LocalTime}
    {username : Bytes} (allowed : accessAllowedAtTime users localTime username = true) :
    ∃ user ∈ users, user.name = username := by
  unfold accessAllowedAtTime at allowed
  cases search : lookup User.name username users with
  | none => simp [search] at allowed
  | some user => exact ⟨user, mem_of_lookup search, key_of_lookup search⟩

/-- Credentials that decode but are not accepted leave the empty user name, which no registered
user has: the schedule check that follows then refuses them. -/
theorem authenticate_then_allowed {users : List User} (named : ∀ user ∈ users, user.name ≠ [])
    {base64Creds userName : Bytes} {localTime : Option LocalTime}
    (result : authenticate users base64Creds [] = (true, userName))
    (allowed : accessAllowedAtTime users localTime userName = true) :
    ∃ password, credentials base64Creds = some (userName, password) ∧
      authenticate_i users userName password = true := by
  unfold authenticate at result
  cases decoded : credentials base64Creds with
  | none => simp [decoded] at result
  | some pair =>
    obtain ⟨user, pass⟩ := pair
    simp only [decoded] at result
    by_cases accepted : authenticate_i users user pass = true
    · simp only [accepted, if_true, Prod.mk.injEq, true_and] at result
      subst result
      exact ⟨pass, rfl, accepted⟩
    · simp only [accepted, if_false, Prod.mk.injEq, true_and, Bool.false_eq_true] at result
      subst result
      obtain ⟨registered, member, empty⟩ := accessAllowedAtTime_registered allowed
      exact absurd empty (named registered member)

end AuthManager

end NermalProxy
