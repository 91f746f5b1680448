import NermalProxy.ClientSocket
import NermalProxy.Config
import NermalProxy.Statistics

/-! # Sessions

`SessionManager` keeps the live sessions in a linked list under a lock.  A pointer to a
session is modelled by its id: ids are never given out twice. -/

namespace NermalProxy

open NermalProxy.CString NermalProxy.KeyedList NermalProxy.Config

/-- What the constructor of `Session` leaves uninitialised. -/
structure SessionStorage where
  transparent : Bool
  clientRxBytes : UInt64
  clientTxBytes : UInt64
  port : UInt16
  deriving DecidableEq, Repr

structure Session where
  clientFd : Fd
  sessionId : Nat
  transparent : Bool
  clientRxBytes : UInt64
  clientTxBytes : UInt64
  hostUrl : Bytes
  port : UInt16
  request : Bytes
  clientIp : Bytes
  userName : Bytes
  timestamp : UInt64
  deriving DecidableEq, Repr

namespace Session

/-- The constructor, on storage that holds these values. -/
def make (storage : SessionStorage) (clientFd : Fd) (sessionId : Nat) (now : UInt64) : Session where
  clientFd := clientFd
  sessionId := sessionId
  transparent := storage.transparent
  clientRxBytes := storage.clientRxBytes
  clientTxBytes := storage.clientTxBytes
  hostUrl := []
  port := storage.port
  request := []
  clientIp := []
  userName := []
  timestamp := now

def setRequest (session : Session) (request : Bytes) : Session := { session with request }

def setHost (session : Session) (host : Bytes) : Session := { session with hostUrl := host }

/-- The parameter is a `uint16_t`. -/
def setPort (session : Session) (port : Int) : Session := { session with port := UInt16.ofInt port }

def setTransparent (session : Session) (transparent : Bool) : Session := { session with transparent }

def setClientAddress (session : Session) (ipAddress : Bytes) : Session :=
  { session with clientIp := ipAddress }

def setUserName (session : Session) (userName : Bytes) : Session := { session with userName }

def addRxBytes (session : Session) (count : Nat) : Session :=
  { session with clientRxBytes := session.clientRxBytes + UInt64.ofNat count }

def addTxBytes (session : Session) (count : Nat) : Session :=
  { session with clientTxBytes := session.clientTxBytes + UInt64.ofNat count }

/-- The two fields that identify a session; nothing changes them. -/
def key (session : Session) : Nat × Fd := (session.sessionId, session.clientFd)

end Session

structure SessionManager where
  /-- The id of the next session. -/
  sessionId : Nat
  sessionList : List Session
  deriving DecidableEq, Repr

namespace SessionManager

def getSession (manager : SessionManager) (sessionId : Nat) : Option Session :=
  lookup Session.sessionId sessionId manager.sessionList

def getSessionForClient (manager : SessionManager) (clientFd : Fd) : Option Session :=
  lookup Session.clientFd clientFd manager.sessionList

/-- The session it returns is looked up by the descriptor. -/
def createSession (manager : SessionManager) (storage : SessionStorage) (clientFd : Fd)
    (now : UInt64) : SessionManager × Option Session :=
  let manager : SessionManager :=
    { sessionId := manager.sessionId + 1
      sessionList := manager.sessionList ++ [Session.make storage clientFd manager.sessionId now] }
  (manager, manager.getSessionForClient clientFd)

/-- A change through a pointer to the session of this id. -/
def update (manager : SessionManager) (sessionId : Nat) (change : Session → Session) :
    SessionManager :=
  { manager with sessionList := adjust Session.sessionId sessionId change manager.sessionList }

/-- The audit entry of a session that ends. -/
def audit (settings : Settings) (now : UInt64) (session : Session) (stats : GlobalStats) :
    GlobalStats :=
  if session.hostUrl ≠ [] ∧ settings.authEnabled = true ∧
      AuthManager.isAuditEnabled settings.users session.userName = true then
    stats.record session.userName session.hostUrl
      (fun site => site.record (now - session.timestamp) session.clientRxBytes session.clientTxBytes)
  else stats

def endSession (settings : Settings) (now : UInt64) (sessionId : Nat) (manager : SessionManager)
    (stats : GlobalStats) : SessionManager × GlobalStats :=
  match manager.getSession sessionId with
  | none => (manager, stats)
  | some session =>
    ({ manager with sessionList := remove Session.sessionId sessionId manager.sessionList },
      audit settings now session stats)

/-! ## The list after each operation -/

def ids (manager : SessionManager) : List Nat := manager.sessionList.map Session.sessionId

def keys (manager : SessionManager) : List (Nat × Fd) := manager.sessionList.map Session.key

variable {manager : SessionManager} {sessionId other : Nat} {session : Session}

theorem getSession_sessionId (found : manager.getSession sessionId = some session) :
    session.sessionId = sessionId := key_of_lookup found

theorem mem_of_getSession (found : manager.getSession sessionId = some session) :
    session ∈ manager.sessionList := mem_of_lookup found

theorem mem_ids_iff : sessionId ∈ manager.ids ↔ ∃ session, manager.getSession sessionId = some session := by
  constructor
  · intro member
    obtain ⟨session, inList, rfl⟩ := List.mem_map.mp member
    exact exists_lookup inList
  · rintro ⟨session, found⟩
    rw [← getSession_sessionId found]
    exact List.mem_map_of_mem (mem_of_getSession found)

@[simp] theorem update_keys {change : Session → Session} (unchanged : ∀ x, (change x).key = x.key) :
    (manager.update sessionId change).keys = manager.keys :=
  map_adjust unchanged

theorem update_self (sessionId : Nat) : manager.update sessionId (fun session => session) = manager := by
  simp only [update, adjust_self]

theorem getSession_update_other {change : Session → Session} (unchanged : ∀ x, (change x).key = x.key)
    (different : other ≠ sessionId) :
    (manager.update sessionId change).getSession other = manager.getSession other :=
  lookup_adjust_other (fun x => congrArg Prod.fst (unchanged x)) different

theorem getSession_update_same {change : Session → Session} (unchanged : ∀ x, (change x).key = x.key) :
    (manager.update sessionId change).getSession sessionId =
      (manager.getSession sessionId).map change :=
  lookup_adjust_same (fun x => congrArg Prod.fst (unchanged x))

theorem endSession_list (settings : Settings) (now : UInt64) (sessionId : Nat)
    (manager : SessionManager) (stats : GlobalStats) :
    (endSession settings now sessionId manager stats).1 =
      { manager with sessionList := remove Session.sessionId sessionId manager.sessionList } := by
  unfold endSession
  cases found : manager.getSession sessionId with
  | some session => rfl
  | none =>
    have absent : ∀ x ∈ manager.sessionList, x.sessionId ≠ sessionId := lookup_eq_none.mp found
    have unchanged : remove Session.sessionId sessionId manager.sessionList = manager.sessionList := by
      apply List.eraseP_of_forall_not
      intro x member
      simpa using absent x member
    rw [unchanged]

end SessionManager

end NermalProxy
