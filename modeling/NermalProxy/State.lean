import NermalProxy.Detector
import NermalProxy.HostInfoCache
import NermalProxy.Session

/-! # The state of the running proxy

The main thread owns the registered sockets, the pool's threads own the tasks they
run, and all threads share the sessions, the pipe, the queue and the host cache, each
behind its lock.  `openFds` is the descriptor table of the process. -/

namespace NermalProxy

open NermalProxy.CString NermalProxy.KeyedList NermalProxy.Detector NermalProxy.HostInfoCache

/-- `AsyncMessage_t`. -/
inductive Message where
  | hostDetectResult (sessionId : Nat) (success : Bool)
  | hostConnectResult (sessionId : Nat) (proxyFd : Fd) (success : Bool)
  deriving DecidableEq, Repr

/-- A `WorkPackage`: its handler and the session id in its context. -/
inductive Task where
  | asyncDetector (sessionId : Nat)
  | asyncConnector (sessionId : Nat)
  deriving DecidableEq, Repr

/-- Where a worker is in `asyncDetector` or `asyncConnector`, with the local variables it
still needs.  A step runs from one access to shared data to the next. -/
inductive Pc where
  | detectorEnter
  | read (clientFd : Fd)
  | setHost (detection : Detection)
  | setPort (detection : Detection)
  | setRequest (detection : Detection)
  | setTransparent (detection : Detection)
  | detectReply (success : Bool)
  | connectorEnter
  | lookupHost (host : Bytes) (port : UInt16)
  | resolve (host : Bytes) (port : UInt16)
  | store (entry : HostInfo)
  | socket (addresses : List HostInfo)
  | connect (sockFd : Fd) (addresses : List HostInfo)
  /-- `sendErrorResponse` where nothing could be resolved, or no socket created. -/
  | abort
  /-- `sendErrorResponse` behind the loop over the addresses. -/
  | giveUp
  | clearCache
  | resend (sockFd : Fd)
  | setOptions (sockFd : Fd)
  | connectReply (sockFd : Fd)
  deriving DecidableEq, Repr

structure Worker where
  sessionId : Nat
  pc : Pc
  deriving DecidableEq, Repr

/-- A registered `IGenericSocket`. -/
inductive Socket where
  | server (fd : Fd)
  | command (fd : Fd)
  | client (socket : ClientSocket)
  deriving DecidableEq, Repr

/-- `GetFd`. -/
def Socket.fd : Socket → Fd
  | .server fd => fd
  | .command fd => fd
  | .client socket => socket.socketFd

theorem Socket.socketFd_of_lookup {fd : Fd} {sockets : List Socket} {socket : ClientSocket}
    (search : lookup Socket.fd fd sockets = some (.client socket)) : socket.socketFd = fd := by
  have named : Socket.fd (.client socket) = fd := key_of_lookup search
  exact named

structure State where
  sessions : SessionManager
  sockets : List Socket
  pipe : List Message
  queue : List Task
  workers : List Worker
  cache : List HostInfo
  stats : GlobalStats
  openFds : List Fd
  /-- What `::close` has been called on. -/
  closed : List Fd
  /-- The responses of the proxy's own as they were handed to `::write`, one call for each.  The code does
  not look at what these calls return: a client has got as much as its call has accepted. -/
  responses : List (Fd × Bytes)
  /-- What origins have accepted of the requests that connectors resend to them. -/
  resent : List (Fd × Bytes)

namespace State

def getSession (state : State) (sessionId : Nat) : Option Session :=
  state.sessions.getSession sessionId

/-- A change through a session pointer. -/
def updateSession (state : State) (sessionId : Nat) (change : Session → Session) : State :=
  { state with sessions := state.sessions.update sessionId change }

def writeMessage (state : State) (message : Message) : State :=
  { state with pipe := state.pipe ++ [message] }

/-- `ThreadPool::Dispatch`. -/
def dispatch (state : State) (task : Task) : State := { state with queue := state.queue ++ [task] }

def close (state : State) (fd : Fd) : State :=
  { state with openFds := state.openFds.erase fd, closed := state.closed ++ [fd] }

/-- Hands a response to `::write`, whose result is dropped. -/
def respond (state : State) (fd : Fd) (response : Bytes) : State :=
  { state with responses := state.responses ++ [(fd, response)] }

def resend (state : State) (sockFd : Fd) (request : Bytes) : State :=
  { state with resent := state.resent ++ [(sockFd, request)] }

/-- `SessionManager::EndSession`. -/
def endSession (settings : Config.Settings) (now : UInt64) (state : State) (sessionId : Nat) : State :=
  let (sessions, stats) := state.sessions.endSession settings now sessionId state.stats
  { state with sessions, stats }

end State

end NermalProxy
