import NermalProxy.Library.CString
import NermalProxy.Library.KeyedList

/-! # Audit statistics

`GlobalStats` holds a `UserStats` for each audited user and that one a `SiteStats` for
each host, both found or created by name. -/

namespace NermalProxy

open NermalProxy.CString NermalProxy.KeyedList

structure SiteStats where
  hostName : Bytes
  rxBytes : UInt64
  txBytes : UInt64
  totalTime : UInt64
  connections : Nat
  deriving DecidableEq, Repr

namespace SiteStats

/-- The constructor. -/
def make (hostName : Bytes) : SiteStats := ⟨hostName, 0, 0, 0, 0⟩

/-- What `EndSession` adds for one session. -/
def record (stats : SiteStats) (connectionTime rxBytes txBytes : UInt64) : SiteStats :=
  { stats with
    rxBytes := stats.rxBytes + rxBytes
    txBytes := stats.txBytes + txBytes
    totalTime := stats.totalTime + connectionTime
    connections := stats.connections + 1 }

end SiteStats

structure UserStats where
  userName : Bytes
  stats : List SiteStats
  deriving DecidableEq, Repr

structure GlobalStats where
  userStats : List UserStats
  lastLogTime : UInt64
  deriving DecidableEq, Repr

namespace GlobalStats

/-- In seconds. -/
def logFrequency : UInt64 := 3600 * 24

/-- A change of `GetStats(username, host)`. -/
def record (stats : GlobalStats) (username host : Bytes) (change : SiteStats → SiteStats) :
    GlobalStats :=
  { stats with
    userStats := upsert UserStats.userName username ⟨username, []⟩
      (fun user => { user with
        stats := upsert SiteStats.hostName host (.make host) change user.stats })
      stats.userStats }

def readyToLog (stats : GlobalStats) (now : UInt64) : Bool :=
  now - stats.lastLogTime > 1000 * logFrequency

/-- `LogAndReset`, without the files it writes. -/
def logAndReset (now : UInt64) : GlobalStats := ⟨[], now⟩

end GlobalStats

end NermalProxy
