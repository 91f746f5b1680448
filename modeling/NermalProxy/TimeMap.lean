import NermalProxy.Library.CString

/-! # Access schedules

A `TimeMap` has one flag for each half hour of a day, a `WeeklyAccess` one map for each
day of a week.  The source indexes both tables with `int`s that its checks do not
confine to them: `none` is such an access outside a table. -/

namespace NermalProxy

open NermalProxy.CString

def intervalTime : Int := 30

def minutesToIntervals (hours minutes : Int) : Int := (hours * 60 + minutes).tdiv intervalTime

def intervals : Nat := 48

structure TimeMap where
  accessIntervals : List Bool
  size : accessIntervals.length = intervals
  deriving DecidableEq, Repr

namespace TimeMap

/-- The constructor: access at any time. -/
def make : TimeMap := ⟨List.replicate intervals true, List.length_replicate⟩

/-- `'x'` and `'X'` forbid. -/
def permits (c : UInt8) : Bool := !(c == 120 || c == 88)

def initFromString (map : TimeMap) (initString : Bytes) : TimeMap × Bool :=
  if size : initString.length = intervals then
    (⟨initString.map permits, by simpa using size⟩, true)
  -- a string of another length leaves the day as it was
  else (map, false)

def permittedAtTime (map : TimeMap) (hour minute : Int) : Option Bool :=
  let interval := minutesToIntervals hour minute
  if interval ≥ intervals then some false
  else if interval < 0 then none
  else map.accessIntervals[interval.toNat]?

end TimeMap

def days : Nat := 7

structure WeeklyAccess where
  accessMap : List TimeMap
  size : accessMap.length = days
  deriving DecidableEq, Repr

namespace WeeklyAccess

def make : WeeklyAccess := ⟨List.replicate days .make, List.length_replicate⟩

def initDayFromString (access : WeeklyAccess) (day : Int) (initString : Bytes) :
    Option (WeeklyAccess × Bool) :=
  -- the day 7 gets past the check, and behind the array
  if day > days then some (access, false)
  else if day < 0 then none
  else
    match access.accessMap[day.toNat]? with
    | none => none
    | some map =>
      let (map, accepted) := map.initFromString initString
      some (⟨access.accessMap.set day.toNat map, by simpa using access.size⟩, accepted)

def permittedAtTime (access : WeeklyAccess) (day hour minute : Int) : Option Bool :=
  if day > days then some false
  else if day < 0 then none
  else
    match access.accessMap[day.toNat]? with
    | none => none
    | some map => map.permittedAtTime hour minute

end WeeklyAccess

/-- The fields that `localtime` fills in, within their documented ranges. -/
structure LocalTime where
  wday : Fin 7
  hour : Fin 24
  minute : Fin 60
  deriving DecidableEq, Repr

end NermalProxy
