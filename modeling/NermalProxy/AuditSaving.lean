import NermalProxy.AuditFile

/-! # Saving the audit tables

`LogAndReset` has the statistics of every user written to a file and then clears the
tables.  Whether a file could be opened, and how much of a row each `::write` took, is
logged where it shows and does not reach the place that clears. -/

namespace NermalProxy

open NermalProxy.CString

/-- What the system calls for one user's file return: `::open`, the `::write` of the header, and
those of the rows. -/
structure FileCalls where
  opened : Bool
  header : WriteResult
  rows : Nat → WriteResult

/-- A file that has been opened, with what each `::write` has added to it. -/
structure SavedFile where
  name : Bytes
  writes : List Bytes

namespace WriteResult

/-- The call accepts all that it is given. -/
def TakesAll (offered : Bytes) (result : WriteResult) : Prop :=
  ∃ count, result = .accepts count ∧ offered.length ≤ count

theorem accepted_eq_iff {offered : Bytes} (nonempty : offered ≠ []) {result : WriteResult} :
    result.accepted offered = offered ↔ result.TakesAll offered := by
  cases result with
  | accepts count => simp [accepted, TakesAll, List.take_eq_self_iff]
  | error errno => simp [accepted, TakesAll, nonempty.symm]

end WriteResult

namespace SiteStats

/-- What the `::write` of the row adds to the file. -/
def writeToFile (site : SiteStats) (result : WriteResult) : Bytes := result.accepted site.logToFile

end SiteStats

namespace UserStats

/-- `LogToFile`; there is no file for a user without connections, nor where `::open` fails. -/
def writeToFile (user : UserStats) (logNumber : Int) (calls : FileCalls) : Option SavedFile :=
  if user.stats.length = 0 then none
  else if !calls.opened then none
  else
    match calls.header with
    | .error _ => some ⟨user.fileName logNumber, []⟩
    -- a short count passes, here and in the rows
    | .accepts count =>
      some ⟨user.fileName logNumber, headerString.take count ::
        user.stats.mapIdx (fun index site => site.writeToFile (calls.rows index))⟩

end UserStats

namespace GlobalStats

def logPersistence : Int := 30

/-- What `LogAndReset` leaves: the tables, `s_logNumber`, and the file of each user by its place in
the table. -/
structure Logged where
  stats : GlobalStats
  logNumber : Int
  files : Nat → Option SavedFile

/-- `LogAndReset`, with the files it writes. -/
def logToFiles (now : UInt64) (calls : Nat → FileCalls) (logNumber : Int) (stats : GlobalStats) :
    Logged where
  stats := logAndReset now
  logNumber := if logNumber + 1 > logPersistence then 0 else logNumber + 1
  files index := stats.userStats[index]?.bind (fun user => user.writeToFile logNumber (calls index))

/-- The statistics of a user and a host are in memory. -/
def Holds (stats : GlobalStats) (userName : Bytes) (site : SiteStats) : Prop :=
  ∃ user ∈ stats.userStats, user.userName = userName ∧ site ∈ user.stats

end GlobalStats

namespace SavedFile

/-- The row of the host at this place has been written, with its newline. -/
def HasRow (file : Option SavedFile) (index : Nat) (site : SiteStats) : Prop :=
  ∃ written, file = some written ∧ written.writes[index + 1]? = some (site.row ++ [10])

/-- The file has been opened and written completely. -/
def Complete (file : Option SavedFile) (user : UserStats) : Prop :=
  ∃ written, file = some written ∧
    written.writes = UserStats.headerString :: user.stats.map (fun site => site.row ++ [10])

end SavedFile

namespace GlobalStats

open SavedFile

/-- What has left the memory has been written, and what could not be written has not left it. -/
def DropsNothing (before : GlobalStats) (after : Logged) : Prop :=
  ∀ place user, before.userStats[place]? = some user →
    (∀ index site, user.stats[index]? = some site →
      ¬ after.stats.Holds user.userName site → HasRow (after.files place) index site) ∧
    (¬ Complete (after.files place) user → ∀ site ∈ user.stats, after.stats.Holds user.userName site)

end GlobalStats

/-- All calls for the user's file succeed and take what they are given, and the formatted rows are
whole: none is longer than its array, and no host ends early. -/
structure FileCalls.Succeed (calls : FileCalls) (user : UserStats) : Prop where
  opened : calls.opened = true
  header : calls.header.TakesAll UserStats.headerString
  rows : ∀ index site, user.stats[index]? = some site →
    (calls.rows index).TakesAll site.logToFile ∧ site.width ≤ 1022 ∧ (0 : UInt8) ∉ site.hostName

/-! ## One row -/

namespace SiteStats

theorem line_length (site : SiteStats) :
    site.line.length + site.hostName.length = (cstr site.hostName).length + site.width + 1 := by
  rw [line, show bytes "," = [44] from by decide, show bytes "\n" = [10] from by decide]
  simp only [width, List.length_append, List.length_singleton]
  omega

theorem logToFile_length (site : SiteStats) : site.logToFile.length = min 1023 site.line.length := by
  rw [logToFile, List.length_take]

theorem logToFile_nonempty (site : SiteStats) : site.logToFile ≠ [] := by
  have line := site.line_length
  have host : site.hostName.length ≤ site.width := by
    unfold width
    omega
  apply List.ne_nil_of_length_pos
  rw [logToFile_length]
  omega

/-- The whole row reaches the file exactly if it is formatted whole and the call takes it all. -/
theorem writeToFile_eq_iff {site : SiteStats} {result : WriteResult} :
    site.writeToFile result = site.row ++ [10] ↔
      result.TakesAll site.logToFile ∧ site.width ≤ 1022 ∧ (0 : UInt8) ∉ site.hostName := by
  have lineLength := site.line_length
  have hostLength := cstr_length_le site.hostName
  have fileLength := site.logToFile_length
  constructor
  · intro whole
    have taken := result.accepted_prefix site.logToFile
    have lengths := taken.length_le
    change site.writeToFile result <+: site.logToFile at taken
    change (site.writeToFile result).length ≤ site.logToFile.length at lengths
    rw [whole, List.length_append, row_length, List.length_singleton] at lengths
    have fits : site.width ≤ 1022 := by omega
    have sameHost : cstr site.hostName = site.hostName :=
      (List.takeWhile_prefix _).eq_of_length (by
        change (cstr site.hostName).length = site.hostName.length
        omega)
    have all : site.writeToFile result = site.logToFile := by
      apply taken.eq_of_length
      rw [whole, List.length_append, row_length, List.length_singleton]
      omega
    refine ⟨(WriteResult.accepted_eq_iff site.logToFile_nonempty).mp all, fits, ?_⟩
    rw [← sameHost]
    exact cstr_nul_free _
  · rintro ⟨takesAll, fits, nulFree⟩
    rw [writeToFile, (WriteResult.accepted_eq_iff site.logToFile_nonempty).mpr takesAll, logToFile,
      line_of_nulFree nulFree, List.take_of_length_le]
    rw [List.length_append, row_length, List.length_singleton]
    omega

end SiteStats

/-! ## One file -/

namespace UserStats

open SavedFile

variable {user : UserStats} {calls : FileCalls}

/-- A complete file is one whose calls all succeed. -/
theorem complete_iff (nonempty : user.stats ≠ []) (logNumber : Int) :
    Complete (user.writeToFile logNumber calls) user ↔ calls.Succeed user := by
  have counted : ¬ user.stats.length = 0 := by simpa using nonempty
  unfold Complete writeToFile
  rw [if_neg counted]
  constructor
  · rintro ⟨written, file, complete⟩
    cases opened : calls.opened with
    | false => simp [opened] at file
    | true =>
      simp only [opened, Bool.not_true, Bool.false_eq_true, if_false] at file
      cases header : calls.header with
      | error errno =>
        rw [header] at file
        cases file
        cases complete
      | accepts count =>
        rw [header] at file
        cases file
        simp only [List.cons.injEq] at complete
        obtain ⟨whole, rows⟩ := complete
        refine ⟨opened, ⟨count, header, List.take_eq_self_iff _ |>.mp whole⟩, fun index site at_ => ?_⟩
        have row := congrArg (fun writes => writes[index]?) rows
        simp only [List.getElem?_mapIdx, List.getElem?_map, at_, Option.map_some, Option.some.injEq] at row
        exact SiteStats.writeToFile_eq_iff.mp row
  · rintro ⟨opened, ⟨count, header, all⟩, rows⟩
    refine ⟨_, by rw [opened, header]; rfl, ?_⟩
    rw [List.take_of_length_le all]
    refine congrArg (List.cons headerString) (List.ext_getElem? ?_)
    intro index
    rw [List.getElem?_mapIdx, List.getElem?_map]
    cases at_ : user.stats[index]? with
    | none => rfl
    | some site => exact congrArg Option.some (SiteStats.writeToFile_eq_iff.mpr (rows index site at_))

theorem hasRow_of_complete {file : Option SavedFile} (complete : Complete file user) {index : Nat}
    {site : SiteStats} (at_ : user.stats[index]? = some site) : HasRow file index site := by
  obtain ⟨written, rfl, whole⟩ := complete
  refine ⟨written, rfl, ?_⟩
  rw [whole, List.getElem?_cons_succ, List.getElem?_map, at_, Option.map_some]

end UserStats

/-! ## All files -/

namespace GlobalStats

/-- Nothing is held behind a reset. -/
theorem not_holds_logToFiles {now : UInt64} {calls : Nat → FileCalls} {logNumber : Int}
    {stats : GlobalStats} {userName : Bytes} {site : SiteStats} :
    ¬ (logToFiles now calls logNumber stats).stats.Holds userName site := by
  rintro ⟨user, member, -⟩
  cases member

/-- No audit data is dropped exactly if every file is opened and completely written. -/
theorem dropsNothing_iff (now : UInt64) (calls : Nat → FileCalls) (logNumber : Int)
    (stats : GlobalStats) :
    DropsNothing stats (logToFiles now calls logNumber stats) ↔
      ∀ place user, stats.userStats[place]? = some user → user.stats ≠ [] →
        (calls place).Succeed user := by
  have file : ∀ {place user}, stats.userStats[place]? = some user →
      (logToFiles now calls logNumber stats).files place = user.writeToFile logNumber (calls place) := by
    intro place user at_
    simp [logToFiles, at_]
  constructor
  · intro dropsNothing place user at_ nonempty
    rw [← UserStats.complete_iff nonempty logNumber, ← file at_]
    by_contra incomplete
    obtain ⟨site, member⟩ := List.exists_mem_of_ne_nil _ nonempty
    exact not_holds_logToFiles ((dropsNothing place user at_).2 incomplete site member)
  · intro succeed place user at_
    have complete : ∀ site ∈ user.stats,
        SavedFile.Complete ((logToFiles now calls logNumber stats).files place) user := by
      intro site member
      have nonempty : user.stats ≠ [] := List.ne_nil_of_mem member
      rw [file at_, UserStats.complete_iff nonempty logNumber]
      exact succeed place user at_ nonempty
    constructor
    · intro index site isAt _
      exact UserStats.hasRow_of_complete (complete site (List.mem_of_getElem? isAt)) isAt
    · exact fun incomplete site member => absurd (complete site member) incomplete

/-- A user with one host, whose file cannot be opened. -/
theorem unwritable_file_drops :
    ¬ ∀ (now : UInt64) (calls : Nat → FileCalls) (logNumber : Int) (stats : GlobalStats),
      DropsNothing stats (logToFiles now calls logNumber stats) := by
  intro claim
  have dropsNothing := claim 0 (fun _ => ⟨false, .error 13, fun _ => .error 13⟩) 0
    ⟨[⟨bytes "alice", [.make (bytes "a.com")]⟩], 0⟩
  refine not_holds_logToFiles ((dropsNothing 0 _ rfl).2 ?_ _ (List.mem_singleton_self _))
  rintro ⟨written, file, -⟩
  cases file

end GlobalStats

end NermalProxy
