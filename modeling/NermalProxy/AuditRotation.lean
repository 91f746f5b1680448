import NermalProxy.AuditSaving
import NermalProxy.Library.KeyedList

/-! # The rotation of the audit logs

Each `LogAndReset` writes its files under the current `s_logNumber`, which goes round from
0 to 30.  So the files of the last 31 periods are kept, and a user never has more than 31. -/

namespace NermalProxy

open NermalProxy.CString NermalProxy.KeyedList

/-- What the working directory has behind an `::open` with `O_TRUNC` and its `::write`s. -/
def SavedFile.store (directory : List SavedFile) (file : SavedFile) : List SavedFile :=
  upsert SavedFile.name file.name ⟨file.name, []⟩ (fun old => { old with writes := file.writes }) directory

namespace GlobalStats

/-- What is counted until a `LogAndReset`, and what its calls return. -/
structure Period where
  stats : GlobalStats
  now : UInt64
  calls : Nat → FileCalls

/-- The working directory and `s_logNumber`. -/
structure Archive where
  directory : List SavedFile
  logNumber : Int

/-- The files of a period in the order in which they are written. -/
def Period.files (period : Period) (logNumber : Int) : List SavedFile :=
  (List.range period.stats.userStats.length).filterMap
    (logToFiles period.now period.calls logNumber period.stats).files

/-- `LogAndReset`. -/
def Archive.logAndReset (archive : Archive) (period : Period) : Archive where
  directory := (period.files archive.logNumber).foldl SavedFile.store archive.directory
  logNumber := (logToFiles period.now period.calls archive.logNumber period.stats).logNumber

/-- The archive after these periods; `directory` is what was there before the start. -/
def Archive.after (directory : List SavedFile) (periods : List Period) : Archive :=
  periods.foldl Archive.logAndReset ⟨directory, 0⟩

/-- The name is a part of a file name that is neither cut nor leads to another directory. -/
structure Plain (userName : Bytes) : Prop where
  nulFree : (0 : UInt8) ∉ userName
  noSlash : (47 : UInt8) ∉ userName
  short : userName.length ≤ 248

/-- The users of the period have different names, and plain ones. -/
structure Period.Named (period : Period) : Prop where
  distinct : (period.stats.userStats.map UserStats.userName).Nodup
  plain : ∀ user ∈ period.stats.userStats, Plain user.userName

end GlobalStats

/-! ## The directory -/

section Directory

variable {directory files : List SavedFile} {file other : SavedFile} {name : Bytes}

theorem keeps_name (writes : List Bytes) :
    ∀ old : SavedFile, ({ old with writes } : SavedFile).name = old.name := fun _ => rfl

theorem name_found : ((lookup SavedFile.name file.name directory).getD ⟨file.name, []⟩).name = file.name :=
  key_getD rfl

theorem lookup_store_same : lookup SavedFile.name file.name (file.store directory) = some file := by
  have fresh : SavedFile.name ⟨file.name, []⟩ = file.name := rfl
  rw [SavedFile.store, lookup_upsert_same (keeps_name file.writes) fresh, name_found]

theorem lookup_store_other (different : name ≠ file.name) :
    lookup SavedFile.name name (file.store directory) = lookup SavedFile.name name directory :=
  lookup_upsert_other (keeps_name file.writes) rfl different

theorem mem_store (member : other ∈ file.store directory) : other ∈ directory ∨ other.name = file.name := by
  rcases mem_upsert member with older | new
  · exact .inl older
  · rw [new]
    exact .inr name_found

theorem lookup_stored_other (absent : ∀ file ∈ files, name ≠ file.name) :
    lookup SavedFile.name name (files.foldl SavedFile.store directory) =
      lookup SavedFile.name name directory := by
  induction files generalizing directory with
  | nil => rfl
  | cons file files inductionHypothesis =>
    rw [List.foldl_cons, inductionHypothesis fun other member => absent other (List.mem_cons_of_mem _ member)]
    exact lookup_store_other (absent file (List.mem_cons_self ..))

/-- Of files with different names each one is there at the end. -/
theorem lookup_stored (distinct : (files.map SavedFile.name).Nodup) (member : file ∈ files) :
    lookup SavedFile.name file.name (files.foldl SavedFile.store directory) = some file := by
  induction files generalizing directory with
  | nil => cases member
  | cons first files inductionHypothesis =>
    rw [List.map_cons, List.nodup_cons] at distinct
    rw [List.foldl_cons]
    rcases List.mem_cons.mp member with rfl | later
    · have absent : ∀ other ∈ files, file.name ≠ other.name := by
        intro other isOther same
        exact distinct.1 (same ▸ List.mem_map_of_mem isOther)
      rw [lookup_stored_other absent]
      exact lookup_store_same
    · exact inductionHypothesis distinct.2 later

theorem mem_stored (member : other ∈ files.foldl SavedFile.store directory) :
    other ∈ directory ∨ ∃ file ∈ files, other.name = file.name := by
  induction files generalizing directory with
  | nil => exact .inl member
  | cons file files inductionHypothesis =>
    rw [List.foldl_cons] at member
    rcases inductionHypothesis member with older | ⟨later, isLater, same⟩
    · exact (mem_store older).imp_right fun same => ⟨file, List.mem_cons_self .., same⟩
    · exact .inr ⟨later, List.mem_cons_of_mem _ isLater, same⟩

end Directory

/-! ## The names of the files -/

namespace UserStats

open GlobalStats

theorem fileName_whole {user : UserStats} (plain : Plain user.userName) {number : Nat} (small : number < 31) :
    user.fileName number = user.userName ++ 95 :: (decimal number ++ bytes ".csv") := by
  have digits : (decimal number).length ≤ 2 := (decimal_length_le_iff (by decide)).mpr (by omega)
  have suffix : (bytes ".csv").length = 4 := rfl
  have whole : cstr user.userName = user.userName := by
    have same := cstr_append_of_nul_free plain.nulFree []
    simpa [cstr] using same
  have isShort := plain.short
  unfold fileName
  rw [whole, signedDecimal_of_int (by omega), List.take_of_length_le]
  · simp [show bytes "_" = [95] from by decide]
  · simp only [List.length_append, suffix, show (bytes "_").length = 1 from rfl]
    omega

/-- The name of a file tells its user and its number. -/
theorem fileName_injective {user other : UserStats} (plain : Plain user.userName)
    (otherPlain : Plain other.userName) {number otherNumber : Nat} (small : number < 31)
    (otherSmall : otherNumber < 31) (same : user.fileName number = other.fileName otherNumber) :
    user.userName = other.userName ∧ number = otherNumber := by
  have noUnderscore : ∀ n : Nat, (95 : UInt8) ∉ decimal n ++ bytes ".csv" := by
    intro n member
    rcases List.mem_append.mp member with digit | suffix
    · have isDigit := isDigit_of_mem_decimal digit
      revert isDigit
      decide
    · revert suffix
      decide
  rw [fileName_whole plain small, fileName_whole otherPlain otherSmall] at same
  have names := congrArg (cutAtLast · 95) same
  simp only [cutAtLast_append _ (noUnderscore _)] at names
  rw [names] at same
  have digits := List.append_cancel_right (List.cons.inj (List.append_cancel_left same)).2
  exact ⟨names, by rw [← digitsValue_decimal number, digits, digitsValue_decimal]⟩

theorem name_of_writeToFile {user : UserStats} {logNumber : Int} {calls : FileCalls} {file : SavedFile}
    (saved : user.writeToFile logNumber calls = some file) : file.name = user.fileName logNumber := by
  unfold writeToFile at saved
  split at saved
  · cases saved
  · split at saved
    · cases saved
    · split at saved
      · cases saved
        rfl
      · cases saved
        rfl

end UserStats

namespace GlobalStats

variable {period : Period} {directory : List SavedFile} {file : SavedFile}

theorem Period.mem_files {logNumber : Int} (member : file ∈ period.files logNumber) :
    ∃ user ∈ period.stats.userStats, file.name = user.fileName logNumber := by
  obtain ⟨place, -, saved⟩ := List.mem_filterMap.mp member
  obtain ⟨user, at_, written⟩ := Option.bind_eq_some_iff.mp saved
  exact ⟨user, List.mem_of_getElem? at_, UserStats.name_of_writeToFile written⟩

theorem Period.files_distinct (named : period.Named) {number : Nat} (small : number < 31) :
    ((period.files number).map SavedFile.name).Nodup := by
  rw [List.Nodup, List.pairwise_map]
  refine List.Pairwise.filterMap _ ?_ List.nodup_range
  intro place other different file saved otherFile otherSaved same
  obtain ⟨user, at_, written⟩ := Option.bind_eq_some_iff.mp saved
  obtain ⟨otherUser, otherAt, otherWritten⟩ := Option.bind_eq_some_iff.mp otherSaved
  rw [UserStats.name_of_writeToFile written, UserStats.name_of_writeToFile otherWritten] at same
  have sameUser := (UserStats.fileName_injective (named.plain _ (List.mem_of_getElem? at_))
    (named.plain _ (List.mem_of_getElem? otherAt)) small small same).1
  obtain ⟨inside, rfl⟩ := List.getElem?_eq_some_iff.mp at_
  obtain ⟨otherInside, rfl⟩ := List.getElem?_eq_some_iff.mp otherAt
  apply different
  have placeIn : place < (period.stats.userStats.map UserStats.userName).length := by simpa using inside
  have otherIn : other < (period.stats.userStats.map UserStats.userName).length := by simpa using otherInside
  exact (@List.Nodup.getElem_inj_iff _ _ named.distinct _ placeIn _ otherIn).mp (by simpa using sameUser)

/-- The number that a period is logged under. -/
def slot (index : Nat) : Nat := index % 31

theorem slot_lt (index : Nat) : slot index < 31 := Nat.mod_lt _ (by decide)

variable {periods : List Period}

theorem after_snoc : Archive.after directory (periods ++ [period]) =
    (Archive.after directory periods).logAndReset period := by
  simp [Archive.after]

theorem logNumber_after (directory : List SavedFile) (periods : List Period) :
    (Archive.after directory periods).logNumber = (slot periods.length : Nat) := by
  induction periods using List.reverseRecOn with
  | nil => rfl
  | append_singleton periods period inductionHypothesis =>
    rw [after_snoc]
    simp only [Archive.logAndReset, logToFiles, inductionHypothesis, List.length_append,
      List.length_singleton, logPersistence, slot]
    split <;> omega

/-- After any number of periods the files of the last 31 are as they were written, and a file that
was not there before the start is one of the at most 31 of its user. -/
theorem logs_retained (directory : List SavedFile) (periods : List Period)
    (named : ∀ period ∈ periods, period.Named) :
    (∀ index period, periods[index]? = some period → periods.length ≤ index + 31 →
      ∀ file ∈ period.files (slot index),
        lookup SavedFile.name file.name (Archive.after directory periods).directory = some file) ∧
    ∀ file ∈ (Archive.after directory periods).directory, file ∈ directory ∨
      ∃ period ∈ periods, ∃ user ∈ period.stats.userStats, ∃ number : Nat, number < 31 ∧
        file.name = user.fileName number := by
  induction periods using List.reverseRecOn with
  | nil => exact ⟨by simp, fun file member => .inl member⟩
  | append_singleton periods period inductionHypothesis =>
    obtain ⟨retained, known⟩ := inductionHypothesis fun other member =>
      named other (List.mem_append_left _ member)
    have isNamed := named period (by simp)
    rw [after_snoc]
    simp only [Archive.logAndReset, logNumber_after]
    constructor
    · intro index other at_ recent file member
      rw [List.length_append, List.length_singleton] at recent
      rcases Nat.lt_or_ge index periods.length with earlier | last
      · rw [List.getElem?_append_left earlier] at at_
        have elsewhere : slot index ≠ slot periods.length := by
          unfold slot
          omega
        rw [lookup_stored_other ?_]
        · exact retained index other at_ (by omega) file member
        · intro written isWritten same
          obtain ⟨user, isUser, name⟩ := Period.mem_files member
          obtain ⟨writer, isWriter, writtenName⟩ := Period.mem_files isWritten
          have plain := (named other (List.mem_append_left _ (List.mem_of_getElem? at_))).plain user isUser
          rw [name, writtenName] at same
          exact elsewhere (UserStats.fileName_injective plain (isNamed.plain writer isWriter) (slot_lt _)
            (slot_lt _) same).2
      · have isLast : index = periods.length := by
          have inside := (List.getElem?_eq_some_iff.mp at_).1
          rw [List.length_append, List.length_singleton] at inside
          omega
        subst isLast
        rw [List.getElem?_concat_length] at at_
        cases at_
        exact lookup_stored (Period.files_distinct isNamed (slot_lt _)) member
    · intro file member
      rcases mem_stored member with older | ⟨written, isWritten, same⟩
      · rcases known file older with before | ⟨other, isOther, rest⟩
        · exact .inl before
        · exact .inr ⟨other, List.mem_append_left _ isOther, rest⟩
      · obtain ⟨user, isUser, name⟩ := Period.mem_files isWritten
        exact .inr ⟨period, by simp, user, isUser, slot periods.length, slot_lt _, same.trans name⟩

/-- A first period with one row, and thirty periods without any. -/
theorem logs_retained_first :
    ∃ (periods : List Period) (file : SavedFile), periods.length = 31 ∧
      lookup SavedFile.name (bytes "bob_0.csv") (Archive.after [] periods).directory = some file := by
  let calls : Nat → FileCalls := fun _ => ⟨true, .accepts 1024, fun _ => .accepts 1024⟩
  let first : Period := ⟨⟨[⟨bytes "bob", [.make (bytes "a.com")]⟩], 0⟩, 0, calls⟩
  let quiet : Period := ⟨⟨[], 0⟩, 0, calls⟩
  have named : ∀ period ∈ first :: List.replicate 30 quiet, period.Named := by
    intro period member
    rcases List.mem_cons.mp member with rfl | later
    · refine ⟨List.nodup_singleton _, fun user isUser => ?_⟩
      rw [List.mem_singleton.mp isUser]
      exact ⟨by decide, by decide, by decide⟩
    · rw [(List.mem_replicate.mp later).2]
      exact ⟨List.nodup_nil, fun user isUser => by cases isUser⟩
  obtain ⟨file, isFile, name⟩ : ∃ file ∈ first.files 0, file.name = bytes "bob_0.csv" :=
    ⟨_, List.mem_singleton_self _, by decide⟩
  have kept := (logs_retained [] _ named).1 0 first rfl (by decide) file isFile
  rw [name] at kept
  exact ⟨_, file, by simp, kept⟩

end GlobalStats

end NermalProxy
