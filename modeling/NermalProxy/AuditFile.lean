import NermalProxy.Library.Printf
import NermalProxy.RequestLine
import NermalProxy.Statistics

/-! # Audit files

`LogToFile` writes one line for each host that a user has visited.  The host stands in
it as the client wrote it, and a line is cut to what an array of 1024 bytes holds. -/

namespace NermalProxy

open NermalProxy.CString NermalProxy.Detector

namespace SiteStats

/-- `"%s,%lu,%lu,%lu,%d\n"`. -/
def line (site : SiteStats) : Bytes :=
  cstr site.hostName ++ bytes "," ++ decimal site.rxBytes.toNat ++ bytes "," ++
    decimal site.txBytes.toNat ++ bytes "," ++ decimal site.totalTime.toNat ++ bytes "," ++
    signedDecimal site.connections ++ bytes "\n"

/-- What `LogToFile` writes: `snprintf` keeps the last place of its array for the NUL. -/
def logToFile (site : SiteStats) : Bytes := site.line.take 1023

/-- The fields that the row should have. -/
def fields (site : SiteStats) : List Bytes :=
  [site.hostName, decimal site.rxBytes.toNat, decimal site.txBytes.toNat,
    decimal site.totalTime.toNat, signedDecimal site.connections]

/-- The length of the row: its fields and four commas. -/
def width (site : SiteStats) : Nat :=
  site.hostName.length + (decimal site.rxBytes.toNat).length + (decimal site.txBytes.toNat).length +
    (decimal site.totalTime.toNat).length + (signedDecimal site.connections).length + 4

end SiteStats

namespace UserStats

def headerString : Bytes := bytes "host,rxBytes,txBytes,totalTime,connections\n"

def headerFields : List Bytes :=
  [bytes "host", bytes "rxBytes", bytes "txBytes", bytes "totalTime", bytes "connections"]

/-- `snprintf(fileName, sizeof(fileName), "%s_%d.csv", …)`. -/
def fileName (user : UserStats) (logNumber : Int) : Bytes :=
  (cstr user.userName ++ bytes "_" ++ signedDecimal logNumber ++ bytes ".csv").take 255

/-- The file's name and content, where `::open` succeeds and every `::write` takes all that it is
given; there is no file for a user without connections. -/
def logToFile (user : UserStats) (logNumber : Int) : Option (Bytes × Bytes) :=
  if user.stats.length = 0 then none
  else some (user.fileName logNumber, headerString ++ (user.stats.map SiteStats.logToFile).flatten)

/-- The lines of a file, each split at its commas. -/
def rows (content : Bytes) : List (List Bytes) :=
  (getlines content).map (fun line => (cutAt line 10).splitOn 44)

/-- The header, and then a row for each host in the order of the table. -/
def ReadsBack (user : UserStats) (logNumber : Int) : Prop :=
  ∀ name content, user.logToFile logNumber = some (name, content) →
    rows content = headerFields :: user.stats.map SiteStats.fields

/-- A host that the detector stores for a request line with a target of fewer than 1024 bytes. -/
def Storable (host : Bytes) : Prop :=
  host ≠ [] ∧ ∃ data beyond detection,
    data.length ≤ requestBufferSize ∧ asyncDetector (.data data) beyond = some detection ∧
      detection.host = host ∧
      method (requestBuffer data beyond) ∈ [bytes "CONNECT", bytes "GET", bytes "POST"] ∧
      (target (requestBuffer data beyond)).length < 1024

/-- No row loses anything but the newline of the last one. -/
def RowsFit (sites : List SiteStats) : Prop :=
  (∀ site ∈ sites, site.width ≤ 1023) ∧ ∀ site ∈ sites.dropLast, site.width ≤ 1022

end UserStats

namespace SiteStats

/-! ## One row -/

/-- The row as it should be. -/
def row (site : SiteStats) : Bytes := [44].intercalate site.fields

/-- No NUL and no newline, as in any word of a request. -/
def HostVisible (site : SiteStats) : Prop := ∀ c ∈ site.hostName, c ≠ 0 ∧ c ≠ 10

theorem row_eq (site : SiteStats) : site.row = site.hostName ++ 44 :: [44].intercalate site.fields.tail := by
  simp only [row, fields, List.intercalate_cons_cons, List.tail_cons, List.append_assoc,
    List.singleton_append]

theorem row_length (site : SiteStats) : site.row.length = site.width := by
  simp only [row, fields, width, List.intercalate_cons_cons, List.intercalate_singleton,
    List.length_append, List.length_cons, List.length_nil]
  omega

/-- The numbers hold neither commas nor newlines. -/
theorem notMem_numbers {site : SiteStats} {c : UInt8} (noSign : c ≠ 45) (noDigit : isDigit c = false) :
    ∀ field ∈ site.fields.tail, c ∉ field := by
  have absent : ∀ n, c ∉ decimal n := by
    intro n member
    rw [isDigit_of_mem_decimal member] at noDigit
    cases noDigit
  have last : c ∉ signedDecimal site.connections := by
    intro member
    rcases mem_signedDecimal member with sign | digit
    · exact noSign sign
    · rw [digit] at noDigit
      cases noDigit
  simp only [fields, List.tail_cons, List.forall_mem_cons]
  exact ⟨absent _, absent _, absent _, last, fun _ none => by cases none⟩

theorem line_of_nulFree {site : SiteStats} (nulFree : (0 : UInt8) ∉ site.hostName) :
    site.line = site.row ++ [10] := by
  rw [line, cstr_of_nul_free nulFree, show bytes "," = [44] from by decide,
    show bytes "\n" = [10] from by decide]
  simp only [row, fields, List.intercalate_cons_cons, List.intercalate_singleton, List.append_assoc]

theorem line_eq {site : SiteStats} (visible : site.HostVisible) : site.line = site.row ++ [10] :=
  line_of_nulFree (fun member => (visible 0 member).1 rfl)

theorem newline_notMem_row {site : SiteStats} (visible : site.HostVisible) : (10 : UInt8) ∉ site.row := by
  have host : (10 : UInt8) ∉ site.hostName := fun member => (visible 10 member).2 rfl
  have numbers : ∀ field ∈ site.fields.tail, (10 : UInt8) ∉ field :=
    notMem_numbers (by decide) (by decide)
  simp only [fields, List.tail_cons, List.forall_mem_cons] at numbers
  simp only [row, fields, List.intercalate_cons_cons, List.intercalate_singleton, List.mem_append,
    List.mem_singleton, not_or]
  simp [host, numbers]

/-- A row is read as its fields exactly if it is whole and the host holds no comma. -/
theorem splitOn_eq_fields_iff {site : SiteStats} {content : Bytes} :
    content.splitOn 44 = site.fields ↔ content = site.row ∧ (44 : UInt8) ∉ site.hostName := by
  have numbers : ∀ field ∈ site.fields.tail, (44 : UInt8) ∉ field :=
    notMem_numbers (by decide) (by decide)
  constructor
  · intro split
    have whole : content = site.row := by
      rw [row, ← split, List.intercalate_splitOn]
    refine ⟨whole, fun member => ?_⟩
    obtain ⟨before, after, named, -⟩ := List.eq_append_cons_of_mem member
    have tail := List.splitOn_intercalate 44 numbers (by simp [fields])
    rw [whole, row_eq, List.splitOn_append_cons_self, tail, named, List.splitOn_append_cons_self] at split
    have count := congrArg List.length split
    have first := List.length_pos_of_ne_nil (List.splitOn_ne_nil 44 before)
    have second := List.length_pos_of_ne_nil (List.splitOn_ne_nil 44 after)
    simp only [List.length_append, fields, List.tail_cons, List.length_cons, List.length_nil] at count
    omega
  · rintro ⟨rfl, absent⟩
    refine List.splitOn_intercalate 44 (fun field member => ?_) (by simp [fields])
    rcases List.mem_cons.mp member with rfl | inNumbers
    · exact absent
    · exact numbers field inNumbers

/-- What is read determines the statistics, while the count is an `int`. -/
theorem eq_of_fields {site other : SiteStats} (count : site.connections < 2147483648)
    (otherCount : other.connections < 2147483648) (same : site.fields = other.fields) : site = other := by
  have number : ∀ {m n : Nat}, decimal m = decimal n → m = n := by
    intro m n equal
    rw [← digitsValue_decimal m, equal, digitsValue_decimal]
  simp only [fields, List.cons.injEq, and_true] at same
  obtain ⟨host, rx, tx, time, connections⟩ := same
  rw [signedDecimal_of_int count, signedDecimal_of_int otherCount] at connections
  cases site
  cases other
  simp only [SiteStats.mk.injEq]
  exact ⟨host, UInt64.toNat_inj.mp (number rx), UInt64.toNat_inj.mp (number tx),
    UInt64.toNat_inj.mp (number time), number connections⟩

/-- A row of at most 1022 bytes is written with its newline. -/
theorem logToFile_whole {site : SiteStats} (visible : site.HostVisible) (fits : site.width ≤ 1022) :
    site.logToFile = site.row ++ 10 :: [] := by
  rw [logToFile, line_eq visible, List.take_of_length_le]
  rw [List.length_append, row_length, List.length_singleton]
  omega

theorem logToFile_cut {site : SiteStats} (visible : site.HostVisible) (long : ¬ site.width ≤ 1022) :
    site.logToFile = site.row.take 1023 := by
  rw [logToFile, line_eq visible, List.take_append_of_le_length]
  rw [row_length]
  omega

theorem logToFile_ne_nil {site : SiteStats} (visible : site.HostVisible) : site.logToFile ≠ [] := by
  rw [logToFile, line_eq visible]
  simp [List.take_eq_nil_iff]

end SiteStats

namespace UserStats

open SiteStats

/-! ## All rows -/

def body (sites : List SiteStats) : Bytes := (sites.map SiteStats.logToFile).flatten

theorem rows_append {row : Bytes} (absent : (10 : UInt8) ∉ row) (rest : Bytes) :
    rows (row ++ 10 :: rest) = row.splitOn 44 :: rows rest := by
  rw [rows, getlines_append absent, List.map_cons, cutAt_append absent, rows]

theorem rows_of_notMem {row : Bytes} (nonempty : row ≠ []) (absent : (10 : UInt8) ∉ row) :
    rows row = [row.splitOn 44] := by
  rw [rows, getlines_of_notMem nonempty absent, List.map_singleton, cutAt_of_notMem absent]

theorem body_cons (site : SiteStats) (rest : List SiteStats) :
    body (site :: rest) = site.logToFile ++ body rest := rfl

theorem body_ne_nil {site : SiteStats} (visible : site.HostVisible) (rest : List SiteStats) :
    body (site :: rest) ≠ [] := List.append_ne_nil_of_left_ne_nil (logToFile_ne_nil visible) _

theorem newline_notMem_cut {site : SiteStats} (visible : site.HostVisible) :
    (10 : UInt8) ∉ site.row.take 1023 :=
  fun member => newline_notMem_row visible (List.mem_of_mem_take member)

theorem cut_ne_nil (site : SiteStats) : site.row.take 1023 ≠ [] := by
  have length := site.row_length
  have commas : 4 ≤ site.width := by
    unfold width
    omega
  apply List.ne_nil_of_length_pos
  rw [List.length_take]
  omega

/-- No site has more rows than one, and a long one has none for itself unless it is the last. -/
theorem rows_body_length_le {sites : List SiteStats} (visible : ∀ site ∈ sites, site.HostVisible) :
    (rows (body sites)).length ≤ sites.length := by
  induction sites with
  | nil => exact Nat.le_refl _
  | cons site rest inductionHypothesis =>
    obtain ⟨siteVisible, restVisible⟩ := List.forall_mem_cons.mp visible
    have tail := inductionHypothesis restVisible
    rw [body_cons, List.length_cons]
    by_cases fits : site.width ≤ 1022
    · rw [logToFile_whole siteVisible fits, List.append_assoc, List.cons_append, List.nil_append,
        rows_append (newline_notMem_row siteVisible), List.length_cons]
      omega
    · rw [logToFile_cut siteVisible fits]
      by_cases last : body rest = []
      · rw [last, List.append_nil, rows_of_notMem (cut_ne_nil site) (newline_notMem_cut siteVisible),
          List.length_singleton]
        omega
      · simp only [rows, List.length_map] at tail ⊢
        rw [getlines_append_length (newline_notMem_cut siteVisible) last]
        omega

theorem rowsFit_singleton {site : SiteStats} : RowsFit [site] ↔ site.width ≤ 1023 := by
  simp [RowsFit]

theorem rowsFit_cons_cons {site next : SiteStats} {rest : List SiteStats} :
    RowsFit (site :: next :: rest) ↔ site.width ≤ 1022 ∧ RowsFit (next :: rest) := by
  unfold RowsFit
  rw [List.dropLast_cons_cons]
  constructor
  · rintro ⟨widths, short⟩
    obtain ⟨first, others⟩ := List.forall_mem_cons.mp short
    exact ⟨first, (List.forall_mem_cons.mp widths).2, others⟩
  · rintro ⟨first, widths, others⟩
    exact ⟨List.forall_mem_cons.mpr ⟨by omega, widths⟩, List.forall_mem_cons.mpr ⟨first, others⟩⟩

/-- The rows are read back exactly if no host holds a comma and no row is cut. -/
theorem rows_body_iff {sites : List SiteStats} (visible : ∀ site ∈ sites, site.HostVisible) :
    rows (body sites) = sites.map SiteStats.fields ↔
      (∀ site ∈ sites, (44 : UInt8) ∉ site.hostName) ∧ RowsFit sites := by
  induction sites with
  | nil => simp [RowsFit, rows, body, getlines]
  | cons site rest inductionHypothesis =>
    obtain ⟨siteVisible, restVisible⟩ := List.forall_mem_cons.mp visible
    rw [body_cons, List.map_cons, List.forall_mem_cons]
    by_cases fits : site.width ≤ 1022
    · rw [logToFile_whole siteVisible fits, List.append_assoc, List.cons_append, List.nil_append,
        rows_append (newline_notMem_row siteVisible), List.cons.injEq, splitOn_eq_fields_iff,
        inductionHypothesis restVisible]
      cases rest with
      | nil =>
        have short : RowsFit [site] := rowsFit_singleton.mpr (by omega)
        have none : RowsFit [] := by simp [RowsFit]
        simp only [List.not_mem_nil, false_imp_iff, implies_true, and_true, true_and, short, none]
      | cons next others =>
        rw [rowsFit_cons_cons]
        constructor
        · rintro ⟨⟨-, absent⟩, others, short⟩
          exact ⟨⟨absent, others⟩, fits, short⟩
        · rintro ⟨⟨absent, others⟩, -, short⟩
          exact ⟨⟨rfl, absent⟩, others, short⟩
    · rw [logToFile_cut siteVisible fits]
      cases rest with
      | nil =>
        have whole : site.row.take 1023 = site.row ↔ site.width ≤ 1023 := by
          rw [List.take_eq_self_iff, row_length]
        rw [show body [] = [] from rfl, List.append_nil,
          rows_of_notMem (cut_ne_nil site) (newline_notMem_cut siteVisible), List.map_nil,
          List.singleton_inj, splitOn_eq_fields_iff, whole]
        simp only [rowsFit_singleton, List.not_mem_nil, false_imp_iff, implies_true, and_true]
        exact and_comm
      | cons next others =>
        have merged : (rows (site.row.take 1023 ++ body (next :: others))).length ≤ (next :: others).length := by
          have length := rows_body_length_le restVisible
          have more := body_ne_nil (restVisible next List.mem_cons_self) others
          simp only [rows, List.length_map] at length ⊢
          rw [getlines_append_length (newline_notMem_cut siteVisible) more]
          exact length
        rw [rowsFit_cons_cons]
        constructor
        · intro same
          rw [same] at merged
          simp only [List.length_cons, List.length_map] at merged
          omega
        · exact fun short => absurd short.2.1 fits

/-! ## The file -/

theorem rows_file (sites : List SiteStats) :
    rows (headerString ++ body sites) = headerFields :: rows (body sites) := by
  have header : headerString = bytes "host,rxBytes,txBytes,totalTime,connections" ++ [10] := by decide
  have names : (bytes "host,rxBytes,txBytes,totalTime,connections").splitOn 44 = headerFields := by decide
  rw [header, List.append_assoc, List.singleton_append, rows_append (by decide), names]

theorem readsBack_of_visible {user : UserStats} (logNumber : Int)
    (visible : ∀ site ∈ user.stats, site.HostVisible) :
    ReadsBack user logNumber ↔
      (∀ site ∈ user.stats, (44 : UInt8) ∉ site.hostName) ∧ RowsFit user.stats := by
  rw [← rows_body_iff visible]
  unfold ReadsBack logToFile
  by_cases empty : user.stats.length = 0
  · rw [if_pos empty, List.length_eq_zero_iff.mp empty]
    simp [rows, body, getlines]
  · have written := rows_file user.stats
    rw [if_neg empty]
    constructor
    · intro reads
      have file := reads _ _ rfl
      exact (List.cons.inj (written.symm.trans file)).2
    · rintro same name content ⟨⟩
      exact written.trans (congrArg (List.cons headerFields) same)

/-- A stored host is part of a word of the request. -/
theorem Storable.visible {site : SiteStats} (storable : Storable site.hostName) : site.HostVisible := by
  obtain ⟨-, data, beyond, detection, -, detected, stored, -, -⟩ := storable
  have nonempty : data ≠ [] := by
    rintro rfl
    cases detected
  rw [asyncDetector_data nonempty] at detected
  have endpoint := detect_endpoint (requestBuffer data beyond)
  rw [detected, Option.map_some, stored] at endpoint
  intro c member
  obtain ⟨inText, visible⟩ := mem_host endpoint.symm member
  constructor
  · rintro rfl
    exact cstr_nul_free _ inText
  · rintro rfl
    exact absurd visible (by decide)

theorem storable_of_line {line host : Bytes} {port : Int} (nulFree : (0 : UInt8) ∉ line)
    (short : line.length < requestBufferSize) (named : namedEndpoint line = some (host, port))
    (nonempty : host ≠ [])
    (known : method line ∈ [bytes "CONNECT", bytes "GET", bytes "POST"])
    (fits : (target line).length < 1024) : Storable host := by
  have present : line ≠ [] := by
    rintro rfl
    exact absurd known (by decide)
  have text := requestBuffer_eq nulFree short []
  obtain ⟨detection, detected, endpoint⟩ := Option.map_eq_some_iff.mp ((detect_endpoint line).trans named)
  obtain ⟨stored, -⟩ := Prod.mk.inj endpoint
  refine ⟨nonempty, line, [], detection, short.le, ?_, stored, by rw [text]; exact known, by rw [text]; exact fits⟩
  rw [asyncDetector_data present, text, detected]

/-- The audit file is read back exactly if no host holds a comma, every row fits with its newline, and
the last one fits. -/
theorem readsBack_iff {user : UserStats} (logNumber : Int)
    (storable : ∀ site ∈ user.stats, Storable site.hostName) :
    ReadsBack user logNumber ↔
      (∀ site ∈ user.stats, (44 : UInt8) ∉ site.hostName) ∧ RowsFit user.stats :=
  readsBack_of_visible logNumber (fun site member => (storable site member).visible)

theorem readsBack_one_host :
    ReadsBack ⟨bytes "bob", [⟨bytes "example.com", 1200, 340, 5000, 2⟩]⟩ 1 := by
  have named : namedEndpoint (bytes "CONNECT example.com:443 HTTP/1.1\r\n") =
      some (bytes "example.com", 443) := by decide
  have storable := storable_of_line (by decide) (by decide) named (by decide) (by decide) (by decide)
  refine (readsBack_iff 1 (fun site member => ?_)).mpr ⟨by decide, by decide, by decide⟩
  rw [List.mem_singleton.mp member]
  exact storable

/-- A host with a comma makes a field more. -/
theorem comma_in_host :
    ¬ ∀ (user : UserStats) (logNumber : Int), (∀ site ∈ user.stats, Storable site.hostName) →
      ReadsBack user logNumber := by
  intro claim
  have named : namedEndpoint (bytes "CONNECT a,b:443 HTTP/1.1\r\n") = some (bytes "a,b", 443) := by decide
  have storable := storable_of_line (by decide) (by decide) named (by decide) (by decide) (by decide)
  have each : ∀ site ∈ [SiteStats.make (bytes "a,b")], Storable site.hostName := by
    intro site member
    rw [List.mem_singleton.mp member]
    exact storable
  have reads := claim ⟨bytes "bob", [.make (bytes "a,b")]⟩ 1 each
  rw [readsBack_of_visible 1 (fun site member => (each site member).visible)] at reads
  exact absurd reads.1 (by decide)

end UserStats

end NermalProxy
