import PqcSecureComm.Evaluation
import PqcSecureComm.Lib.Csv

set_option autoImplicit false

/-! # The file of a benchmark

`BenchmarkCsvWriter` puts the rows of the runner into a CSV file and flushes behind every row;
`summarize` reads the file back through `csv.DictReader`. A file is its text: every character the writer
puts there is ASCII. Whatever the moment, the file on disk is empty or a table of all rows written so far
(`Holds`), and `summarize` computes from its text what it would compute from the rows
(`summarizeFile_fileText`). -/

namespace PqcSecureComm

/-! ## The writer -/

/-- `csv.excel`. -/
def excel : Csv.Dialect CodePoint where
  delimiter := ⟨0x2c, by decide⟩
  quote := ⟨0x22, by decide⟩
  cr := ⟨0x0d, by decide⟩
  lf := ⟨0x0a, by decide⟩
  delimiter_ne_quote := by decide
  delimiter_ne_cr := by decide
  delimiter_ne_lf := by decide
  quote_ne_cr := by decide
  quote_ne_lf := by decide
  cr_ne_lf := by decide

/-- `FIELDNAMES`. -/
def fieldnames : List PyStr :=
  [PyStr.ofString "run_id", PyStr.ofString "mode", PyStr.ofString "sequence", PyStr.ofString "sign_ns",
    PyStr.ofString "verify_ns", PyStr.ofString "age_ns", PyStr.ofString "e2e_ns",
    PyStr.ofString "result_code"]

/-- The fields of a line, in the order of `FIELDNAMES`. -/
def CsvRecord.fields (row : CsvRecord) : List PyStr :=
  [row.runId, row.mode, row.sequence, row.signNs, row.verifyNs, row.ageNs, row.e2eNs, row.resultCode]

/-- `BenchmarkCsvWriter`: what is on disk, and what its handle has not flushed yet. -/
structure BenchmarkCsvWriter where
  disk : PyStr
  buffer : PyStr
  deriving DecidableEq

/-- `BenchmarkCsvWriter.__init__`: the file is truncated, and the header waits in the buffer. -/
def BenchmarkCsvWriter.init : BenchmarkCsvWriter := ⟨[], Csv.writeRecord excel fieldnames⟩

/-- `BenchmarkCsvWriter.write_row`, with its `flush`. -/
def BenchmarkCsvWriter.writeRow (self : BenchmarkCsvWriter) (row : BenchmarkRow) : BenchmarkCsvWriter :=
  ⟨self.disk ++ (self.buffer ++ Csv.writeRecord excel row.toCsv.fields), []⟩

/-- `BenchmarkCsvWriter.close`. -/
def BenchmarkCsvWriter.close (self : BenchmarkCsvWriter) : BenchmarkCsvWriter :=
  ⟨self.disk ++ self.buffer, []⟩

/-- The table of a header and some rows. -/
def fileText (rows : List BenchmarkRow) : PyStr :=
  Csv.write excel (fieldnames :: rows.map fun row => row.toCsv.fields)

/-- The writer was given these rows: with what is in the buffer they are the file, and only the header
    can be in the buffer. -/
structure BenchmarkCsvWriter.Holds (writer : BenchmarkCsvWriter) (rows : List BenchmarkRow) : Prop where
  text : writer.disk ++ writer.buffer = fileText rows
  flushed : writer.buffer = [] ∨ rows = [] ∧ writer.disk = []

theorem BenchmarkCsvWriter.holds_init : BenchmarkCsvWriter.init.Holds [] where
  text := by simp [BenchmarkCsvWriter.init, fileText, Csv.write]
  flushed := Or.inr ⟨rfl, rfl⟩

theorem BenchmarkCsvWriter.Holds.writeRow {self : BenchmarkCsvWriter} {rows : List BenchmarkRow}
    (h : self.Holds rows) (row : BenchmarkRow) : (self.writeRow row).Holds (rows ++ [row]) := by
  refine ⟨?_, Or.inl rfl⟩
  have hsplit : fileText (rows ++ [row]) = fileText rows ++ Csv.writeRecord excel row.toCsv.fields := by
    simp [fileText, Csv.write]
  rw [hsplit, ← h.text]
  simp [BenchmarkCsvWriter.writeRow]

theorem BenchmarkCsvWriter.Holds.foldl {self : BenchmarkCsvWriter} {rows : List BenchmarkRow}
    (h : self.Holds rows) (more : List BenchmarkRow) :
    (more.foldl BenchmarkCsvWriter.writeRow self).Holds (rows ++ more) := by
  induction more generalizing self rows with
  | nil => rwa [List.append_nil]
  | cons row more ih =>
      have hrest := ih (h.writeRow row)
      rwa [List.append_assoc] at hrest

/-- Closing loses nothing. -/
theorem BenchmarkCsvWriter.Holds.close {self : BenchmarkCsvWriter} {rows : List BenchmarkRow}
    (h : self.Holds rows) : self.close.Holds rows ∧ self.close.disk = fileText rows := by
  refine ⟨⟨?_, Or.inl rfl⟩, h.text⟩
  rw [← h.text]
  exact List.append_nil _

/-- What is on disk if the process is killed. -/
theorem BenchmarkCsvWriter.Holds.disk_eq {self : BenchmarkCsvWriter} {rows : List BenchmarkRow}
    (h : self.Holds rows) : self.disk = fileText rows ∨ rows = [] ∧ self.disk = [] := by
  refine h.flushed.imp (fun hbuffer => ?_) id
  rw [← h.text, hbuffer, List.append_nil]

/-! ## The reader -/

/-- `csv.field_size_limit()`. -/
def fieldSizeLimit : ℕ := 131072

/-- A row of `csv.DictReader`, a key behind the other; `None` for a column the line does not reach. -/
abbrev DictRow := List (PyStr × Option PyStr)

/-- `dict(zip(self.fieldnames, row))`, and `restval` for the columns behind the row. What is behind the
    columns goes to the key `None` and is never looked up. -/
def dictRow (fieldnames row : List PyStr) : DictRow :=
  fieldnames.zip (row.map some ++ List.replicate (fieldnames.length - row.length) none)

/-- `csv.DictReader`: the first record is the header, blank lines behind it are skipped. -/
def dictReader : List (List PyStr) → List DictRow
  | [] => []
  | fieldnames :: rows => (rows.filter fun row => row ≠ []).map (dictRow fieldnames)

/-- What `summarize` raises. -/
inductive SummaryError
  | csv (error : Csv.Error)
  | keyError (key : PyStr)
  | py (exc : PyError)
  deriving DecidableEq, Repr

/-- `int(row[key])`; of a key given twice the last one counts. -/
def DictRow.int (row : DictRow) (key : PyStr) : Except SummaryError ℤ :=
  match row.reverse.lookup key with
  | none => .error (.keyError key)
  | some none => .error (.py (.mk' .typeError
      "int() argument must be a string, a bytes-like object or a real number, not 'NoneType'"))
  | some (some text) =>
    match text.toInt with
    | .error exc => .error (.py exc)
    | .ok n => .ok n

/-- `list(csv.DictReader(path.open('r', encoding='utf-8')))`. -/
def readRows (text : PyStr) : Except SummaryError (List DictRow) :=
  match Csv.read excel fieldSizeLimit (Csv.splitLines excel (Csv.universalNewlines excel text)) with
  | .error error => .error (.csv error)
  | .ok records => .ok (dictReader records)

/-- `summarize` of the text of a file, with the samples in place of their statistics. -/
def summarizeFile (text : PyStr) : Except SummaryError Summary := do
  let rows ← readRows text
  let okRows ← rows.filterMapM fun row => do
    let resultCode ← row.int (PyStr.ofString "result_code")
    pure (if resultCode == 0 then some row else none)
  let verifyNs ← okRows.mapM fun row => row.int (PyStr.ofString "verify_ns")
  let e2eNs ← okRows.mapM fun row => row.int (PyStr.ofString "e2e_ns")
  pure
    { rows := rows.length
      ok := okRows.length
      failed := rows.length - okRows.length
      verifyNs := verifyNs
      e2eNs := e2eNs }

/-! ## Rows that fit into lines -/

/-- `uuid4().hex[:12]`: twelve hexadecimal digits. -/
def IsRunId (runId : PyStr) : Prop :=
  runId.length = 12 ∧ ∀ c ∈ runId, c ∈ PyStr.ofString "0123456789abcdef"

theorem isRunId_ofString {s : String} (hlength : s.toList.length = 12)
    (hdigits : ∀ c ∈ s.toList, c ∈ "0123456789abcdef".toList) : IsRunId (PyStr.ofString s) := by
  refine ⟨(List.length_map _).trans hlength, fun c hc => ?_⟩
  obtain ⟨c', hc', rfl⟩ := List.mem_map.1 hc
  exact List.mem_map_of_mem (hdigits c' hc')

/-- A number that Python converts to decimal text and back. -/
def FitsField (n : ℤ) : Prop := n.natAbs < 10 ^ maxStrDigits

/-- The row of a run. -/
structure BenchmarkRow.Fits (row : BenchmarkRow) : Prop where
  runId : IsRunId row.runId
  mode : ∃ mode : BenchMode, row.mode = mode.text
  sequence : FitsField row.sequence
  signNs : FitsField row.signNs
  verifyNs : FitsField row.verifyNs
  ageNs : FitsField row.ageNs
  e2eNs : FitsField row.e2eNs
  resultCode : FitsField row.resultCode

/-- A field that does not leave its line. -/
def PlainField (field : PyStr) : Prop := excel.cr ∉ field ∧ field.length ≤ fieldSizeLimit

theorem plainField_of_toList {s : String} (hcr : '\r' ∉ s.toList) (hlength : s.length ≤ fieldSizeLimit) :
    PlainField (PyStr.ofString s) := by
  refine ⟨fun h => ?_, ?_⟩
  · obtain ⟨c, hc, heq⟩ := List.mem_map.1 h
    have hval : c.toNat % 0x110000 = 13 := congrArg Fin.val heq
    have hlt : c.toNat < 0x110000 := by
      rcases c.valid with hlow | ⟨-, hhigh⟩
      · exact lt_trans hlow (by decide)
      · exact hhigh
    rw [Nat.mod_eq_of_lt hlt] at hval
    obtain rfl : c = '\r' := by
      rw [← Char.ofNat_toNat c, hval]
    exact hcr hc
  · unfold PyStr.ofString
    rwa [List.length_map, String.length_toList]

theorem plainField_ofInt {n : ℤ} (h : FitsField n) : PlainField (PyStr.ofInt n) := by
  have hdigits : ∀ m : ℕ, m < 10 ^ maxStrDigits →
      '\r' ∉ m.repr.toList ∧ m.repr.length ≤ maxStrDigits := by
    intro m hm
    refine ⟨fun hmem => ?_, (Nat.length_repr_le_iff (by decide)).2 hm⟩
    rw [Nat.toList_repr] at hmem
    exact absurd (Nat.isDigit_of_mem_toDigits (by decide) (by decide) hmem) (by decide)
  unfold PyStr.ofInt
  rw [Int.toString_eq_repr, Int.repr_eq_if]
  unfold FitsField at h
  have hlimit : maxStrDigits < fieldSizeLimit := by decide
  split
  · obtain ⟨hcr, hlength⟩ := hdigits n.toNat (by omega)
    exact plainField_of_toList hcr (by omega)
  · obtain ⟨hcr, hlength⟩ := hdigits (-n).toNat (by omega)
    refine plainField_of_toList ?_ ?_
    · rw [String.toList_append, List.mem_append, not_or]
      exact ⟨by decide, hcr⟩
    · have hsign : "-".length = 1 := by decide
      rw [String.length_append, hsign]
      omega

theorem IsRunId.plainField {runId : PyStr} (h : IsRunId runId) : PlainField runId := by
  refine ⟨fun hmem => ?_, ?_⟩
  · have hcr := h.2 _ hmem
    exact absurd hcr (by decide)
  · rw [h.1]
    decide

theorem BenchMode.plainField (mode : BenchMode) : PlainField mode.text := by
  cases mode with
  | plain => exact ⟨by decide, by decide⟩
  | appSig => exact ⟨by decide, by decide⟩

theorem BenchmarkRow.Fits.plainField {row : BenchmarkRow} (h : row.Fits) :
    ∀ field ∈ row.toCsv.fields, PlainField field := by
  obtain ⟨mode, hmode⟩ := h.mode
  have hmodeField : PlainField row.mode := hmode ▸ mode.plainField
  simp only [CsvRecord.fields, BenchmarkRow.toCsv, List.forall_mem_cons]
  exact ⟨h.runId.plainField, hmodeField, plainField_ofInt h.sequence, plainField_ofInt h.signNs,
    plainField_ofInt h.verifyNs, plainField_ofInt h.ageNs, plainField_ofInt h.e2eNs,
    plainField_ofInt h.resultCode, fun _ hnil => absurd hnil List.not_mem_nil⟩

theorem plainField_fieldnames : ∀ field ∈ fieldnames, PlainField field := by
  simp only [fieldnames, List.forall_mem_cons]
  exact ⟨⟨by decide, by decide⟩, ⟨by decide, by decide⟩, ⟨by decide, by decide⟩, ⟨by decide, by decide⟩,
    ⟨by decide, by decide⟩, ⟨by decide, by decide⟩, ⟨by decide, by decide⟩, ⟨by decide, by decide⟩,
    fun _ hnil => absurd hnil List.not_mem_nil⟩

/-! ## The file is read back as it was written -/

/-- A row as `csv.DictReader` hands it out. -/
def BenchmarkRow.dict (row : BenchmarkRow) : DictRow := fieldnames.zip (row.toCsv.fields.map some)

theorem readRows_fileText {rows : List BenchmarkRow} (h : ∀ row ∈ rows, row.Fits) :
    readRows (fileText rows) = .ok (rows.map BenchmarkRow.dict) := by
  have hread : Csv.read excel fieldSizeLimit
      (Csv.splitLines excel (Csv.universalNewlines excel (fileText rows))) =
      .ok (fieldnames :: rows.map fun row => row.toCsv.fields) := by
    refine Csv.read_write ?_ ?_
    · intro record hrecord
      rcases List.mem_cons.1 hrecord with rfl | hrow
      · exact List.cons_ne_nil _ _
      · obtain ⟨row, -, rfl⟩ := List.mem_map.1 hrow
        exact List.cons_ne_nil _ _
    · intro record hrecord
      rcases List.mem_cons.1 hrecord with rfl | hrow
      · exact plainField_fieldnames
      · obtain ⟨row, hmem, rfl⟩ := List.mem_map.1 hrow
        exact (h row hmem).plainField
  unfold readRows
  rw [hread]
  have hfilter : ((rows.map fun row => row.toCsv.fields).filter fun row => row ≠ []) =
      rows.map fun row => row.toCsv.fields := by
    refine List.filter_eq_self.2 fun record hrecord => ?_
    obtain ⟨row, -, rfl⟩ := List.mem_map.1 hrecord
    exact decide_eq_true (List.cons_ne_nil _ _)
  simp only [dictReader]
  rw [hfilter, List.map_map]
  rfl

/-- The column `key` of a row of the file is a number of the row. -/
def Column (key : PyStr) (value : BenchmarkRow → ℤ) : Prop :=
  ∀ row : BenchmarkRow, row.dict.reverse.lookup key = some (some (PyStr.ofInt (value row)))

theorem Column.int {key : PyStr} {value : BenchmarkRow → ℤ} (h : Column key value) (row : BenchmarkRow) :
    row.dict.int key = .ok (value row) := by
  unfold DictRow.int
  rw [h row]
  simp only [PyStr.toInt_ofInt]

theorem column_verifyNs : Column (PyStr.ofString "verify_ns") BenchmarkRow.verifyNs := fun _ => rfl

theorem column_e2eNs : Column (PyStr.ofString "e2e_ns") BenchmarkRow.e2eNs := fun _ => rfl

theorem column_resultCode : Column (PyStr.ofString "result_code") BenchmarkRow.resultCode := fun _ => rfl

theorem Column.mapM {key : PyStr} {value : BenchmarkRow → ℤ} (h : Column key value)
    (rows : List BenchmarkRow) :
    (rows.map BenchmarkRow.dict).mapM (fun row => row.int key) = .ok (rows.map value) := by
  induction rows with
  | nil => rfl
  | cons row rows ih =>
      rw [List.map_cons, List.mapM_cons, ih, h.int]
      rfl

theorem Column.filterMapM {key : PyStr} {value : BenchmarkRow → ℤ} (h : Column key value)
    (keep : ℤ → Bool) (rows : List BenchmarkRow) :
    ((rows.map BenchmarkRow.dict).filterMapM fun row => do
        let n ← row.int key
        pure (if keep n then some row else none)) =
      .ok ((rows.filter fun row => keep (value row)).map BenchmarkRow.dict) := by
  induction rows with
  | nil => rfl
  | cons row rows ih =>
      rw [List.map_cons, List.filterMapM_cons, ih, h.int, List.filter_cons]
      cases hkeep : keep (value row) with
      | true => simp [hkeep]
      | false => simp [hkeep]

/-- What `summarize` says about the rows of a run. -/
def summaryOf (rows : List BenchmarkRow) : Summary :=
  let ok := rows.filter fun row => row.resultCode == 0
  { rows := rows.length
    ok := ok.length
    failed := rows.length - ok.length
    verifyNs := ok.map BenchmarkRow.verifyNs
    e2eNs := ok.map BenchmarkRow.e2eNs }

/-- **The evaluator sees what the runner wrote**: from the text of the file it computes what it would
    compute from the rows. -/
theorem summarizeFile_fileText {rows : List BenchmarkRow} (h : ∀ row ∈ rows, row.Fits) :
    summarizeFile (fileText rows) = .ok (summaryOf rows) ∧
      summarize (rows.map BenchmarkRow.toCsv) = .ok (summaryOf rows) := by
  refine ⟨?_, summarize_toCsv rows⟩
  unfold summarizeFile
  rw [readRows_fileText h, Fallible.ok_bind,
    column_resultCode.filterMapM (fun resultCode => resultCode == 0), Fallible.ok_bind,
    column_verifyNs.mapM, Fallible.ok_bind, column_e2eNs.mapM, Fallible.ok_bind,
    List.length_map, List.length_map]
  rfl

/-- A file nothing was written to yet. -/
theorem summarizeFile_nil : summarizeFile [] = .ok (summaryOf []) := rfl

end PqcSecureComm
