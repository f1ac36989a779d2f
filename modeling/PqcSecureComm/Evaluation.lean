import PqcSecureComm.Pipeline

set_option autoImplicit false

/-! # The two evaluators of a benchmark

`summarize` takes its samples from the rows with `result_code` `0`, `positive_latency` from the rows with
a positive `e2e_ns`: `0` marks a failure there, and is also the age of a message whose stamp is not behind
the clock of the verifier. Along the runs of the pipeline the two agree exactly as long as no such message
is accepted (`sameSamples_iff`). The statistics over the samples are left out. -/

namespace PqcSecureComm

/-! ## The source -/

/-- A line of the CSV file, every field as text. -/
structure CsvRecord where
  runId : PyStr
  mode : PyStr
  sequence : PyStr
  signNs : PyStr
  verifyNs : PyStr
  ageNs : PyStr
  e2eNs : PyStr
  resultCode : PyStr
  deriving DecidableEq, Repr

/-- `BenchmarkCsvWriter.write_row`. -/
def BenchmarkRow.toCsv (row : BenchmarkRow) : CsvRecord where
  runId := row.runId
  mode := row.mode
  sequence := PyStr.ofInt row.sequence
  signNs := PyStr.ofInt row.signNs
  verifyNs := PyStr.ofInt row.verifyNs
  ageNs := PyStr.ofInt row.ageNs
  e2eNs := PyStr.ofInt row.e2eNs
  resultCode := PyStr.ofInt row.resultCode

/-- `int(text)` of a plain decimal text. -/
def PyStr.toInt (text : PyStr) : Except PyError ℤ :=
  match (String.ofList (text.map fun c => Char.ofNat c.val)).toInt? with
  | some n => .ok n
  | none => .error (.mk' .valueError "invalid literal for int() with base 10")

/-- `[row for row in rows if keep(int(row[field]))]`. -/
def selectRows (field : CsvRecord → PyStr) (keep : ℤ → Bool) (rows : List CsvRecord) :
    Except PyError (List CsvRecord) :=
  rows.filterMapM fun row => do
    let value ← (field row).toInt
    pure (if keep value then some row else none)

/-- `ok_rows` of `summarize`. -/
def okRows : List CsvRecord → Except PyError (List CsvRecord) :=
  selectRows CsvRecord.resultCode fun resultCode => resultCode == 0

/-- What `summarize` returns, with the samples in place of their statistics. -/
structure Summary where
  rows : ℕ
  ok : ℕ
  failed : ℕ
  verifyNs : List ℤ
  e2eNs : List ℤ
  deriving DecidableEq, Repr

/-- `summarize`. -/
def summarize (rows : List CsvRecord) : Except PyError Summary := do
  let okRows ← okRows rows
  let verifyNs ← okRows.mapM fun row => row.verifyNs.toInt
  let e2eNs ← okRows.mapM fun row => row.e2eNs.toInt
  pure
    { rows := rows.length
      ok := okRows.length
      failed := rows.length - okRows.length
      verifyNs := verifyNs
      e2eNs := e2eNs }

/-- The rows `positive_latency` takes its samples from. -/
def positiveRows : List CsvRecord → Except PyError (List CsvRecord) :=
  selectRows CsvRecord.e2eNs fun e2eNs => decide (0 < e2eNs)

/-- `positive_latency`, in nanoseconds. -/
def positiveLatency (rows : List CsvRecord) : Except PyError (List ℤ) := do
  let kept ← positiveRows rows
  let values ← kept.mapM fun row => row.e2eNs.toInt
  if values.isEmpty then
    .error (.mk' .runtimeError "No positive e2e_ns samples are available for plotting")
  else pure values

/-! ## The file is read back as it was written -/

theorem PyStr.toInt_ofInt (n : ℤ) : (PyStr.ofInt n).toInt = .ok n := by
  have hchar : ∀ c : Char, Char.ofNat (Fin.ofNat 0x110000 c.toNat).val = c := by
    intro c
    have hlt : c.toNat < 0x110000 := by
      rcases c.valid with hlow | ⟨-, hhigh⟩
      · exact lt_trans hlow (by decide)
      · exact hhigh
    rw [Fin.val_ofNat, Nat.mod_eq_of_lt hlt, Char.ofNat_toNat]
  have htext : String.ofList ((PyStr.ofInt n).map fun c => Char.ofNat c.val) = toString n := by
    unfold PyStr.ofInt PyStr.ofString
    rw [List.map_map, Function.comp_def]
    simp only [hchar, List.map_id', String.ofList_toList]
  have hdecimal : (toString n).toInt? = some n := Int.toInt?_repr n
  unfold PyStr.toInt
  rw [htext, hdecimal]

/-- A selection on a number of the rows is the filter on that number. -/
theorem selectRows_toCsv {field : CsvRecord → PyStr} {value : BenchmarkRow → ℤ} (keep : ℤ → Bool)
    (hfield : ∀ row, field row.toCsv = PyStr.ofInt (value row)) (rows : List BenchmarkRow) :
    selectRows field keep (rows.map BenchmarkRow.toCsv) =
      .ok ((rows.filter fun row => keep (value row)).map BenchmarkRow.toCsv) := by
  unfold selectRows
  induction rows with
  | nil => rfl
  | cons row rows ih =>
      rw [List.map_cons, List.filterMapM_cons, ih, hfield, PyStr.toInt_ofInt, List.filter_cons]
      cases hkeep : keep (value row) with
      | true => simp [hkeep]
      | false => simp [hkeep]

theorem okRows_toCsv (rows : List BenchmarkRow) :
    okRows (rows.map BenchmarkRow.toCsv) =
      .ok ((rows.filter fun row => row.resultCode == 0).map BenchmarkRow.toCsv) :=
  selectRows_toCsv _ (fun _ => rfl) rows

theorem positiveRows_toCsv (rows : List BenchmarkRow) :
    positiveRows (rows.map BenchmarkRow.toCsv) =
      .ok ((rows.filter fun row => decide (0 < row.e2eNs)).map BenchmarkRow.toCsv) :=
  selectRows_toCsv _ (fun _ => rfl) rows

theorem mapM_toCsv {field : CsvRecord → PyStr} {value : BenchmarkRow → ℤ}
    (hfield : ∀ row, field row.toCsv = PyStr.ofInt (value row)) (rows : List BenchmarkRow) :
    (rows.map BenchmarkRow.toCsv).mapM (fun row => (field row).toInt) = .ok (rows.map value) := by
  induction rows with
  | nil => rfl
  | cons row rows ih =>
      rw [List.map_cons, List.mapM_cons, ih, hfield, PyStr.toInt_ofInt]
      rfl

/-- A file the runner wrote is always summarised. -/
theorem summarize_toCsv (rows : List BenchmarkRow) :
    let ok := rows.filter fun row => row.resultCode == 0
    summarize (rows.map BenchmarkRow.toCsv) =
      .ok ⟨rows.length, ok.length, rows.length - ok.length, ok.map BenchmarkRow.verifyNs,
        ok.map BenchmarkRow.e2eNs⟩ := by
  intro ok
  unfold summarize
  rw [okRows_toCsv, Fallible.ok_bind, mapM_toCsv fun _ => rfl, Fallible.ok_bind, mapM_toCsv fun _ => rfl,
    Fallible.ok_bind, List.length_map, List.length_map]
  rfl

/-- It can be plotted if it has a positive latency. -/
theorem positiveLatency_toCsv {rows : List BenchmarkRow} (h : ∃ row ∈ rows, 0 < row.e2eNs) :
    positiveLatency (rows.map BenchmarkRow.toCsv) =
      .ok ((rows.filter fun row => decide (0 < row.e2eNs)).map BenchmarkRow.e2eNs) := by
  obtain ⟨row, hrow, hpositive⟩ := h
  have hne : (rows.filter fun row => decide (0 < row.e2eNs)) ≠ [] :=
    List.ne_nil_of_mem (List.mem_filter.2 ⟨hrow, decide_eq_true hpositive⟩)
  unfold positiveLatency
  rw [positiveRows_toCsv, Fallible.ok_bind, mapM_toCsv fun _ => rfl, Fallible.ok_bind,
    if_neg (by simpa using hne)]
  rfl

/-- Otherwise there is nothing to plot. -/
theorem positiveLatency_raises {rows : List BenchmarkRow} (h : ¬ ∃ row ∈ rows, 0 < row.e2eNs) :
    Fallible.Raises (positiveLatency (rows.map BenchmarkRow.toCsv)) := by
  have hnil : (rows.filter fun row => decide (0 < row.e2eNs)) = [] := by
    rw [List.filter_eq_nil_iff]
    intro row hrow hpositive
    exact h ⟨row, hrow, of_decide_eq_true hpositive⟩
  unfold positiveLatency
  rw [positiveRows_toCsv, hnil]
  exact ⟨_, rfl⟩

/-! ## Agreement -/

/-- The rows of a run. -/
def Pipeline.rows {P : Platform} (self : Pipeline P) (actions : List PipelineAction) :
    List BenchmarkRow :=
  (self.reports actions).map RowReport.row

/-- Its CSV file. -/
def Pipeline.csv {P : Platform} (self : Pipeline P) (actions : List PipelineAction) : List CsvRecord :=
  (self.rows actions).map BenchmarkRow.toCsv

/-- In every row of the run `e2e_ns` is positive iff the result is `RESULT_OK`, and both evaluators take
    their samples from the same lines of the file. -/
def Pipeline.SameSamples {P : Platform} (self : Pipeline P) (actions : List PipelineAction) : Prop :=
  (∀ row ∈ self.rows actions, 0 < row.e2eNs ↔ row.resultCode = 0) ∧
    positiveRows (self.csv actions) = okRows (self.csv actions)

/-- The message was accepted and published although its stamp is not behind the clock. -/
def Verification.AcceptedAhead {P : Platform} (v : Verification P) : Prop :=
  v.node.Accepts P v.delivery ∧ v.delivery.env.faults .publish = none ∧
    v.delivery.env.nowNs ≤ v.delivery.sourceStampNs

/-- No event of such a message is handed to the runner while its number is outstanding. -/
def Pipeline.StampsBehind {P : Platform} (self : Pipeline P) (actions : List PipelineAction) : Prop :=
  ∀ st ∈ Machine.steps Pipeline.step self actions, ∀ v, st.pre.answered? st.input = some v →
    ¬ v.AcceptedAhead

/-- Where the two marks of success agree, they select the same rows. -/
theorem filter_marks_eq {rows : List BenchmarkRow}
    (h : ∀ row ∈ rows, 0 < row.e2eNs ↔ row.resultCode = 0) :
    (rows.filter fun row => decide (0 < row.e2eNs)) = rows.filter fun row => row.resultCode == 0 := by
  refine List.filter_congr fun row hrow => ?_
  rw [Bool.eq_iff_iff, decide_eq_true_iff, beq_iff_eq]
  exact h row hrow

/-- Then both take the same samples, if there is one. -/
theorem Pipeline.SameSamples.samples_eq {P : Platform} {self : Pipeline P}
    {actions : List PipelineAction} (h : self.SameSamples actions)
    (hsome : ∃ row ∈ self.rows actions, 0 < row.e2eNs) :
    (summarize (self.csv actions)).map Summary.e2eNs = positiveLatency (self.csv actions) := by
  unfold Pipeline.csv
  rw [summarize_toCsv, positiveLatency_toCsv hsome, filter_marks_eq h.1]
  rfl

theorem Verification.ok_iff {P : Platform} (v : Verification P) :
    v.event.ok = true ↔ v.node.Accepts P v.delivery ∧ v.delivery.env.faults .publish = none := by
  rw [v.reports.ok, Delivery.resultCode_of_makeEvent v.makeEvent_eq,
    ResultCode.toUInt8_injective.eq_iff, VerifierNode.code_judge_eq_ok, ← and_assoc]
  rfl

/-- **One row.** Its two marks of success agree unless the message was accepted with a stamp ahead. -/
theorem Verification.marks_agree_iff {P : Platform} (v : Verification P) (runner : LatencyRunner) :
    (0 < (runner.eventRow v.event).e2eNs ↔ (runner.eventRow v.event).resultCode = 0) ↔
      ¬ v.AcceptedAhead := by
  have hcode : (runner.eventRow v.event).resultCode = 0 ↔ v.event.ok = true := by
    rw [v.reports.ok]
    change (v.event.resultCode.toNat : ℤ) = 0 ↔ v.event.resultCode = 0
    rw [Nat.cast_eq_zero, ← UInt8.toNat_inj]
    rfl
  have he2e := (runner.eventRow_reports v.event).e2eNs
  have hage := v.reports.ageNs
  rw [hcode, he2e]
  unfold Verification.AcceptedAhead
  rw [← and_assoc, ← v.ok_iff]
  cases v.event.ok with
  | true =>
      simp only [if_true, true_and, iff_true, hage, Delivery.ageNs]
      omega
  | false => simp

/-- **When the evaluators select the same samples**: in every run of the pipeline, iff no event of a
    message that was accepted with a stamp at or ahead of the verifier's clock gets a row. -/
theorem sameSamples_iff (P : Platform) (count : ℤ) (runId : PyStr) (params : SignerParams)
    (verifier : VerifierNode) (actions : List PipelineAction) :
    (Pipeline.start P count runId params verifier).SameSamples actions ↔
      (Pipeline.start P count runId params verifier).StampsBehind actions := by
  have hrows : (∀ row ∈ (Pipeline.start P count runId params verifier).rows actions,
      (0 < row.e2eNs ↔ row.resultCode = 0)) ↔
      (Pipeline.start P count runId params verifier).StampsBehind actions := by
    unfold Pipeline.rows Pipeline.reports Pipeline.StampsBehind
    simp only [List.forall_mem_map, Machine.mem_trace_iff, forall_exists_index, and_imp]
    -- step by step instead of row by row
    rw [forall_comm]
    refine forall_congr' fun st => ?_
    rw [forall_comm]
    refine forall_congr' fun hst => ?_
    obtain ⟨hinv, houtput⟩ := Pipeline.inv_of_mem_steps hst
    rw [houtput, hinv.forall_output_iff]
    exact forall₂_congr fun v _ => v.marks_agree_iff st.pre.runner
  unfold Pipeline.SameSamples
  rw [hrows]
  refine ⟨fun h => h.1, fun h => ⟨h, ?_⟩⟩
  unfold Pipeline.csv
  rw [positiveRows_toCsv, okRows_toCsv, filter_marks_eq (hrows.2 h)]

/-! ## A sample that vanishes -/

/-- SHA-256 of the canonical bytes of the first message, made from command `0`. -/
def promptDigest : Bytes :=
  [116, 164, 182, 15, 229, 91, 9, 104, 137, 145, 166, 187, 244, 232, 119, 211, 133, 133, 113, 180, 195,
    46, 213, 119, 110, 203, 223, 240, 15, 133, 137, 53]

/-- One command, signed and verified at the same reading of the clock. -/
def promptActions : List PipelineAction :=
  [.tick 0, .sign (.quiet 5000000000), .verify ⟨.bench 0 promptDigest, .quiet 5000000000⟩, .record 0]

/-- The row of the command: no time passed, and it is `RESULT_OK`. -/
def BenchmarkRow.prompt : BenchmarkRow :=
  ⟨PyStr.ofString "5f1c2a7b9d30", PyStr.ofString "app_sig", 0, 0, 1, 0, 0, 0⟩

theorem rows_prompt : (Pipeline.demo promptDigest).rows promptActions = [.prompt] := by rfl

/-- **A success without latency.** The command is accepted, its row counts as ok in the one evaluator,
    and the other one finds nothing to plot. -/
theorem sampleVanishes_demo :
    let pipe := Pipeline.demo promptDigest
    (summarize (pipe.csv promptActions)).map Summary.ok = .ok 1 ∧
      positiveRows (pipe.csv promptActions) = .ok [] ∧ ¬ pipe.SameSamples promptActions := by
  intro pipe
  have hrows : pipe.rows promptActions = [.prompt] := rows_prompt
  unfold Pipeline.csv
  rw [hrows]
  refine ⟨?_, ?_, ?_⟩
  · rw [summarize_toCsv]
    rfl
  · rw [positiveRows_toCsv]
    rfl
  · rintro ⟨hagree, -⟩
    rw [hrows] at hagree
    have hpositive := (hagree .prompt (List.mem_singleton_self _)).2 rfl
    exact absurd hpositive (by decide)

end PqcSecureComm
