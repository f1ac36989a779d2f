import PqcSecureComm.Lib.Machine
import PqcSecureComm.Messages

set_option autoImplicit false

/-! # The benchmark runner

`LatencyRunner` publishes `count` numbered commands, remembers when it sent each one and writes one CSV
row for the first answer to a number that is still outstanding. The file is closed with the last row.
Nothing looks whether it is still open before a row is written: that no callback, however late, meets a
closed file follows from counting alone (`benchmark_bookkeeping`). -/

namespace PqcSecureComm

/-! ## The source -/

inductive BenchMode
  | plain
  | appSig
  deriving DecidableEq, Repr

def BenchMode.text : BenchMode → PyStr
  | .plain => PyStr.ofString "plain"
  | .appSig => PyStr.ofString "app_sig"

/-- A row as it is handed to `write_row`. -/
structure BenchmarkRow where
  runId : PyStr
  mode : PyStr
  sequence : ℤ
  signNs : ℤ
  verifyNs : ℤ
  ageNs : ℤ
  e2eNs : ℤ
  resultCode : ℤ
  deriving DecidableEq, Repr

/-- The node, and of its `BenchmarkCsvWriter` whether the file is closed. -/
structure LatencyRunner where
  mode : BenchMode
  count : ℕ
  runId : PyStr
  sentPerfNs : Finmap fun _ : ℕ => ℤ
  published : ℕ
  recorded : ℕ
  done : Bool
  closed : Bool
  count_pos : 1 ≤ count

/-- The parameters of the runner that its callbacks depend on, with the values they are declared with. -/
structure LatencyRunnerParams where
  mode : PyStr := PyStr.ofString "app_sig"
  count : ℤ := 100
  deriving DecidableEq, Repr

/-- What `__init__` leaves, with the output file open. -/
def LatencyRunner.start (mode : BenchMode) (count : ℤ) (runId : PyStr) : LatencyRunner where
  mode := mode
  count := (max 1 count).toNat
  runId := runId
  sentPerfNs := ∅
  published := 0
  recorded := 0
  done := false
  closed := false
  count_pos := by omega

/-- `LatencyRunner.__init__`; the run id is drawn at random. -/
def LatencyRunner.init (params : LatencyRunnerParams) (runId : PyStr) : Except PyError LatencyRunner :=
  if params.mode = BenchMode.plain.text then .ok (.start .plain params.count runId)
  else if params.mode = BenchMode.appSig.text then .ok (.start .appSig params.count runId)
  else .error (.mk' .valueError "mode must be \"plain\" or \"app_sig\"")

/-- A timer tick, an echo on `/cmd_vel/raw` or an event on `/pqc/verify_event`, with the reading of
    `time.perf_counter_ns` where the callback takes one. -/
inductive BenchInput
  | tick (perfNs : ℤ)
  | plainEcho (msg : Twist) (perfNs : ℤ)
  | verifyEvent (msg : VerificationEvent)

/-- Publications on `/cmd_vel/raw`, and rows of the CSV file. -/
inductive BenchOutput
  | twist (msg : Twist)
  | row (row : BenchmarkRow)
  deriving DecidableEq, Repr

/-- `msg` of `_publish_one`: `linear.x` is the number, `angular.z` is `0.1`. -/
def numberedTwist (x : UInt64) : Twist := ⟨⟨x, 0, 0⟩, ⟨0, 0, 0x3fb999999999999a⟩⟩

def LatencyRunner.withSent (self : LatencyRunner) (sentPerfNs : Finmap fun _ : ℕ => ℤ) : LatencyRunner :=
  { self with sentPerfNs := sentPerfNs }

/-- `_publish_one`. -/
def LatencyRunner.publishOne (perfNs : ℤ) : Callback LatencyRunner BenchOutput PyError Unit := do
  let self ← Callback.node
  -- `self._timer.cancel()`: a tick that comes nevertheless ends here again
  if self.published ≥ self.count then pure ()
  else do
    let sequence := self.published
    let x ← Callback.call (pyFloat sequence)
    Callback.modifyNode fun self => self.withSent (self.sentPerfNs.insert sequence perfNs)
    Callback.publish (.twist (numberedTwist x))
    Callback.modifyNode fun self => { self with published := self.published + 1 }

/-- What a write to the closed file raises. -/
def closedFileError : PyError := .mk' .valueError "I/O operation on closed file."

/-- `_write_result`. -/
def LatencyRunner.writeResult (sequence signNs verifyNs ageNs e2eNs resultCode : ℤ) :
    Callback LatencyRunner BenchOutput PyError Unit := do
  let self ← Callback.node
  Callback.raiseIf (if self.closed then some closedFileError else none)
  Callback.publish (.row
    { runId := self.runId
      mode := self.mode.text
      sequence := sequence
      signNs := signNs
      verifyNs := verifyNs
      ageNs := ageNs
      e2eNs := e2eNs
      resultCode := resultCode })
  Callback.modifyNode fun self => { self with recorded := self.recorded + 1 }
  Callback.modifyNode fun self =>
    if self.recorded ≥ self.count then { self with done := true, closed := true } else self

/-- `_on_plain_echo`. -/
def LatencyRunner.onPlainEcho (msg : Twist) (perfNs : ℤ) :
    Callback LatencyRunner BenchOutput PyError Unit := do
  let self ← Callback.node
  let sequence ← Callback.call (pyInt msg.linear.x)
  if sequence < 0 ∨ sequence ≥ self.count then pure ()
  else
    match self.sentPerfNs.lookup sequence.toNat with
    | none => pure ()
    | some sentNs => do
      Callback.modifyNode fun self => self.withSent (self.sentPerfNs.erase sequence.toNat)
      LatencyRunner.writeResult sequence 0 0 0 (perfNs - sentNs) 0

/-- `_on_verify_event`. -/
def LatencyRunner.onVerifyEvent (msg : VerificationEvent) :
    Callback LatencyRunner BenchOutput PyError Unit := do
  let self ← Callback.node
  let sequence := msg.sequence.toNat
  match self.sentPerfNs.lookup sequence with
  | none => pure ()
  | some _ => do
    Callback.modifyNode fun self => self.withSent (self.sentPerfNs.erase sequence)
    LatencyRunner.writeResult sequence 0 msg.verifyNs.toNat msg.ageNs.toNat
      (if msg.ok then msg.ageNs.toNat else 0) msg.resultCode.toNat

/-- The callback of an input; each mode has one of the two subscriptions. -/
def LatencyRunner.callback (mode : BenchMode) :
    BenchInput → Callback LatencyRunner BenchOutput PyError Unit
  | .tick perfNs => LatencyRunner.publishOne perfNs
  | .plainEcho msg perfNs =>
    match mode with
    | .plain => LatencyRunner.onPlainEcho msg perfNs
    | .appSig => pure ()
  | .verifyEvent msg =>
    match mode with
    | .plain => pure ()
    | .appSig => LatencyRunner.onVerifyEvent msg

/-- One callback of the runner. -/
def LatencyRunner.handle (self : LatencyRunner) (input : BenchInput) :
    LatencyRunner × Callback.Reaction BenchOutput PyError :=
  Callback.react (LatencyRunner.callback self.mode input) self

/-! ## What a callback can do -/

/-- The node after a command was published. -/
def LatencyRunner.countPublished (self : LatencyRunner) (perfNs : ℤ) : LatencyRunner :=
  { self with
    sentPerfNs := self.sentPerfNs.insert self.published perfNs
    published := self.published + 1 }

/-- The node after the row of an outstanding number was written. -/
def LatencyRunner.countRecorded (self : LatencyRunner) (sequence : ℕ) : LatencyRunner :=
  { self with
    sentPerfNs := self.sentPerfNs.erase sequence
    recorded := self.recorded + 1
    done := if self.recorded + 1 ≥ self.count then true else self.done
    closed := if self.recorded + 1 ≥ self.count then true else self.closed }

/-- The row for an echo of a command that was sent at `sentNs`. -/
def LatencyRunner.echoRow (self : LatencyRunner) (sequence perfNs sentNs : ℤ) : BenchmarkRow :=
  ⟨self.runId, self.mode.text, sequence, 0, 0, 0, perfNs - sentNs, 0⟩

/-- The row for an event. -/
def LatencyRunner.eventRow (self : LatencyRunner) (msg : VerificationEvent) : BenchmarkRow :=
  ⟨self.runId, self.mode.text, msg.sequence.toNat, 0, msg.verifyNs.toNat, msg.ageNs.toNat,
    if msg.ok then msg.ageNs.toNat else 0, msg.resultCode.toNat⟩

/-- The number an input answers, if it is outstanding, with the row for it. -/
def LatencyRunner.answer? (self : LatencyRunner) : BenchInput → Option (ℕ × BenchmarkRow)
  | .tick _ => none
  | .plainEcho msg perfNs =>
    match self.mode, pyInt msg.linear.x with
    | .plain, .ok sequence =>
      if sequence < 0 ∨ sequence ≥ self.count then none
      else (self.sentPerfNs.lookup sequence.toNat).map fun sentNs =>
        (sequence.toNat, self.echoRow sequence perfNs sentNs)
    | _, _ => none
  | .verifyEvent msg =>
    match self.mode with
    | .plain => none
    | .appSig => (self.sentPerfNs.lookup msg.sequence.toNat).map fun _ =>
        (msg.sequence.toNat, self.eventRow msg)

/-- The row an input is answered with has the number of an outstanding command. -/
theorem LatencyRunner.of_answer? {self : LatencyRunner} {input : BenchInput} {sequence : ℕ}
    {row : BenchmarkRow} (h : self.answer? input = some (sequence, row)) :
    sequence ∈ self.sentPerfNs ∧ row.sequence = sequence := by
  have hmem : ∀ {s : ℕ} {sentNs : ℤ}, self.sentPerfNs.lookup s = some sentNs → s ∈ self.sentPerfNs :=
    Finmap.mem_of_lookup_eq_some
  unfold LatencyRunner.answer? at h
  cases input with
  | tick perfNs => exact absurd h (by simp)
  | plainEcho msg perfNs =>
      simp only at h
      split at h
      · next n hmode hn =>
          by_cases hrange : n < 0 ∨ n ≥ self.count
          · rw [if_pos hrange] at h
            exact absurd h (by simp)
          · rw [if_neg hrange, Option.map_eq_some_iff] at h
            obtain ⟨sentNs, hsent, heq⟩ := h
            obtain ⟨rfl, rfl⟩ := Prod.mk.inj heq
            refine ⟨hmem hsent, ?_⟩
            have hpos : 0 ≤ n := not_lt.1 fun hneg => hrange (Or.inl hneg)
            exact (Int.toNat_of_nonneg hpos).symm
      · exact absurd h (by simp)
  | verifyEvent msg =>
      simp only at h
      split at h
      · exact absurd h (by simp)
      · obtain ⟨sentNs, hsent, heq⟩ := Option.map_eq_some_iff.1 h
        obtain ⟨rfl, rfl⟩ := Prod.mk.inj heq
        exact ⟨hmem hsent, rfl⟩

/-- Taking a number off the dictionary and writing its row. -/
theorem LatencyRunner.run_record (self : LatencyRunner) (key : ℕ)
    (sequence signNs verifyNs ageNs e2eNs resultCode : ℤ) :
    Callback.run (do
        Callback.modifyNode fun self => self.withSent (self.sentPerfNs.erase key)
        LatencyRunner.writeResult sequence signNs verifyNs ageNs e2eNs resultCode) self [] =
      if self.closed then (.error closedFileError, self.withSent (self.sentPerfNs.erase key), [])
      else (.ok (), self.countRecorded key,
        [.row ⟨self.runId, self.mode.text, sequence, signNs, verifyNs, ageNs, e2eNs, resultCode⟩]) := by
  unfold LatencyRunner.writeResult
  rw [Callback.run_modifyNode_bind, Callback.run_node_bind, Callback.run_raiseIf_bind]
  cases hclosed : self.closed with
  | true =>
      have hclosed' : (self.withSent (self.sentPerfNs.erase key)).closed = true := hclosed
      rw [hclosed']
      rfl
  | false =>
      have hopen : (self.withSent (self.sentPerfNs.erase key)).closed = false := hclosed
      rw [hopen]
      simp only [Bool.false_eq_true, if_false, Callback.run_publish_bind, Callback.run_modifyNode_bind,
        Callback.run_modifyNode]
      unfold LatencyRunner.countRecorded LatencyRunner.withSent
      by_cases hlast : self.recorded + 1 ≥ self.count
      · simp [hlast]
      · simp [hlast, hclosed]

/-- **What a callback of the runner does** with an input that answers nothing (`idle`; a tick can
    `publish`), and with one that answers an outstanding number (`record`, or `late` if the file is
    closed). -/
inductive LatencyRunner.Steps (self : LatencyRunner) (input : BenchInput) :
    LatencyRunner × Callback.Reaction BenchOutput PyError → Prop
  | idle (outcome : Except PyError Unit) (hnone : self.answer? input = none)
      (hopen : outcome ≠ .error closedFileError) : self.Steps input (self, ⟨outcome, []⟩)
  | publish (perfNs : ℤ) (x : UInt64) (htick : input = .tick perfNs)
      (hcount : self.published < self.count) (hx : pyFloat self.published = .ok x) :
      self.Steps input (self.countPublished perfNs, ⟨.ok (), [.twist (numberedTwist x)]⟩)
  | record (sequence : ℕ) (row : BenchmarkRow) (hanswer : self.answer? input = some (sequence, row))
      (hopen : self.closed = false) :
      self.Steps input (self.countRecorded sequence, ⟨.ok (), [.row row]⟩)
  | late (sequence : ℕ) (row : BenchmarkRow) (hanswer : self.answer? input = some (sequence, row))
      (hclosed : self.closed = true) :
      self.Steps input (self.withSent (self.sentPerfNs.erase sequence), ⟨.error closedFileError, []⟩)

theorem pyFloat_error {n : ℕ} {exc : PyError} (h : pyFloat n = .error exc) :
    exc ≠ closedFileError := by
  unfold pyFloat at h
  split at h
  · exact absurd h (by simp)
  · rw [← Except.error.inj h]
    decide

theorem pyInt_error {x : UInt64} {exc : PyError} (h : pyInt x = .error exc) :
    exc ≠ closedFileError := by
  unfold pyInt at h
  split at h
  · exact absurd h (by simp)
  · split at h
    · rw [← Except.error.inj h]
      decide
    · rw [← Except.error.inj h]
      decide

theorem LatencyRunner.steps (self : LatencyRunner) (input : BenchInput) :
    self.Steps input (self.handle input) := by
  have hok : (Except.ok () : Except PyError Unit) ≠ .error closedFileError := by simp
  unfold LatencyRunner.handle Callback.react
  cases input with
  | tick perfNs =>
      unfold LatencyRunner.callback LatencyRunner.publishOne
      simp only [Callback.run_node_bind]
      by_cases hcount : self.published ≥ self.count
      · rw [if_pos hcount]
        exact .idle _ rfl hok
      · rw [if_neg hcount, Callback.run_call_bind]
        cases hx : pyFloat self.published with
        | error exc => exact .idle _ rfl fun h => pyFloat_error hx (Except.error.inj h)
        | ok x => exact .publish perfNs x rfl (not_le.1 hcount) hx
  | plainEcho msg perfNs =>
      cases hmode : self.mode with
      | appSig => exact .idle _ (by simp [LatencyRunner.answer?, hmode]) hok
      | plain =>
          unfold LatencyRunner.callback LatencyRunner.onPlainEcho
          simp only [Callback.run_node_bind, Callback.run_call_bind]
          cases hx : pyInt msg.linear.x with
          | error exc =>
              exact .idle _ (by simp [LatencyRunner.answer?, hmode, hx])
                fun h => pyInt_error hx (Except.error.inj h)
          | ok sequence =>
              simp only
              by_cases hrange : sequence < 0 ∨ sequence ≥ self.count
              · rw [if_pos hrange]
                exact .idle _ (by simp [LatencyRunner.answer?, hmode, hx, hrange]) hok
              · rw [if_neg hrange]
                cases hsent : self.sentPerfNs.lookup sequence.toNat with
                | none => exact .idle _ (by simp [LatencyRunner.answer?, hmode, hx, hrange, hsent]) hok
                | some sentNs =>
                    have hanswer : self.answer? (.plainEcho msg perfNs) =
                        some (sequence.toNat, self.echoRow sequence perfNs sentNs) := by
                      simp [LatencyRunner.answer?, hmode, hx, hrange, hsent]
                    simp only [LatencyRunner.run_record]
                    cases hclosed : self.closed with
                    | true => exact .late _ _ hanswer hclosed
                    | false => exact .record _ _ hanswer hclosed
  | verifyEvent msg =>
      cases hmode : self.mode with
      | plain => exact .idle _ (by simp [LatencyRunner.answer?, hmode]) hok
      | appSig =>
          unfold LatencyRunner.callback LatencyRunner.onVerifyEvent
          simp only [Callback.run_node_bind]
          cases hsent : self.sentPerfNs.lookup msg.sequence.toNat with
          | none => exact .idle _ (by simp [LatencyRunner.answer?, hmode, hsent]) hok
          | some sentNs =>
              have hanswer : self.answer? (.verifyEvent msg) =
                  some (msg.sequence.toNat, self.eventRow msg) := by
                simp [LatencyRunner.answer?, hmode, hsent]
              simp only [LatencyRunner.run_record]
              cases hclosed : self.closed with
              | true => exact .late _ _ hanswer hclosed
              | false => exact .record _ _ hanswer hclosed

/-! ## Runs -/

/-- The rows a callback wrote. -/
def rowsOf (r : Callback.Reaction BenchOutput PyError) : List BenchmarkRow :=
  r.published.filterMap fun
    | .twist _ => none
    | .row row => some row

/-- The CSV file of a run. -/
def LatencyRunner.rows (self : LatencyRunner) (inputs : List BenchInput) : List BenchmarkRow :=
  (Machine.outputs LatencyRunner.handle self inputs).flatMap rowsOf

/-- The rows written so far account for the commands published so far. -/
structure LatencyRunner.Bookkeeping (runner : LatencyRunner) (rows : List BenchmarkRow) : Prop where
  published_le : runner.published ≤ runner.count
  balance : rows.length + runner.sentPerfNs.keys.card = runner.published
  outstanding_lt : ∀ s ∈ runner.sentPerfNs, s < runner.published
  covered : ∀ s < runner.published, s ∈ runner.sentPerfNs ∨ (s : ℤ) ∈ rows.map BenchmarkRow.sequence
  answered : ∀ row ∈ rows, ∃ s < runner.published, row.sequence = s ∧ s ∉ runner.sentPerfNs
  distinct : (rows.map BenchmarkRow.sequence).Nodup
  recorded_eq : runner.recorded = rows.length
  done_iff : runner.done = true ↔ runner.count ≤ runner.recorded
  closed_eq : runner.closed = runner.done

theorem LatencyRunner.bookkeeping_start (mode : BenchMode) (count : ℤ) (runId : PyStr) :
    (LatencyRunner.start mode count runId).Bookkeeping [] where
  published_le := Nat.zero_le _
  balance := rfl
  outstanding_lt s hs := absurd hs Finmap.notMem_empty
  covered s hs := absurd hs (Nat.not_lt_zero s)
  answered row hrow := absurd hrow List.not_mem_nil
  distinct := List.nodup_nil
  recorded_eq := rfl
  done_iff := iff_of_false (by simp [LatencyRunner.start])
    (not_le.2 (LatencyRunner.start mode count runId).count_pos)
  closed_eq := rfl

theorem LatencyRunner.Bookkeeping.publish {self : LatencyRunner} {rows : List BenchmarkRow}
    (h : self.Bookkeeping rows) (hcount : self.published < self.count) (perfNs : ℤ) :
    (self.countPublished perfNs).Bookkeeping rows := by
  have hnew : self.published ∉ self.sentPerfNs := fun hmem => lt_irrefl _ (h.outstanding_lt _ hmem)
  have hkeys : (self.countPublished perfNs).sentPerfNs.keys =
      insert self.published self.sentPerfNs.keys := by
    ext s
    simp [LatencyRunner.countPublished, Finmap.mem_keys]
  have hmem : ∀ s, s ∈ (self.countPublished perfNs).sentPerfNs ↔
      s = self.published ∨ s ∈ self.sentPerfNs := fun s => Finmap.mem_insert
  refine ⟨hcount, ?_, ?_, ?_, ?_, h.distinct, h.recorded_eq, h.done_iff, h.closed_eq⟩
  · rw [hkeys, Finset.card_insert_of_notMem fun hin => hnew (Finmap.mem_keys.1 hin), ← add_assoc,
      h.balance]
    rfl
  · intro s hs
    rcases (hmem s).1 hs with rfl | hold
    · exact Nat.lt_succ_self _
    · exact Nat.lt_succ_of_lt (h.outstanding_lt s hold)
  · intro s hs
    rcases Nat.lt_succ_iff_lt_or_eq.1 hs with hlt | rfl
    · rcases h.covered s hlt with hout | hrow
      · exact Or.inl ((hmem s).2 (Or.inr hout))
      · exact Or.inr hrow
    · exact Or.inl ((hmem _).2 (Or.inl rfl))
  · intro row hrow
    obtain ⟨s, hs, hsequence, hout⟩ := h.answered row hrow
    refine ⟨s, Nat.lt_succ_of_lt hs, hsequence, fun hin => ?_⟩
    rcases (hmem s).1 hin with rfl | hold
    · exact lt_irrefl _ hs
    · exact hout hold

theorem LatencyRunner.Bookkeeping.record {self : LatencyRunner} {rows : List BenchmarkRow}
    (h : self.Bookkeeping rows) {sequence : ℕ} {row : BenchmarkRow}
    (hout : sequence ∈ self.sentPerfNs) (hrow : row.sequence = sequence) :
    (self.countRecorded sequence).Bookkeeping (rows ++ [row]) := by
  have hmem : ∀ s, s ∈ (self.countRecorded sequence).sentPerfNs ↔
      s ≠ sequence ∧ s ∈ self.sentPerfNs :=
    fun s => Finmap.mem_erase
  have hcard : self.sentPerfNs.keys.card = (self.countRecorded sequence).sentPerfNs.keys.card + 1 := by
    have hkeys : (self.countRecorded sequence).sentPerfNs.keys = self.sentPerfNs.keys.erase sequence :=
      Finmap.keys_erase sequence self.sentPerfNs
    rw [hkeys, Finset.card_erase_add_one (Finmap.mem_keys.2 hout)]
  refine ⟨h.published_le, ?_, ?_, ?_, ?_, ?_, ?_, ?_, ?_⟩
  · have hbalance := h.balance
    rw [List.length_append, List.length_singleton]
    change _ = self.published
    omega
  · intro s hs
    exact h.outstanding_lt s ((hmem s).1 hs).2
  · intro s hs
    by_cases heq : s = sequence
    · exact Or.inr (List.mem_map.2 ⟨row, by simp, by rw [hrow, heq]⟩)
    · rcases h.covered s hs with hold | hrows
      · exact Or.inl ((hmem s).2 ⟨heq, hold⟩)
      · rw [List.map_append]
        exact Or.inr (List.mem_append_left _ hrows)
  · intro row' hrow'
    rcases List.mem_append.1 hrow' with hold | hnew
    · obtain ⟨s, hs, hsequence, hanswered⟩ := h.answered row' hold
      exact ⟨s, hs, hsequence, fun hin => hanswered ((hmem s).1 hin).2⟩
    · rw [List.mem_singleton.1 hnew]
      exact ⟨sequence, h.outstanding_lt sequence hout, hrow, fun hin => ((hmem sequence).1 hin).1 rfl⟩
  · -- no earlier row has a number that is still outstanding
    rw [List.map_append, List.nodup_append]
    refine ⟨h.distinct, List.nodup_singleton _, ?_⟩
    intro n hn n' hn' heq
    obtain ⟨row', hrow', rfl⟩ := List.mem_map.1 hn
    obtain ⟨s, -, hsequence, hanswered⟩ := h.answered row' hrow'
    rw [List.map_singleton, List.mem_singleton, hrow] at hn'
    rw [hsequence, hn', Nat.cast_inj] at heq
    exact hanswered (heq ▸ hout)
  · rw [List.length_append, ← h.recorded_eq]
    rfl
  · change (if self.recorded + 1 ≥ self.count then true else self.done) = true ↔
      self.count ≤ self.recorded + 1
    by_cases hlast : self.recorded + 1 ≥ self.count
    · simp [hlast]
    · rw [if_neg hlast, h.done_iff]
      omega
  · change (if self.recorded + 1 ≥ self.count then true else self.closed) =
      if self.recorded + 1 ≥ self.count then true else self.done
    rw [h.closed_eq]

/-- While something is outstanding, a row is missing and the file is open. -/
theorem LatencyRunner.Bookkeeping.isOpen {self : LatencyRunner} {rows : List BenchmarkRow}
    (h : self.Bookkeeping rows) {sequence : ℕ} (hout : sequence ∈ self.sentPerfNs) :
    self.closed = false := by
  have hcard : 0 < self.sentPerfNs.keys.card := Finset.card_pos.2 ⟨sequence, Finmap.mem_keys.2 hout⟩
  have hmissing : ¬ self.count ≤ self.recorded := by
    have hle := h.published_le
    have hbalance := h.balance
    rw [h.recorded_eq]
    omega
  rw [h.closed_eq]
  exact Bool.eq_false_iff.2 fun hdone => hmissing (h.done_iff.1 hdone)

/-- One callback keeps the books. -/
theorem LatencyRunner.Bookkeeping.handle {self : LatencyRunner} {rows : List BenchmarkRow}
    (h : self.Bookkeeping rows) (input : BenchInput) :
    (self.handle input).1.Bookkeeping (rows ++ rowsOf (self.handle input).2) := by
  have hsteps := self.steps input
  generalize self.handle input = result at hsteps ⊢
  cases hsteps with
  | idle outcome hnone hopen =>
      show self.Bookkeeping (rows ++ [])
      rwa [List.append_nil]
  | publish perfNs x htick hcount hx =>
      show (self.countPublished perfNs).Bookkeeping (rows ++ [])
      rw [List.append_nil]
      exact h.publish hcount perfNs
  | record sequence row hanswer hopen =>
      obtain ⟨hout, hrow⟩ := LatencyRunner.of_answer? hanswer
      exact h.record hout hrow
  | late sequence row hanswer hclosed =>
      rw [h.isOpen (LatencyRunner.of_answer? hanswer).1] at hclosed
      exact absurd hclosed (by simp)

/-- No callback meets the closed file. -/
theorem LatencyRunner.Bookkeeping.not_late {self : LatencyRunner} {rows : List BenchmarkRow}
    (h : self.Bookkeeping rows) (input : BenchInput) :
    (self.handle input).2.outcome ≠ .error closedFileError ∧
      (self.closed = true → rowsOf (self.handle input).2 = []) := by
  have hsteps := self.steps input
  generalize self.handle input = result at hsteps ⊢
  cases hsteps with
  | idle outcome hnone hopen => exact ⟨hopen, fun _ => rfl⟩
  | publish perfNs x htick hcount hx => exact ⟨by simp, fun _ => rfl⟩
  | record sequence row hanswer hopen =>
      refine ⟨by simp, fun hclosed => ?_⟩
      rw [hopen] at hclosed
      exact absurd hclosed (by simp)
  | late sequence row hanswer hclosed =>
      rw [h.isOpen (LatencyRunner.of_answer? hanswer).1] at hclosed
      exact absurd hclosed (by simp)

theorem LatencyRunner.count_handle (self : LatencyRunner) (input : BenchInput) :
    (self.handle input).1.count = self.count := by
  have hsteps := self.steps input
  generalize self.handle input = result at hsteps ⊢
  cases hsteps <;> rfl

theorem LatencyRunner.mode_handle (self : LatencyRunner) (input : BenchInput) :
    (self.handle input).1.mode = self.mode := by
  have hsteps := self.steps input
  generalize self.handle input = result at hsteps ⊢
  cases hsteps <;> rfl

theorem LatencyRunner.init_eq_ok {params : LatencyRunnerParams} {runId : PyStr} {runner : LatencyRunner}
    (h : LatencyRunner.init params runId = .ok runner) :
    ∃ mode, runner = .start mode params.count runId := by
  unfold LatencyRunner.init at h
  split at h
  · exact ⟨.plain, (Except.ok.inj h).symm⟩
  · split at h
    · exact ⟨.appSig, (Except.ok.inj h).symm⟩
    · exact absurd h (by simp)

theorem LatencyRunner.bookkeeping_final (mode : BenchMode) (count : ℤ) (runId : PyStr)
    (inputs : List BenchInput) :
    (Machine.final LatencyRunner.handle (.start mode count runId) inputs).Bookkeeping
      ((LatencyRunner.start mode count runId).rows inputs) :=
  Machine.observed_invariant LatencyRunner.handle rowsOf (fun _ _ input hs => hs.handle input)
    (LatencyRunner.bookkeeping_start mode count runId) inputs

theorem LatencyRunner.count_final (self : LatencyRunner) (inputs : List BenchInput) :
    (Machine.final LatencyRunner.handle self inputs).count = self.count :=
  Machine.final_invariant LatencyRunner.handle (Q := fun _ => True) (P := fun s => s.count = self.count)
    (fun s input _ hs => (s.count_handle input).trans hs) (fun _ _ => trivial) rfl

theorem LatencyRunner.mode_final (self : LatencyRunner) (inputs : List BenchInput) :
    (Machine.final LatencyRunner.handle self inputs).mode = self.mode :=
  Machine.final_invariant LatencyRunner.handle (Q := fun _ => True) (P := fun s => s.mode = self.mode)
    (fun s input _ hs => (s.mode_handle input).trans hs) (fun _ _ => trivial) rfl

theorem LatencyRunner.count_start_lt (mode : BenchMode) {count : ℤ} (hcount : count < 2 ^ 63)
    (runId : PyStr) : (LatencyRunner.start mode count runId).count < 2 ^ 63 := by
  simp only [LatencyRunner.start]
  omega

/-- **The books of the runner balance** after any callbacks in any order, in both modes. Every published
    number is either outstanding or has exactly one row, and there are no other rows; the runner is done
    iff it wrote `count` of them; and no callback, before or after, meets the closed file. -/
theorem benchmark_bookkeeping {params : LatencyRunnerParams} {runId : PyStr} {runner : LatencyRunner}
    (hinit : LatencyRunner.init params runId = .ok runner) (inputs : List BenchInput) :
    let self := Machine.final LatencyRunner.handle runner inputs
    let rows := runner.rows inputs
    (self.count : ℤ) = max 1 params.count ∧
    rows.length + self.sentPerfNs.keys.card = self.published ∧ self.published ≤ self.count ∧
    (∀ s < self.published,
      (s ∈ self.sentPerfNs ∧ (rows.map BenchmarkRow.sequence).count (s : ℤ) = 0) ∨
      (s ∉ self.sentPerfNs ∧ (rows.map BenchmarkRow.sequence).count (s : ℤ) = 1)) ∧
    (∀ s ∈ self.sentPerfNs, s < self.published) ∧
    (∀ row ∈ rows, ∃ s < self.published, row.sequence = s) ∧
    (self.done = true ↔ rows.length = self.count) ∧
    ∀ input, (self.handle input).2.outcome ≠ .error closedFileError ∧
      (self.closed = true → rowsOf (self.handle input).2 = []) := by
  intro self rows
  obtain ⟨mode, rfl⟩ := LatencyRunner.init_eq_ok hinit
  have hbooks : self.Bookkeeping rows :=
    LatencyRunner.bookkeeping_final mode params.count runId inputs
  have hcount : self.count = (LatencyRunner.start mode params.count runId).count :=
    LatencyRunner.count_final _ inputs
  refine ⟨?_, hbooks.balance, hbooks.published_le, ?_, hbooks.outstanding_lt, ?_, ?_, hbooks.not_late⟩
  · rw [hcount]
    exact Int.toNat_of_nonneg (by omega)
  · intro s hs
    by_cases hout : s ∈ self.sentPerfNs
    · refine Or.inl ⟨hout, List.count_eq_zero.2 fun hmem => ?_⟩
      obtain ⟨row, hrow, hsequence⟩ := List.mem_map.1 hmem
      obtain ⟨s', -, hs', hanswered⟩ := hbooks.answered row hrow
      obtain rfl : s' = s := by exact_mod_cast hs'.symm.trans hsequence
      exact hanswered hout
    · exact Or.inr ⟨hout, List.count_eq_one_of_mem hbooks.distinct
        ((hbooks.covered s hs).resolve_left hout)⟩
  · intro row hrow
    obtain ⟨s, hs, hsequence, -⟩ := hbooks.answered row hrow
    exact ⟨s, hs, hsequence⟩
  · have hle : rows.length ≤ self.count := by
      have hbalance := hbooks.balance
      have hpublished := hbooks.published_le
      omega
    rw [hbooks.done_iff, hbooks.recorded_eq]
    omega

/-- The event for the first command of a run. -/
def VerificationEvent.demo : VerificationEvent where
  headerStamp := ⟨5, 0⟩
  ok := true
  resultCode := 0
  reason := []
  sourceId := PyStr.ofString "demo_source"
  keyId := PyStr.ofString "demo_mldsa44_key_1"
  sequence := 0
  verifyNs := 40000
  ageNs := 1000

/-- An `app_sig` run of one command, whose event arrives early, in time and twice, and a `plain` run of
    two commands, of which the first one is answered. -/
theorem benchmark_bookkeeping_demo :
    (Machine.final LatencyRunner.handle (.start .appSig 1 (PyStr.ofString "5f1c2a7b9d30"))
      [.verifyEvent .demo, .tick 0, .verifyEvent .demo, .verifyEvent .demo, .tick 1]).done = true ∧
    let runner := LatencyRunner.start .plain 2 (PyStr.ofString "5f1c2a7b9d30")
    let inputs : List BenchInput := [.tick 0, .tick 50, .plainEcho (numberedTwist 0) 57]
    ((runner.rows inputs).map BenchmarkRow.sequence).count 0 = 1 ∧
    ((runner.rows inputs).map BenchmarkRow.sequence).count 1 = 0 ∧
    (Machine.final LatencyRunner.handle runner inputs).done = false := by
  refine ⟨?_, ?_⟩
  · have hinit : LatencyRunner.init ⟨PyStr.ofString "app_sig", 1⟩ (PyStr.ofString "5f1c2a7b9d30") =
        .ok (.start .appSig 1 (PyStr.ofString "5f1c2a7b9d30")) := rfl
    obtain ⟨-, -, -, -, -, -, hdone, -⟩ := benchmark_bookkeeping hinit
      [.verifyEvent .demo, .tick 0, .verifyEvent .demo, .verifyEvent .demo, .tick 1]
    exact hdone.2 rfl
  · intro runner inputs
    have hinit : LatencyRunner.init ⟨PyStr.ofString "plain", 2⟩ (PyStr.ofString "5f1c2a7b9d30") =
        .ok runner := rfl
    obtain ⟨-, -, -, hcounts, -, -, hdone, -⟩ := benchmark_bookkeeping hinit inputs
    have hanswered : 0 ∉ (Machine.final LatencyRunner.handle runner inputs).sentPerfNs := by decide
    have houtstanding : ¬ 1 ∉ (Machine.final LatencyRunner.handle runner inputs).sentPerfNs := by decide
    refine ⟨?_, ?_, ?_⟩
    · exact ((hcounts 0 (by decide)).resolve_left (not_and_of_not_left _ hanswered)).2
    · exact ((hcounts 1 (by decide)).resolve_right (not_and_of_not_left _ houtstanding)).2
    · have hshort : (runner.rows inputs).length ≠
          (Machine.final LatencyRunner.handle runner inputs).count := by decide
      exact Bool.eq_false_iff.2 fun h => hshort (hdone.1 h)

end PqcSecureComm
