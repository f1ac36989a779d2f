import PqcSecureComm.BenchmarkCsv

set_option autoImplicit false

/-! # A whole benchmark

`main` spins the runner until it is done, `rclpy` shuts down or a callback raises, and closes the file in
any case. What is in the file then, and what is in it if the process is killed between two callbacks, can
always be read back and summarised (`benchmark_file`). -/

namespace PqcSecureComm

/-! ## The source -/

/-- The process: the node, and the `BenchmarkCsvWriter` it owns. -/
structure BenchmarkProcess where
  runner : LatencyRunner
  writer : BenchmarkCsvWriter

/-- `LatencyRunner.__init__` opens the file once the mode is known to be one. -/
def BenchmarkProcess.init (params : LatencyRunnerParams) (runId : PyStr) :
    Except PyError BenchmarkProcess := do
  let runner ← LatencyRunner.init params runId
  pure ⟨runner, .init⟩

/-- One callback, with what it does to the file. -/
def BenchmarkProcess.handle (self : BenchmarkProcess) (input : BenchInput) :
    BenchmarkProcess × Callback.Reaction BenchOutput PyError :=
  let (runner, reaction) := self.runner.handle input
  let writer := (rowsOf reaction).foldl BenchmarkCsvWriter.writeRow self.writer
  (⟨runner, if runner.closed then writer.close else writer⟩, reaction)

/-- The loop of `main`. The turns are those `rclpy.ok()` lets begin; in each `spin_once` runs a callback
    or times out. -/
def BenchmarkProcess.spin : BenchmarkProcess → List (Option BenchInput) →
    BenchmarkProcess × Except PyError Unit
  | self, [] => (self, .ok ())
  | self, turn :: turns =>
    if self.runner.done then (self, .ok ())
    else
      match turn with
      | none => self.spin turns
      | some input =>
        match (self.handle input).2.outcome with
        | .error exc => ((self.handle input).1, .error exc)
        | .ok () => (self.handle input).1.spin turns

/-- `main`: the loop and its `finally`. -/
def BenchmarkProcess.main (self : BenchmarkProcess) (turns : List (Option BenchInput)) :
    BenchmarkProcess × Except PyError Unit :=
  let (self, outcome) := self.spin turns
  (if self.runner.done then self else { self with writer := self.writer.close }, outcome)

section Spin

variable {self : BenchmarkProcess} {input : BenchInput} {turns : List (Option BenchInput)}

theorem BenchmarkProcess.spin_of_done (h : self.runner.done = true) :
    self.spin turns = (self, .ok ()) := by
  cases turns with
  | nil => rfl
  | cons turn turns =>
      rw [BenchmarkProcess.spin.eq_def]
      exact if_pos h

theorem BenchmarkProcess.spin_none (h : ¬ self.runner.done = true) :
    self.spin (none :: turns) = self.spin turns := by
  rw [BenchmarkProcess.spin.eq_def]
  exact if_neg h

theorem BenchmarkProcess.spin_of_error (h : ¬ self.runner.done = true) {exc : PyError}
    (hraise : (self.handle input).2.outcome = .error exc) :
    self.spin (some input :: turns) = ((self.handle input).1, .error exc) := by
  rw [BenchmarkProcess.spin.eq_def]
  simp only [if_neg h]
  rw [hraise]

theorem BenchmarkProcess.spin_of_ok (h : ¬ self.runner.done = true)
    (hok : (self.handle input).2.outcome = .ok ()) :
    self.spin (some input :: turns) = (self.handle input).1.spin turns := by
  rw [BenchmarkProcess.spin.eq_def]
  simp only [if_neg h]
  rw [hok]

end Spin

/-! ## The file of a run -/

/-- The clock of an input fits into 64 bits, as `time.perf_counter_ns` does. -/
def BenchInput.ClockFits : BenchInput → Prop
  | .tick perfNs => -2 ^ 63 ≤ perfNs ∧ perfNs < 2 ^ 63
  | .plainEcho _ perfNs => -2 ^ 63 ≤ perfNs ∧ perfNs < 2 ^ 63
  | .verifyEvent _ => True

/-- The outstanding numbers are doubles, and the clock readings kept for them fit into 64 bits. -/
structure LatencyRunner.Fits (runner : LatencyRunner) : Prop where
  runId : IsRunId runner.runId
  sent : ∀ s sentNs, runner.sentPerfNs.lookup s = some sentNs →
    s.log2 < 1025 ∧ -2 ^ 63 ≤ sentNs ∧ sentNs < 2 ^ 63

theorem fitsField_of_log2 {n : ℤ} (h : n.natAbs.log2 < maxStrDigits) : FitsField n := by
  unfold FitsField
  by_cases hzero : n.natAbs = 0
  · rw [hzero]
    positivity
  · calc n.natAbs < 2 ^ maxStrDigits := (Nat.log2_lt hzero).1 h
      _ ≤ 10 ^ maxStrDigits := Nat.pow_le_pow_left (by decide) _

theorem fitsField_of_lt {n : ℤ} (h : n.natAbs < 2 ^ 64) : FitsField n := by
  refine fitsField_of_log2 ?_
  by_cases hzero : n.natAbs = 0
  · rw [hzero]
    decide
  · exact lt_trans ((Nat.log2_lt hzero).2 h) (by decide)

theorem fitsField_uint64 (n : UInt64) : FitsField n.toNat :=
  fitsField_of_lt (by have hlt := n.toNat_lt; omega)

/-- The row for an answer. -/
theorem LatencyRunner.Fits.answer {self : LatencyRunner} (h : self.Fits) {input : BenchInput}
    (hclock : input.ClockFits) {sequence : ℕ} {row : BenchmarkRow}
    (hanswer : self.answer? input = some (sequence, row)) : row.Fits := by
  have hzero : FitsField 0 := fitsField_of_lt (by decide)
  unfold LatencyRunner.answer? at hanswer
  cases input with
  | tick perfNs => exact absurd hanswer (by simp)
  | plainEcho msg perfNs =>
      simp only at hanswer
      split at hanswer
      · next n hmode hn =>
          by_cases hrange : n < 0 ∨ n ≥ self.count
          · rw [if_pos hrange] at hanswer
            exact absurd hanswer (by simp)
          · rw [if_neg hrange, Option.map_eq_some_iff] at hanswer
            obtain ⟨sentNs, hsent, heq⟩ := hanswer
            obtain ⟨-, rfl⟩ := Prod.mk.inj heq
            obtain ⟨hlog, hlow, hhigh⟩ := h.sent _ _ hsent
            have hnat : n.natAbs = n.toNat := by omega
            have hsequence : FitsField n := by
              refine fitsField_of_log2 (lt_trans ?_ (by decide : 1025 < maxStrDigits))
              rwa [hnat]
            obtain ⟨hlow', hhigh'⟩ := hclock
            have he2e : FitsField (perfNs - sentNs) := fitsField_of_lt (by omega)
            exact ⟨h.runId, ⟨self.mode, rfl⟩, hsequence, hzero, hzero, hzero, he2e, hzero⟩
      · exact absurd hanswer (by simp)
  | verifyEvent msg =>
      simp only at hanswer
      split at hanswer
      · exact absurd hanswer (by simp)
      · obtain ⟨sentNs, -, heq⟩ := Option.map_eq_some_iff.1 hanswer
        obtain ⟨-, rfl⟩ := Prod.mk.inj heq
        have hcode : FitsField msg.resultCode.toNat :=
          fitsField_of_lt (by have hlt := msg.resultCode.toNat_lt; omega)
        have he2e : FitsField (if msg.ok then (msg.ageNs.toNat : ℤ) else 0) := by
          split
          · exact fitsField_uint64 msg.ageNs
          · exact hzero
        exact ⟨h.runId, ⟨self.mode, rfl⟩, fitsField_uint64 msg.sequence, hzero,
          fitsField_uint64 msg.verifyNs, fitsField_uint64 msg.ageNs, he2e, hcode⟩

/-- A callback keeps the numbers small, and so are those it writes. -/
theorem LatencyRunner.Fits.handle {self : LatencyRunner} (h : self.Fits) {input : BenchInput}
    (hclock : input.ClockFits) :
    (self.handle input).1.Fits ∧ ∀ row ∈ rowsOf (self.handle input).2, row.Fits := by
  have hsteps := self.steps input
  generalize self.handle input = result at hsteps ⊢
  have herase : ∀ key s sentNs, (self.sentPerfNs.erase key).lookup s = some sentNs →
      self.sentPerfNs.lookup s = some sentNs := by
    intro key s sentNs hs
    have hne : s ≠ key := by
      rintro rfl
      rw [Finmap.lookup_erase] at hs
      exact absurd hs (by simp)
    rwa [Finmap.lookup_erase_ne hne] at hs
  cases hsteps with
  | idle outcome hnone hopen => exact ⟨h, fun row hrow => absurd hrow List.not_mem_nil⟩
  | publish perfNs x htick hcount hx =>
      refine ⟨⟨h.runId, ?_⟩, fun row hrow => absurd hrow List.not_mem_nil⟩
      intro s sentNs hs
      subst htick
      by_cases hnew : s = self.published
      · subst hnew
        have hsent : sentNs = perfNs := by
          have hlookup : (self.sentPerfNs.insert self.published perfNs).lookup self.published =
              some sentNs := hs
          rw [Finmap.lookup_insert] at hlookup
          exact (Option.some.inj hlookup).symm
        have hlog : self.published.log2 < 1025 := by
          unfold pyFloat at hx
          split at hx
          · next hdouble => exact Binary64.log2_of_ofNat hdouble
          · exact absurd hx (by simp)
        exact ⟨hlog, hsent ▸ hclock⟩
      · have hlookup : (self.sentPerfNs.insert self.published perfNs).lookup s = some sentNs := hs
        rw [Finmap.lookup_insert_of_ne _ hnew] at hlookup
        exact h.sent s sentNs hlookup
  | record sequence row hanswer hopen =>
      refine ⟨⟨h.runId, fun s sentNs hs => h.sent s sentNs (herase sequence s sentNs hs)⟩, ?_⟩
      intro row' hrow'
      obtain rfl : row' = row := List.mem_singleton.1 hrow'
      exact h.answer hclock hanswer
  | late sequence row hanswer hclosed =>
      refine ⟨⟨h.runId, fun s sentNs hs => h.sent s sentNs (herase sequence s sentNs hs)⟩, ?_⟩
      exact fun row' hrow' => absurd hrow' List.not_mem_nil

/-! ## Runs of the loop -/

/-- The process after the rows were written. -/
structure BenchmarkProcess.Inv (process : BenchmarkProcess) (rows : List BenchmarkRow) : Prop where
  books : process.runner.Bookkeeping rows
  holds : process.writer.Holds rows
  fits : process.runner.Fits
  rowsFit : ∀ row ∈ rows, row.Fits
  flushed : process.runner.done = true → process.writer.buffer = []

theorem BenchmarkProcess.inv_init {params : LatencyRunnerParams} {runId : PyStr}
    {self : BenchmarkProcess} (hinit : BenchmarkProcess.init params runId = .ok self)
    (hrun : IsRunId runId) : self.Inv [] := by
  obtain ⟨runner, hrunner, hself⟩ := Fallible.bind_eq_ok.1 hinit
  obtain rfl := Fallible.pure_eq_ok.1 hself
  obtain ⟨mode, rfl⟩ := LatencyRunner.init_eq_ok hrunner
  refine ⟨LatencyRunner.bookkeeping_start mode params.count runId, BenchmarkCsvWriter.holds_init, ?_,
    fun row hrow => absurd hrow List.not_mem_nil, fun hdone => absurd hdone (by simp [LatencyRunner.start])⟩
  refine ⟨hrun, fun s sentNs hs => ?_⟩
  have hempty : (∅ : Finmap fun _ : ℕ => ℤ).lookup s = some sentNs := hs
  rw [Finmap.lookup_empty] at hempty
  exact absurd hempty (by simp)

/-- **One callback**: the writer follows the runner. -/
theorem BenchmarkProcess.Inv.handle {self : BenchmarkProcess} {rows : List BenchmarkRow}
    (h : self.Inv rows) {input : BenchInput} (hclock : input.ClockFits) :
    (self.handle input).1.Inv (rows ++ rowsOf (self.runner.handle input).2) := by
  obtain ⟨hfits, hrows⟩ := h.fits.handle hclock
  have hbooks := h.books.handle input
  have hholds := h.holds.foldl (rowsOf (self.runner.handle input).2)
  unfold BenchmarkProcess.handle
  refine ⟨hbooks, ?_, hfits, ?_, ?_⟩
  · show BenchmarkCsvWriter.Holds (if (self.runner.handle input).1.closed then _ else _) _
    split
    · exact hholds.close.1
    · exact hholds
  · intro row hrow
    rcases List.mem_append.1 hrow with hold | hnew
    · exact h.rowsFit row hold
    · exact hrows row hnew
  · intro hdone
    have hclosed : (self.runner.handle input).1.closed = true := hbooks.closed_eq.trans hdone
    show (if (self.runner.handle input).1.closed then _ else _ : BenchmarkCsvWriter).buffer = []
    rw [if_pos hclosed]
    rfl

theorem BenchmarkProcess.Inv.final {self : BenchmarkProcess} {rows : List BenchmarkRow}
    (h : self.Inv rows) (inputs : List BenchInput) (hclock : ∀ input ∈ inputs, input.ClockFits) :
    (Machine.final BenchmarkProcess.handle self inputs).Inv (rows ++ self.runner.rows inputs) := by
  induction inputs generalizing self rows with
  | nil => rwa [LatencyRunner.rows, Machine.outputs_nil, List.flatMap_nil, List.append_nil]
  | cons input inputs ih =>
      have hrest := ih (h.handle (hclock input List.mem_cons_self))
        fun input' hinput' => hclock input' (List.mem_cons_of_mem input hinput')
      have hsplit : self.runner.rows (input :: inputs) =
          rowsOf (self.runner.handle input).2 ++ (self.runner.handle input).1.rows inputs :=
        List.flatMap_cons
      rw [hsplit, ← List.append_assoc]
      exact hrest

/-- **The loop** hands a prefix of the inputs to the callbacks, and stops before the rest only if the
    runner is done or the callback of the last one raised. -/
theorem BenchmarkProcess.spin_eq_final (self : BenchmarkProcess) (turns : List (Option BenchInput)) :
    ∃ inputs, inputs <+: turns.reduceOption ∧
      (self.spin turns).1 = Machine.final BenchmarkProcess.handle self inputs ∧
      ((self.spin turns).2 = .ok () → (self.spin turns).1.runner.done = true ∨
        inputs = turns.reduceOption) ∧
      ∀ exc, (self.spin turns).2 = .error exc → ∃ before input, inputs = before ++ [input] ∧
        ((Machine.final BenchmarkProcess.handle self before).handle input).2.outcome = .error exc := by
  induction turns generalizing self with
  | nil =>
      refine ⟨[], List.nil_prefix, rfl, fun _ => Or.inr rfl, fun exc herror => ?_⟩
      cases herror
  | cons turn turns ih =>
      by_cases hdone : self.runner.done = true
      · rw [BenchmarkProcess.spin_of_done hdone]
        exact ⟨[], List.nil_prefix, rfl, fun _ => Or.inl hdone, fun exc herror => absurd herror (by simp)⟩
      · cases turn with
        | none =>
            rw [List.reduceOption_cons_of_none, BenchmarkProcess.spin_none hdone]
            exact ih self
        | some input =>
            rw [List.reduceOption_cons_of_some]
            cases houtcome : (self.handle input).2.outcome with
            | error exc =>
                rw [BenchmarkProcess.spin_of_error hdone houtcome]
                refine ⟨[input], List.cons_prefix_cons.2 ⟨rfl, List.nil_prefix⟩, rfl,
                  fun hok => absurd hok (by simp), fun exc' herror => ⟨[], input, rfl, ?_⟩⟩
                exact houtcome.trans herror
            | ok =>
                rw [BenchmarkProcess.spin_of_ok hdone houtcome]
                obtain ⟨inputs, hbegin, hfinal, hstop, hraise⟩ := ih (self.handle input).1
                refine ⟨input :: inputs, List.cons_prefix_cons.2 ⟨rfl, hbegin⟩, hfinal,
                  fun hok => (hstop hok).imp id fun heq => congrArg _ heq, fun exc herror => ?_⟩
                obtain ⟨before, last, rfl, hlast⟩ := hraise exc herror
                exact ⟨input :: before, last, rfl, hlast⟩

/-- The writer does not act on the runner. -/
theorem BenchmarkProcess.runner_final (self : BenchmarkProcess) (inputs : List BenchInput) :
    (Machine.final BenchmarkProcess.handle self inputs).runner =
      Machine.final LatencyRunner.handle self.runner inputs := by
  induction inputs generalizing self with
  | nil => rfl
  | cons input inputs ih =>
      rw [Machine.final_cons, Machine.final_cons, ih]
      rfl

theorem BenchmarkProcess.spin_append (self : BenchmarkProcess) (before after : List (Option BenchInput)) :
    self.spin (before ++ after) =
      match (self.spin before).2 with
      | .ok () => (self.spin before).1.spin after
      | .error _ => self.spin before := by
  induction before generalizing self with
  | nil => rfl
  | cons turn before ih =>
      rw [List.cons_append]
      by_cases hdone : self.runner.done = true
      · simp only [BenchmarkProcess.spin_of_done hdone]
      · cases turn with
        | none => rw [BenchmarkProcess.spin_none hdone, BenchmarkProcess.spin_none hdone, ih]
        | some input =>
            cases houtcome : (self.handle input).2.outcome with
            | error exc => simp only [BenchmarkProcess.spin_of_error hdone houtcome]
            | ok =>
                rw [BenchmarkProcess.spin_of_ok hdone houtcome, BenchmarkProcess.spin_of_ok hdone houtcome,
                  ih]

/-- It raises what the callback of a turn does that the runner was not done before. -/
theorem BenchmarkProcess.spin_eq_error {self : BenchmarkProcess} {turns : List (Option BenchInput)}
    {exc : PyError} :
    (self.spin turns).2 = .error exc ↔ ∃ before input after, turns = before ++ some input :: after ∧
      (self.spin before).2 = .ok () ∧ ¬ (self.spin before).1.runner.done = true ∧
      ((self.spin before).1.handle input).2.outcome = .error exc := by
  refine ⟨?_, ?_⟩
  · induction turns using List.reverseRecOn with
    | nil => exact fun h => absurd h (by simp [BenchmarkProcess.spin])
    | append_singleton turns turn ih =>
        rw [BenchmarkProcess.spin_append]
        cases hturns : (self.spin turns).2 with
        | error exc' =>
            -- it was raised before the last turn
            intro h
            obtain ⟨before, input, after, rfl, hrest⟩ := ih h
            exact ⟨before, input, after ++ [turn], by simp, hrest⟩
        | ok =>
            intro h
            have hspinning : ¬ (self.spin turns).1.runner.done = true := by
              intro hdone
              rw [BenchmarkProcess.spin_of_done hdone] at h
              exact absurd h (by simp)
            cases turn with
            | none =>
                rw [BenchmarkProcess.spin_none hspinning] at h
                exact absurd h (by simp [BenchmarkProcess.spin])
            | some input =>
                refine ⟨turns, input, [], rfl, hturns, hspinning, ?_⟩
                cases houtcome : ((self.spin turns).1.handle input).2.outcome with
                | error exc' =>
                    rw [BenchmarkProcess.spin_of_error hspinning houtcome] at h
                    exact h
                | ok =>
                    rw [BenchmarkProcess.spin_of_ok hspinning houtcome] at h
                    exact absurd h (by simp [BenchmarkProcess.spin])
  · rintro ⟨before, input, after, rfl, hok, hspinning, houtcome⟩
    rw [BenchmarkProcess.spin_append, hok]
    simp only [BenchmarkProcess.spin_of_error hspinning houtcome]

/-- A runner that is done wrote one row for each of its numbers. -/
theorem LatencyRunner.Bookkeeping.perm_range {self : LatencyRunner} {rows : List BenchmarkRow}
    (h : self.Bookkeeping rows) (hdone : self.done = true) :
    (rows.map BenchmarkRow.sequence).Perm ((List.range self.count).map Nat.cast) := by
  have hrecorded := h.done_iff.1 hdone
  rw [h.recorded_eq] at hrecorded
  have hbalance := h.balance
  have hle := h.published_le
  have hnone : self.sentPerfNs.keys.card = 0 := by omega
  have hpublished : self.published = self.count := by omega
  refine (List.perm_ext_iff_of_nodup h.distinct (List.nodup_range.map Nat.cast_injective)).2 fun n => ?_
  rw [List.mem_map, List.mem_map]
  refine ⟨?_, ?_⟩
  · rintro ⟨row, hrow, rfl⟩
    obtain ⟨s, hs, hsequence, -⟩ := h.answered row hrow
    exact ⟨s, List.mem_range.2 (hpublished ▸ hs), hsequence.symm⟩
  · rintro ⟨s, hs, rfl⟩
    rcases h.covered s (hpublished ▸ List.mem_range.1 hs) with hout | hrow
    · have hmem := Finmap.mem_keys.2 hout
      rw [Finset.card_eq_zero.1 hnone] at hmem
      exact absurd hmem (Finset.notMem_empty s)
    · exact List.mem_map.1 hrow

/-- **The file of a benchmark**, whatever the callbacks are handed. At any time it holds every row written
    so far, or nothing if there is none yet, and can be summarised; behind `main` it is complete and
    closed, and is read back row by row. The numbers in it are distinct, were all published, and are all
    numbers of the run if the runner is done. `inputs` are those handed to the callbacks: the loop ends
    early only when the runner is done or a callback raises, and then its input is the last one. -/
theorem benchmark_file {params : LatencyRunnerParams} {runId : PyStr} {self : BenchmarkProcess}
    (hinit : BenchmarkProcess.init params runId = .ok self) (hrun : IsRunId runId)
    {turns : List (Option BenchInput)} (hclock : ∀ input, some input ∈ turns → input.ClockFits) :
    ∃ inputs, inputs <+: turns.reduceOption ∧
      let rows := self.runner.rows inputs
      let killed := (self.spin turns).1
      let finished := (self.main turns).1
      (killed.writer.disk = fileText rows ∨ rows = [] ∧ killed.writer.disk = []) ∧
      summarizeFile killed.writer.disk = .ok (summaryOf rows) ∧
      finished.writer = ⟨fileText rows, []⟩ ∧
      readRows finished.writer.disk = .ok (rows.map BenchmarkRow.dict) ∧
      summarizeFile finished.writer.disk = .ok (summaryOf rows) ∧
      (rows.map BenchmarkRow.sequence).Nodup ∧
      (∀ row ∈ rows, ∃ s < finished.runner.published, row.sequence = s) ∧
      (finished.runner.done = true →
        (rows.map BenchmarkRow.sequence).Perm ((List.range finished.runner.count).map Nat.cast)) ∧
      ((self.main turns).2 = .ok () → finished.runner.done = true ∨ inputs = turns.reduceOption) ∧
      ∀ exc, (self.main turns).2 = .error exc → ∃ before input, inputs = before ++ [input] ∧
        ((Machine.final BenchmarkProcess.handle self before).handle input).2.outcome = .error exc := by
  obtain ⟨inputs, hbegin, hfinal, hstop, hraise⟩ := self.spin_eq_final turns
  have hinv := (BenchmarkProcess.inv_init hinit hrun).final inputs fun input hinput =>
    hclock input (List.reduceOption_mem_iff.1 (hbegin.subset hinput))
  rw [List.nil_append, ← hfinal] at hinv
  refine ⟨inputs, hbegin, ?_⟩
  intro rows killed finished
  have hfinished : finished.writer = ⟨fileText rows, []⟩ ∧ finished.runner = killed.runner := by
    unfold finished BenchmarkProcess.main
    simp only
    split
    · next hdone =>
        refine ⟨?_, rfl⟩
        have htext := hinv.holds.text
        rw [hinv.flushed hdone, List.append_nil] at htext
        show killed.writer = _
        rw [← htext, ← hinv.flushed hdone]
    · exact ⟨congrArg (BenchmarkCsvWriter.mk · []) hinv.holds.text, rfl⟩
  obtain ⟨hwriter, hrunner⟩ := hfinished
  have hdisk := hinv.holds.disk_eq
  have hsummary := (summarizeFile_fileText hinv.rowsFit).1
  have hbooks := hinv.books
  rw [hwriter, hrunner]
  refine ⟨hdisk, ?_, rfl, readRows_fileText hinv.rowsFit, hsummary, hbooks.distinct, ?_, hbooks.perm_range,
    hstop, hraise⟩
  · rcases hdisk with hfull | ⟨hnone, hempty⟩
    · rw [hfull]
      exact hsummary
    · have hrows : rows = [] := hnone
      rw [hempty, hrows]
      exact summarizeFile_nil
  · intro row hrow
    obtain ⟨s, hs, hsequence, -⟩ := hbooks.answered row hrow
    exact ⟨s, hs, hsequence⟩

/-- The process of a benchmark of one message. -/
def BenchmarkProcess.demo (mode : BenchMode) : BenchmarkProcess :=
  ⟨.start mode 1 (PyStr.ofString "5f1c2a7b9d30"), .init⟩

/-- A benchmark of one command, whose event arrives twice. -/
theorem benchmark_file_demo :
    let finished := ((BenchmarkProcess.demo .appSig).main
      [none, some (.tick 0), some (.verifyEvent .demo), some (.verifyEvent .demo)]).1
    ∃ rows, finished.writer = ⟨fileText rows, []⟩ ∧
      summarizeFile finished.writer.disk = .ok (summaryOf rows) ∧
      (rows.map BenchmarkRow.sequence).Perm [0] := by
  have hinit : BenchmarkProcess.init ⟨PyStr.ofString "app_sig", 1⟩ (PyStr.ofString "5f1c2a7b9d30") =
      .ok (.demo .appSig) := rfl
  have hclock : ∀ input, some input ∈
      [none, some (BenchInput.tick 0), some (.verifyEvent .demo), some (.verifyEvent .demo)] →
      input.ClockFits := by
    simp [BenchInput.ClockFits]
  obtain ⟨inputs, -, -, -, hwriter, -, hsummary, -, -, hall, -⟩ :=
    benchmark_file hinit (isRunId_ofString (by simp) (by simp)) hclock
  exact ⟨_, hwriter, hsummary, hall (by decide)⟩

/-! ## What ends a benchmark early -/

/-- The callbacks raise only at an echo whose number is not finite. -/
theorem LatencyRunner.Bookkeeping.outcome_eq_error {self : LatencyRunner} {rows : List BenchmarkRow}
    (h : self.Bookkeeping rows) (hcount : self.count < 2 ^ 63) (input : BenchInput) (exc : PyError) :
    (self.handle input).2.outcome = .error exc ↔
      self.mode = .plain ∧ ∃ msg perfNs, input = .plainEcho msg perfNs ∧
        pyInt msg.linear.x = .error exc := by
  have hrecord : ∀ key sentNs sequence signNs verifyNs ageNs e2eNs resultCode,
      self.sentPerfNs.lookup key = some sentNs →
      (Callback.run (do
        Callback.modifyNode fun self => self.withSent (self.sentPerfNs.erase key)
        LatencyRunner.writeResult sequence signNs verifyNs ageNs e2eNs resultCode) self []).1 =
          .ok () := by
    intro key sentNs sequence signNs verifyNs ageNs e2eNs resultCode hsent
    have hopen := h.isOpen (Finmap.mem_of_lookup_eq_some hsent)
    rw [LatencyRunner.run_record, hopen]
    rfl
  unfold LatencyRunner.handle Callback.react
  cases input with
  | tick perfNs =>
      refine iff_of_false ?_ (by simp)
      unfold LatencyRunner.callback LatencyRunner.publishOne
      simp only [Callback.run_node_bind]
      by_cases hdone : self.published ≥ self.count
      · rw [if_pos hdone]
        simp
      · obtain ⟨x, hx⟩ := exists_pyFloat (show self.published < 2 ^ 64 by omega)
        rw [if_neg hdone, Callback.run_call_bind, hx]
        simp
  | plainEcho msg perfNs =>
      cases hmode : self.mode with
      | appSig => exact iff_of_false (by simp [LatencyRunner.callback]) (by simp)
      | plain =>
          unfold LatencyRunner.callback LatencyRunner.onPlainEcho
          simp only [Callback.run_node_bind, Callback.run_call_bind, true_and]
          cases hx : pyInt msg.linear.x with
          | error exc' =>
              simp only [Except.error.injEq]
              refine ⟨?_, ?_⟩
              · rintro rfl
                exact ⟨msg, perfNs, rfl, hx⟩
              · rintro ⟨msg', perfNs', hinput, hraise⟩
                obtain ⟨rfl, rfl⟩ := BenchInput.plainEcho.inj hinput
                exact Except.error.inj (hx.symm.trans hraise)
          | ok sequence =>
              refine iff_of_false ?_ ?_
              · by_cases hrange : sequence < 0 ∨ sequence ≥ self.count
                · simp [hrange]
                · cases hsent : self.sentPerfNs.lookup sequence.toNat with
                  | none => simp [hrange, hsent]
                  | some sentNs =>
                      have hok := hrecord sequence.toNat sentNs sequence 0 0 0 (perfNs - sentNs) 0 hsent
                      simp only [if_neg hrange, hsent, hok]
                      simp
              · rintro ⟨msg', perfNs', hinput, hraise⟩
                obtain ⟨rfl, rfl⟩ := BenchInput.plainEcho.inj hinput
                rw [hx] at hraise
                exact absurd hraise (by simp)
  | verifyEvent msg =>
      refine iff_of_false ?_ (by simp)
      cases hmode : self.mode with
      | plain => simp [LatencyRunner.callback]
      | appSig =>
          unfold LatencyRunner.callback LatencyRunner.onVerifyEvent
          simp only [Callback.run_node_bind]
          cases hsent : self.sentPerfNs.lookup msg.sequence.toNat with
          | none => simp
          | some sentNs =>
              have hok := hrecord msg.sequence.toNat sentNs msg.sequence.toNat 0 msg.verifyNs.toNat
                msg.ageNs.toNat (if msg.ok then msg.ageNs.toNat else 0) msg.resultCode.toNat hsent
              simp only [hok]
              simp

/-- **Only an echo that is no number ends a benchmark with an exception**, and only in plain mode: the
    first one the loop comes to while the runner is not done. -/
theorem benchmark_raises_iff {params : LatencyRunnerParams} {runId : PyStr} {self : BenchmarkProcess}
    (hinit : BenchmarkProcess.init params runId = .ok self) (hcount : params.count < 2 ^ 63)
    (turns : List (Option BenchInput)) (exc : PyError) :
    (self.main turns).2 = .error exc ↔
      params.mode = BenchMode.plain.text ∧ ∃ before msg perfNs after,
        turns = before ++ some (.plainEcho msg perfNs) :: after ∧
        (self.spin before).2 = .ok () ∧ ¬ (self.spin before).1.runner.done = true ∧
        pyInt msg.linear.x = .error exc := by
  obtain ⟨runner, hrunner, hself⟩ := Fallible.bind_eq_ok.1 hinit
  obtain rfl := Fallible.pure_eq_ok.1 hself
  obtain ⟨mode, hstart⟩ := LatencyRunner.init_eq_ok hrunner
  have hmode : runner.mode = .plain ↔ params.mode = BenchMode.plain.text := by
    unfold LatencyRunner.init at hrunner
    split at hrunner
    · next hplain =>
        obtain rfl := Except.ok.inj hrunner
        exact iff_of_true rfl hplain
    · next hplain =>
        split at hrunner
        · obtain rfl := Except.ok.inj hrunner
          exact iff_of_false (by simp [LatencyRunner.start]) hplain
        · exact absurd hrunner (by simp)
  have hraise : ∀ before input, (((BenchmarkProcess.mk runner .init).spin before).1.handle input).2.outcome =
      .error exc ↔ runner.mode = .plain ∧ ∃ msg perfNs, input = .plainEcho msg perfNs ∧
        pyInt msg.linear.x = .error exc := by
    intro before input
    obtain ⟨inputs, -, hfinal, -, -⟩ := (BenchmarkProcess.mk runner .init).spin_eq_final before
    have hbooks := LatencyRunner.bookkeeping_final mode params.count runId inputs
    have hsame := LatencyRunner.count_final runner inputs
    have hlt : runner.count < 2 ^ 63 := hstart ▸ LatencyRunner.count_start_lt mode hcount runId
    rw [← hstart] at hbooks
    have hiff := hbooks.outcome_eq_error (hsame ▸ hlt) input exc
    rw [LatencyRunner.mode_final] at hiff
    rw [hfinal]
    show ((Machine.final BenchmarkProcess.handle (.mk runner .init) inputs).runner.handle
      input).2.outcome = .error exc ↔ _
    rwa [BenchmarkProcess.runner_final]
  show ((BenchmarkProcess.mk runner .init).spin turns).2 = .error exc ↔ _
  rw [BenchmarkProcess.spin_eq_error, ← hmode]
  refine ⟨?_, ?_⟩
  · rintro ⟨before, input, after, hsplit, hok, hspinning, houtcome⟩
    obtain ⟨hplain, msg, perfNs, rfl, hx⟩ := (hraise before input).1 houtcome
    exact ⟨hplain, before, msg, perfNs, after, hsplit, hok, hspinning, hx⟩
  · rintro ⟨hplain, before, msg, perfNs, after, hsplit, hok, hspinning, hx⟩
    exact ⟨before, _, after, hsplit, hok, hspinning, (hraise before _).2 ⟨hplain, msg, perfNs, rfl, hx⟩⟩

/-- A NaN on the topic of the commands ends a plain benchmark. -/
theorem benchmark_raises_demo :
    ((BenchmarkProcess.demo .plain).main
        [some (.tick 0), some (.plainEcho (numberedTwist 0x7ff8000000000000) 5), none]).2 =
      .error (.mk' .valueError "cannot convert float NaN to integer") := by
  have hinit : BenchmarkProcess.init ⟨PyStr.ofString "plain", 1⟩ (PyStr.ofString "5f1c2a7b9d30") =
      .ok (.demo .plain) := rfl
  exact (benchmark_raises_iff hinit (by decide) _ _).2
    ⟨rfl, [some (.tick 0)], _, 5, [none], rfl, rfl, by decide, rfl⟩

end PqcSecureComm
