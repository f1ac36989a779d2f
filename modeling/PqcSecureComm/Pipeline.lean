import PqcSecureComm.Lib.Renumbering
import PqcSecureComm.Accounting
import PqcSecureComm.LatencyRunner
import PqcSecureComm.Signer

set_option autoImplicit false

/-! # The benchmark pipeline

The `app_sig` run: `LatencyRunner` to `SignerNode` to `VerifierNode` and back. Raw commands may be lost
and the signer may drop some; the network hands the verifier any message at all, in any order; the runner
meets the events in any order. The runner numbers what it publishes, the signer numbers what it gets to
sign, and the runner takes the one number for the other: its rows are about the commands they are labelled
with exactly as long as nothing in front of a command was lost and no other message is answered
(`rowsFaithful_iff`). -/

namespace PqcSecureComm

/-! ## The system -/

/-- A callback of the verifier that published an event: the state before it, the message it took and the
    event. -/
structure Verification (P : Platform) where
  node : VerifierNode
  delivery : Delivery
  event : VerificationEvent
  published : event ∈ eventsOf (node.handle P delivery).2

/-- The three nodes and what is between them. A raw command carries the number the runner gave it, and a
    signed message the number of the command it was made from; nobody sees these numbers. -/
structure Pipeline (P : Platform) where
  runner : LatencyRunner
  signer : SignerNode
  verifier : VerifierNode
  raw : List (ℕ × Twist)
  signed : List (ℕ × SignedTwist)
  events : List (Verification P)

inductive PipelineAction
  | tick (perfNs : ℤ)
  /-- a raw command is lost -/
  | loseRaw (i : ℕ)
  /-- the callback of the signer on the oldest raw command -/
  | sign (env : SignerEnv)
  /-- the network hands the verifier a message, its own or somebody else's -/
  | verify (d : Delivery)
  /-- an event reaches the runner -/
  | record (i : ℕ)

/-- A row of the CSV file and the verification whose event it was written for. -/
structure RowReport (P : Platform) where
  verification : Verification P
  row : BenchmarkRow

/-- The commands a callback of the runner published. -/
def twistsOf (r : Callback.Reaction BenchOutput PyError) : List Twist :=
  r.published.filterMap fun
    | .twist msg => some msg
    | .row _ => none

namespace Pipeline

variable {P : Platform}

def tick (self : Pipeline P) (perfNs : ℤ) : Pipeline P :=
  let result := self.runner.handle (.tick perfNs)
  { self with
    runner := result.1
    raw := self.raw ++ (twistsOf result.2).map fun msg => (self.runner.published, msg) }

/-- The signer takes the oldest raw command; if there is none, nothing happens. -/
def sign (self : Pipeline P) (env : SignerEnv) : Pipeline P :=
  match self.raw with
  | [] => self
  | (number, msg) :: rest =>
    let result := self.signer.handle P ⟨msg, env⟩
    { self with
      raw := rest
      signer := result.1
      signed := self.signed ++ (publishedOf result.2).map fun signedMsg => (number, signedMsg) }

def verify (self : Pipeline P) (d : Delivery) : Pipeline P :=
  let result := self.verifier.handle P d
  { self with
    verifier := result.1
    events := self.events ++ (eventsOf result.2).attach.map fun event =>
      ⟨self.verifier, d, event.1, event.2⟩ }

/-- The runner takes one of the events. -/
def record (self : Pipeline P) (i : ℕ) : Pipeline P × List (RowReport P) :=
  match self.events[i]? with
  | none => (self, [])
  | some verification =>
    let result := self.runner.handle (.verifyEvent verification.event)
    ({ self with runner := result.1 }, (rowsOf result.2).map fun row => ⟨verification, row⟩)

theorem record_of_none {self : Pipeline P} {i : ℕ} (h : self.events[i]? = none) :
    self.record i = (self, []) := by
  unfold Pipeline.record
  rw [h]

theorem record_of_some {self : Pipeline P} {i : ℕ} {v : Verification P}
    (h : self.events[i]? = some v) :
    self.record i = ({ self with runner := (self.runner.handle (.verifyEvent v.event)).1 },
      (rowsOf (self.runner.handle (.verifyEvent v.event)).2).map fun row => ⟨v, row⟩) := by
  unfold Pipeline.record
  rw [h]

def step (self : Pipeline P) : PipelineAction → Pipeline P × List (RowReport P)
  | .tick perfNs => (self.tick perfNs, [])
  | .loseRaw i => ({ self with raw := self.raw.eraseIdx i }, [])
  | .sign env => (self.sign env, [])
  | .verify d => (self.verify d, [])
  | .record i => self.record i

end Pipeline

/-- The pipeline before anything happened: the runner and the signer have just been started. -/
def Pipeline.start (P : Platform) (count : ℤ) (runId : PyStr) (params : SignerParams)
    (verifier : VerifierNode) : Pipeline P where
  runner := .start .appSig count runId
  signer := SignerNode.init P params
  verifier := verifier
  raw := []
  signed := []
  events := []

/-- All rows of a run, in the order of the CSV file. -/
def Pipeline.reports {P : Platform} (self : Pipeline P) (actions : List PipelineAction) :
    List (RowReport P) :=
  Machine.trace Pipeline.step self actions

/-! ## What a row should be about -/

/-- The row has the values of the event. -/
structure BenchmarkRow.Reports (row : BenchmarkRow) (event : VerificationEvent) : Prop where
  sequence : row.sequence = event.sequence.toNat
  verifyNs : row.verifyNs = event.verifyNs.toNat
  ageNs : row.ageNs = event.ageNs.toNat
  e2eNs : row.e2eNs = if event.ok then (event.ageNs.toNat : ℤ) else 0
  resultCode : row.resultCode = event.resultCode.toNat

/-- The row reports the verification of the command it is labelled with: the message was made from the
    command with the number of the row, whose `linear.x` is that number. -/
def RowReport.Faithful {P : Platform} (signed : List (ℕ × SignedTwist)) (report : RowReport P) : Prop :=
  report.row.Reports report.verification.event ∧
    ∃ (n : ℕ) (x : UInt64), report.row.sequence = n ∧
      (n, report.verification.delivery.msg) ∈ signed ∧ pyFloat n = .ok x ∧
      report.verification.delivery.msg.command = numberedTwist x

/-- Every row of the run is about the command it is labelled with. -/
def Pipeline.RowsFaithful {P : Platform} (self : Pipeline P) (actions : List PipelineAction) : Prop :=
  ∀ st ∈ Machine.steps Pipeline.step self actions, ∀ report ∈ st.output, report.Faithful st.pre.signed

/-- The verification a step hands the runner, if its number is outstanding. -/
def Pipeline.answered? {P : Platform} (self : Pipeline P) : PipelineAction → Option (Verification P)
  | .record i => self.events[i]?.filter fun v => v.event.sequence.toNat ∈ self.runner.sentPerfNs
  | _ => none

theorem Pipeline.answered?_record {P : Platform} (self : Pipeline P) (i : ℕ) :
    self.answered? (.record i) =
      self.events[i]?.filter fun v => v.event.sequence.toNat ∈ self.runner.sentPerfNs := rfl

/-- Whenever the runner is handed an event of an outstanding number, the message is one the signer made
    from a command, and it has signed all commands before that one. -/
def Pipeline.Aligned {P : Platform} (self : Pipeline P) (actions : List PipelineAction) : Prop :=
  ∀ st ∈ Machine.steps Pipeline.step self actions, ∀ v, st.pre.answered? st.input = some v →
    ∃ m, (m, v.delivery.msg) ∈ st.pre.signed ∧ ∀ j < m, ∃ msg, (j, msg) ∈ st.pre.signed

/-! ## One callback of the runner -/

/-- A tick publishes the next number or nothing. -/
theorem LatencyRunner.handle_tick (self : LatencyRunner) (perfNs : ℤ) :
    ((self.handle (.tick perfNs)).1 = self ∧ twistsOf (self.handle (.tick perfNs)).2 = []) ∨
    ∃ x, pyFloat self.published = .ok x ∧ (self.handle (.tick perfNs)).1 = self.countPublished perfNs ∧
      twistsOf (self.handle (.tick perfNs)).2 = [numberedTwist x] := by
  have hsteps := self.steps (.tick perfNs)
  generalize self.handle (.tick perfNs) = result at hsteps ⊢
  cases hsteps with
  | idle outcome hnone hopen => exact Or.inl ⟨rfl, rfl⟩
  | publish perfNs' x htick hcount hx =>
      obtain rfl := BenchInput.tick.inj htick
      exact Or.inr ⟨x, hx, rfl, rfl⟩
  | record sequence row hanswer hopen => exact absurd hanswer (by simp [LatencyRunner.answer?])
  | late sequence row hanswer hclosed => exact absurd hanswer (by simp [LatencyRunner.answer?])

/-- An event publishes nothing new. -/
theorem LatencyRunner.published_verifyEvent (self : LatencyRunner) (event : VerificationEvent) :
    (self.handle (.verifyEvent event)).1.published = self.published := by
  have hsteps := self.steps (.verifyEvent event)
  generalize self.handle (.verifyEvent event) = result at hsteps ⊢
  cases hsteps with
  | publish perfNs x htick hcount hx => exact absurd htick (by simp)
  | _ => rfl

/-- An event gets a row iff its number is outstanding. -/
theorem LatencyRunner.rowsOf_verifyEvent {self : LatencyRunner} (hmode : self.mode = .appSig)
    {rows : List BenchmarkRow} (hbooks : self.Bookkeeping rows) (event : VerificationEvent) :
    rowsOf (self.handle (.verifyEvent event)).2 =
      if event.sequence.toNat ∈ self.sentPerfNs then [self.eventRow event] else [] := by
  have hnone : event.sequence.toNat ∉ self.sentPerfNs → self.answer? (.verifyEvent event) = none := by
    intro hout
    simp [LatencyRunner.answer?, hmode, Finmap.lookup_eq_none.2 hout]
  have hsome : event.sequence.toNat ∈ self.sentPerfNs →
      self.answer? (.verifyEvent event) = some (event.sequence.toNat, self.eventRow event) := by
    intro hout
    obtain ⟨sentNs, hsent⟩ := Finmap.mem_iff.1 hout
    simp [LatencyRunner.answer?, hmode, hsent]
  have hsteps := self.steps (.verifyEvent event)
  generalize self.handle (.verifyEvent event) = result at hsteps ⊢
  cases hsteps with
  | idle outcome hidle hopen =>
      rw [if_neg fun hout => absurd (hidle.symm.trans (hsome hout)) (by simp)]
      rfl
  | publish perfNs x htick hcount hx => exact absurd htick (by simp)
  | record sequence row hanswer hopen =>
      by_cases hout : event.sequence.toNat ∈ self.sentPerfNs
      · rw [if_pos hout]
        obtain ⟨-, rfl⟩ := Prod.mk.inj (Option.some.inj ((hsome hout).symm.trans hanswer))
        rfl
      · exact absurd ((hnone hout).symm.trans hanswer) (by simp)
  | late sequence row hanswer hclosed =>
      rw [hbooks.isOpen (LatencyRunner.of_answer? hanswer).1] at hclosed
      exact absurd hclosed (by simp)

theorem LatencyRunner.eventRow_reports (self : LatencyRunner) (event : VerificationEvent) :
    (self.eventRow event).Reports event := by
  refine ⟨rfl, rfl, rfl, ?_, rfl⟩
  cases hok : event.ok with
  | true => simp [LatencyRunner.eventRow, hok]
  | false => simp [LatencyRunner.eventRow, hok]

/-! ## The invariant -/

/-- The raw command with this number. -/
def Numbered (n : ℕ) (msg : Twist) : Prop := ∃ x, pyFloat n = .ok x ∧ msg = numberedTwist x

/-- The numbers of the commands that were signed and of those that still can be, in order. -/
def Pipeline.numbers {P : Platform} (self : Pipeline P) : List ℕ :=
  self.signed.map Prod.fst ++ self.raw.map Prod.fst

/-- What holds between the two numberings in every run. -/
structure Pipeline.Inv {P : Platform} (pipe : Pipeline P) : Prop where
  books : ∃ rows, pipe.runner.Bookkeeping rows
  mode : pipe.runner.mode = .appSig
  increasing : pipe.numbers.Pairwise (· < ·)
  published : ∀ n ∈ pipe.numbers, n < pipe.runner.published
  rawCommands : ∀ nm ∈ pipe.raw, Numbered nm.1 nm.2
  signedCommands : ∀ nm ∈ pipe.signed, Numbered nm.1 nm.2.command
  counter : pipe.signer.sequence = pipe.signed.length
  positions : pipe.signed.map (fun nm => nm.2.sequence.toNat) = List.range pipe.signed.length

namespace Pipeline

variable {P : Platform}

theorem inv_start (P : Platform) (count : ℤ) (runId : PyStr) (params : SignerParams)
    (verifier : VerifierNode) : (Pipeline.start P count runId params verifier).Inv where
  books := ⟨[], LatencyRunner.bookkeeping_start .appSig count runId⟩
  mode := rfl
  increasing := List.Pairwise.nil
  published _ hn := absurd hn List.not_mem_nil
  rawCommands _ hnm := absurd hnm List.not_mem_nil
  signedCommands _ hnm := absurd hnm List.not_mem_nil
  counter := rfl
  positions := rfl

theorem Inv.tick {self : Pipeline P} (h : self.Inv) (perfNs : ℤ) : (self.tick perfNs).Inv := by
  obtain ⟨rows, hbooks⟩ := h.books
  have hbooks' := hbooks.handle (.tick perfNs)
  have hmode := (self.runner.mode_handle (.tick perfNs)).trans h.mode
  unfold Pipeline.tick
  simp only
  rcases self.runner.handle_tick perfNs with ⟨hrunner, htwists⟩ | ⟨x, hx, hrunner, htwists⟩
  · rw [hrunner, htwists, List.map_nil, List.append_nil]
    exact h
  · rw [htwists, List.map_singleton]
    have hpublished : (self.runner.handle (.tick perfNs)).1.published = self.runner.published + 1 := by
      rw [hrunner]
      rfl
    have hnumbers : ∀ raw, raw = self.raw ++ [(self.runner.published, numberedTwist x)] →
        self.signed.map Prod.fst ++ raw.map Prod.fst = self.numbers ++ [self.runner.published] := by
      rintro raw rfl
      rw [List.map_append, ← List.append_assoc]
      rfl
    exact {
      books := ⟨_, hbooks'⟩
      mode := hmode
      increasing := by
        unfold Pipeline.numbers
        rw [hnumbers _ rfl, List.pairwise_append]
        refine ⟨h.increasing, List.pairwise_singleton _ _, ?_⟩
        intro n hn n' hn'
        rw [List.mem_singleton.1 hn']
        exact h.published n hn
      published := by
        intro n hn
        unfold Pipeline.numbers at hn
        rw [hnumbers _ rfl] at hn
        rw [hpublished]
        rcases List.mem_append.1 hn with hold | hnew
        · exact Nat.lt_succ_of_lt (h.published n hold)
        · rw [List.mem_singleton.1 hnew]
          exact Nat.lt_succ_self _
      rawCommands := by
        intro nm hnm
        rcases List.mem_append.1 hnm with hold | hnew
        · exact h.rawCommands nm hold
        · rw [List.mem_singleton.1 hnew]
          exact ⟨x, hx, rfl⟩
      signedCommands := h.signedCommands
      counter := h.counter
      positions := h.positions }

/-- Losing raw commands leaves gaps and nothing else. -/
theorem Inv.loseRaw {self : Pipeline P} (h : self.Inv) {raw : List (ℕ × Twist)}
    (hraw : raw.Sublist self.raw) : Inv { self with raw := raw } := by
  have hnumbers : (self.signed.map Prod.fst ++ raw.map Prod.fst).Sublist self.numbers :=
    (List.Sublist.refl _).append (hraw.map Prod.fst)
  exact {
    books := h.books
    mode := h.mode
    increasing := h.increasing.sublist hnumbers
    published := fun n hn => h.published n (hnumbers.subset hn)
    rawCommands := fun nm hnm => h.rawCommands nm (hraw.subset hnm)
    signedCommands := h.signedCommands
    counter := h.counter
    positions := h.positions }

theorem Inv.sign {self : Pipeline P} (h : self.Inv) (env : SignerEnv) : (self.sign env).Inv := by
  unfold Pipeline.sign
  cases hraw : self.raw with
  | nil => exact h
  | cons nm rest =>
      obtain ⟨number, msg⟩ := nm
      have hrest : rest.Sublist self.raw := hraw ▸ List.sublist_cons_self _ _
      simp only
      rcases self.signer.handle_published P ⟨msg, env⟩ with
        ⟨hsigner, hnone⟩ | ⟨event, signedMsg, hevent, hcarries, hsequence, hsigner, hone⟩
      · -- dropped by the signer
        rw [hsigner, hnone, List.map_nil, List.append_nil]
        exact h.loseRaw hrest
      · -- signed: the number moves over
        rw [hsigner, hone, List.map_singleton]
        have hnumbers : ∀ signed, signed = self.signed ++ [(number, signedMsg)] →
            signed.map Prod.fst ++ rest.map Prod.fst = self.numbers := by
          rintro signed rfl
          unfold Pipeline.numbers
          rw [hraw, List.map_append, List.append_assoc]
          rfl
        exact {
          books := h.books
          mode := h.mode
          increasing := by
            unfold Pipeline.numbers
            rw [hnumbers _ rfl]
            exact h.increasing
          published := by
            unfold Pipeline.numbers
            rw [hnumbers _ rfl]
            exact h.published
          rawCommands := fun nm hnm => h.rawCommands nm (hrest.subset hnm)
          signedCommands := by
            intro nm hnm
            rcases List.mem_append.1 hnm with hold | hnew
            · exact h.signedCommands nm hold
            · rw [List.mem_singleton.1 hnew]
              have hcommand : signedMsg.command = msg := hcarries.command.trans hevent.command
              have hnumbered : Numbered number msg :=
                h.rawCommands (number, msg) (hraw ▸ List.mem_cons_self)
              show Numbered number signedMsg.command
              rw [hcommand]
              exact hnumbered
          counter := by
            rw [List.length_append, ← h.counter]
            rfl
          positions := by
            rw [List.map_append, h.positions, List.length_append, List.length_singleton,
              List.range_succ, List.map_singleton, hsequence, h.counter] }

theorem Inv.record {self : Pipeline P} (h : self.Inv) (i : ℕ) : (self.record i).1.Inv := by
  cases hevent : self.events[i]? with
  | none =>
      rw [record_of_none hevent]
      exact h
  | some v =>
      obtain ⟨rows, hbooks⟩ := h.books
      rw [record_of_some hevent]
      exact {
        books := ⟨_, hbooks.handle (.verifyEvent v.event)⟩
        mode := (self.runner.mode_handle (.verifyEvent v.event)).trans h.mode
        increasing := h.increasing
        published := by
          intro n hn
          show n < (self.runner.handle (.verifyEvent v.event)).1.published
          rw [self.runner.published_verifyEvent v.event]
          exact h.published n hn
        rawCommands := h.rawCommands
        signedCommands := h.signedCommands
        counter := h.counter
        positions := h.positions }

theorem Inv.step {self : Pipeline P} (h : self.Inv) (action : PipelineAction) :
    (self.step action).1.Inv := by
  cases action with
  | tick perfNs => exact h.tick perfNs
  | loseRaw i => exact h.loseRaw (List.eraseIdx_sublist self.raw i)
  | sign env => exact h.sign env
  | verify d =>
      exact ⟨h.books, h.mode, h.increasing, h.published, h.rawCommands, h.signedCommands, h.counter,
        h.positions⟩
  | record i => exact h.record i

/-! ## The two numberings -/

/-- A signed message has its position as its sequence. -/
theorem Inv.position {self : Pipeline P} (h : self.Inv) {m : ℕ} {msg : SignedTwist}
    (hmem : (m, msg) ∈ self.signed) :
    ∃ hk : msg.sequence.toNat < (self.signed.map Prod.fst).length,
      (self.signed.map Prod.fst)[msg.sequence.toNat] = m := by
  obtain ⟨k, hk, hget⟩ := List.getElem_of_mem hmem
  have hposition : (self.signed.map fun nm => nm.2.sequence.toNat)[k]? = some k := by
    rw [h.positions, List.getElem?_range hk]
  rw [List.getElem?_map, List.getElem?_eq_getElem hk, hget, Option.map_some, Option.some.injEq]
    at hposition
  simp only [hposition]
  refine ⟨by simpa using hk, ?_⟩
  rw [List.getElem_map, hget]

/-- The message with its own sequence as the number of its command, in terms of what was signed. -/
theorem Inv.own_iff {self : Pipeline P} (h : self.Inv) (msg : SignedTwist) :
    (msg.sequence.toNat, msg) ∈ self.signed ↔
      ∃ m, (m, msg) ∈ self.signed ∧ ∀ j < m, ∃ msg', (j, msg') ∈ self.signed := by
  have hincreasing : (self.signed.map Prod.fst).Pairwise (· < ·) := (List.pairwise_append.1 h.increasing).1
  have hmem : ∀ {j : ℕ}, j ∈ self.signed.map Prod.fst ↔ ∃ msg', (j, msg') ∈ self.signed := by
    intro j
    simp
  refine ⟨?_, ?_⟩
  · intro hown
    obtain ⟨hk, hget⟩ := h.position hown
    have hbelow := (Renumbering.getElem_eq_iff hincreasing hk).1 hget
    refine ⟨msg.sequence.toNat, hown, fun j hj => hmem.1 (hbelow j ?_)⟩
    rwa [hget]
  · rintro ⟨m, hm, hbelow⟩
    obtain ⟨hk, hget⟩ := h.position hm
    have hequal := (Renumbering.getElem_eq_iff hincreasing hk).2 fun j hj =>
      hmem.2 (hbelow j (by rwa [hget] at hj))
    rw [hget] at hequal
    rwa [hequal] at hm

end Pipeline

/-! ## Rows -/

theorem Verification.makeEvent_eq {P : Platform} (v : Verification P) :
    v.delivery.makeEvent (v.node.judge P v.delivery).code (v.node.judge P v.delivery).reason =
      .ok v.event := by
  have hpublished := v.published
  rw [VerifierNode.handle_eq, eventsOf_report] at hpublished
  cases hevent : v.delivery.makeEvent (v.node.judge P v.delivery).code
      (v.node.judge P v.delivery).reason with
  | error exc =>
      rw [hevent] at hpublished
      exact absurd hpublished List.not_mem_nil
  | ok event =>
      rw [hevent] at hpublished
      rw [List.mem_singleton.1 hpublished]

theorem Verification.reports {P : Platform} (v : Verification P) : v.event.Reports v.delivery :=
  Delivery.reports_of_makeEvent v.makeEvent_eq

/-- A step writes a row for the verification it hands the runner, if the number is outstanding. -/
theorem Pipeline.Inv.mem_output_iff {P : Platform} {self : Pipeline P} (h : self.Inv)
    {action : PipelineAction} {report : RowReport P} :
    report ∈ (self.step action).2 ↔
      ∃ v, self.answered? action = some v ∧ report = ⟨v, self.runner.eventRow v.event⟩ := by
  cases action with
  | record i =>
      obtain ⟨rows, hbooks⟩ := h.books
      show report ∈ (self.record i).2 ↔ _
      cases hevent : self.events[i]? with
      | none =>
          have hanswered : self.answered? (.record i) = none := by
            rw [Pipeline.answered?_record, hevent]
            rfl
          rw [Pipeline.record_of_none hevent, hanswered]
          simp
      | some v =>
          rw [Pipeline.record_of_some hevent, LatencyRunner.rowsOf_verifyEvent h.mode hbooks]
          by_cases hout : v.event.sequence.toNat ∈ self.runner.sentPerfNs
          · have hanswered : self.answered? (.record i) = some v := by
              rw [Pipeline.answered?_record, hevent]
              simp [hout]
            rw [if_pos hout, hanswered, List.map_singleton, List.mem_singleton]
            simp
          · have hanswered : self.answered? (.record i) = none := by
              rw [Pipeline.answered?_record, hevent]
              simp [hout]
            rw [if_neg hout, hanswered]
            simp
  | _ => exact iff_of_false List.not_mem_nil (by simp [Pipeline.answered?])

/-- What a step reports, in terms of what it hands the runner. -/
theorem Pipeline.Inv.forall_output_iff {P : Platform} {self : Pipeline P} (h : self.Inv)
    (action : PipelineAction) (Q : RowReport P → Prop) :
    (∀ report ∈ (self.step action).2, Q report) ↔
      ∀ v, self.answered? action = some v → Q ⟨v, self.runner.eventRow v.event⟩ := by
  refine ⟨fun hall v hanswered => hall _ (h.mem_output_iff.2 ⟨v, hanswered, rfl⟩), ?_⟩
  intro hall report hreport
  obtain ⟨v, hanswered, rfl⟩ := h.mem_output_iff.1 hreport
  exact hall v hanswered

/-- Every step of a run starts in a state of the invariant. -/
theorem Pipeline.inv_of_mem_steps {P : Platform} {count : ℤ} {runId : PyStr} {params : SignerParams}
    {verifier : VerifierNode} {actions : List PipelineAction}
    {st : Machine.Step (Pipeline P) PipelineAction (List (RowReport P))}
    (h : st ∈ Machine.steps Pipeline.step (Pipeline.start P count runId params verifier) actions) :
    st.pre.Inv ∧ st.output = (st.pre.step st.input).2 :=
  Machine.of_mem_steps Pipeline.step (fun _ action hinv => hinv.step action)
    (Pipeline.inv_start P count runId params verifier) h

/-- The row of a verification is about its command iff the two numbers of the message agree. -/
theorem Pipeline.Inv.faithful_iff {P : Platform} {self : Pipeline P} (h : self.Inv)
    (runner : LatencyRunner) (v : Verification P) :
    (RowReport.mk v (runner.eventRow v.event)).Faithful self.signed ↔
      (v.delivery.msg.sequence.toNat, v.delivery.msg) ∈ self.signed := by
  have hsequence : (runner.eventRow v.event).sequence = v.delivery.msg.sequence.toNat := by
    rw [← v.reports.sequence]
    rfl
  refine ⟨?_, ?_⟩
  · rintro ⟨-, n, x, hn, hmem, -, -⟩
    obtain rfl : n = v.delivery.msg.sequence.toNat := by exact_mod_cast hn.symm.trans hsequence
    exact hmem
  · intro hmem
    obtain ⟨x, hx, hcommand⟩ := h.signedCommands _ hmem
    exact ⟨runner.eventRow_reports v.event, _, x, hsequence, hmem, hx, hcommand⟩

/-- **When the rows are about the commands they are labelled with**: in every run of the pipeline, iff
    whenever the runner is handed an event of an outstanding number, the message of the event was made by
    the signer from a command, and no command in front of that one was lost or dropped. -/
theorem rowsFaithful_iff (P : Platform) (count : ℤ) (runId : PyStr) (params : SignerParams)
    (verifier : VerifierNode) (actions : List PipelineAction) :
    (Pipeline.start P count runId params verifier).RowsFaithful actions ↔
      (Pipeline.start P count runId params verifier).Aligned actions := by
  refine forall₂_congr fun st hst => ?_
  obtain ⟨hinv, houtput⟩ := Pipeline.inv_of_mem_steps hst
  rw [houtput, hinv.forall_output_iff]
  refine forall₂_congr fun v _ => ?_
  exact (hinv.faithful_iff st.pre.runner v).trans (hinv.own_iff v.delivery.msg)

/-! ## A lost command -/

/-- The demo platform, with SHA-256 on the one message that is signed. -/
def Platform.bench (digest : Bytes) : Platform := { Platform.demo with sha256 _ := digest }

/-- The first message of the demo signer, made from a numbered command. -/
def SignedTwist.bench (x : UInt64) (digest : Bytes) : SignedTwist :=
  { SignedTwist.demo with
    command := numberedTwist x
    payloadDigest := digest
    signature := 1 :: digest }

/-- The pipeline of the demo nodes. -/
def Pipeline.demo (digest : Bytes) : Pipeline (.bench digest) :=
  .start (.bench digest) 2 (PyStr.ofString "5f1c2a7b9d30") .demo .demo

/-- SHA-256 of the canonical bytes of the first message, if it is made from command `1`. -/
def lossyDigest : Bytes :=
  [98, 207, 88, 193, 47, 182, 8, 160, 150, 242, 33, 248, 118, 48, 50, 13, 103, 44, 149, 229, 213, 25,
    230, 147, 99, 44, 43, 14, 170, 176, 228, 206]

def SignedTwist.lossy : SignedTwist := .bench 0x3ff0000000000000 lossyDigest

/-- Both commands are published, and the first one never reaches the signer. -/
def lossyActions : List PipelineAction :=
  [.tick 0, .tick 50000000, .loseRaw 0, .sign (.quiet 5000000000),
    .verify ⟨.lossy, .quiet 5000001000⟩, .record 0]

/-- **A shift by one.** Command `0` is lost, command `1` is signed with sequence `0`, verified and
    accepted, and its row is labelled `0`. -/
theorem rowsShifted_demo :
    ((Pipeline.demo lossyDigest).reports lossyActions).map (fun report =>
        (report.row.sequence, report.row.resultCode, report.verification.delivery.msg.command)) =
      [(0, 0, numberedTwist 0x3ff0000000000000)] ∧
    ¬ (Pipeline.demo lossyDigest).RowsFaithful lossyActions := by
  refine ⟨by rfl, ?_⟩
  intro hfaithful
  -- the last step, with what was signed before it and what it reports
  have hrun : ([(1, SignedTwist.lossy)], [((0 : ℤ), SignedTwist.lossy)]) ∈
      (Machine.steps Pipeline.step (Pipeline.demo lossyDigest) lossyActions).map fun st =>
        (st.pre.signed, st.output.map fun report =>
          (report.row.sequence, report.verification.delivery.msg)) := by
    have hlast : ((Machine.steps Pipeline.step (Pipeline.demo lossyDigest) lossyActions).map fun st =>
        (st.pre.signed, st.output.map fun report =>
          (report.row.sequence, report.verification.delivery.msg)))[5]? =
        some ([(1, SignedTwist.lossy)], [((0 : ℤ), SignedTwist.lossy)]) := by rfl
    exact List.mem_of_getElem? hlast
  obtain ⟨st, hst, heq⟩ := List.mem_map.1 hrun
  obtain ⟨hsigned, houtput⟩ := Prod.mk.inj heq
  have hreported : ((0 : ℤ), SignedTwist.lossy) ∈ st.output.map fun report =>
      (report.row.sequence, report.verification.delivery.msg) := by
    rw [houtput]
    exact List.mem_singleton_self _
  obtain ⟨report, hreport, hvalues⟩ := List.mem_map.1 hreported
  obtain ⟨hsequence, hmsg⟩ := Prod.mk.inj hvalues
  obtain ⟨-, n, x, hn, hmem, -⟩ := hfaithful st hst report hreport
  obtain rfl : n = 0 := by exact_mod_cast hn.symm.trans hsequence
  rw [hsigned, List.mem_singleton] at hmem
  exact absurd (Prod.mk.inj hmem).1 (by decide)

end PqcSecureComm
