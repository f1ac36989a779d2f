import PqcSecureComm.BenchmarkRun
import PqcSecureComm.Replies

set_option autoImplicit false

/-! # What a benchmark waits for

The loop of `main` has no time limit: it waits until every number has its row, so that it completes iff
every number is replied to (`benchmark_completes_iff`). An `app_sig` run in which only messages of its own
signer are answered completes only if nothing was lost, and then its rows are about the commands they are
labelled with (`ended_run_faithful`). -/

namespace PqcSecureComm

/-! ## The loop -/

/-- No callback of the run raises. -/
def LatencyRunner.Quiet (self : LatencyRunner) (inputs : List BenchInput) : Prop :=
  Machine.Throughout (fun before input =>
    ((Machine.final LatencyRunner.handle self before).handle input).2.outcome = .ok ()) inputs

/-- A callback that raises does not end the benchmark. -/
theorem LatencyRunner.done_of_error {self : LatencyRunner} {input : BenchInput} {exc : PyError}
    (h : (self.handle input).2.outcome = .error exc) : (self.handle input).1.done = self.done := by
  have hsteps := self.steps input
  generalize self.handle input = result at hsteps h ⊢
  cases hsteps with
  | idle outcome hnone hopen => rfl
  | publish perfNs x htick hcount hx => exact absurd h (by simp)
  | record sequence row hanswer hopen => exact absurd h (by simp)
  | late sequence row hanswer hclosed => rfl

/-- The loop ends with all rows iff it comes to an end of the run where the runner is done, without an
    exception on the way. -/
theorem BenchmarkProcess.spin_done_iff (self : BenchmarkProcess) (turns : List (Option BenchInput)) :
    (self.spin turns).1.runner.done = true ↔ ∃ inputs, inputs <+: turns.reduceOption ∧
      self.runner.Quiet inputs ∧ (Machine.final LatencyRunner.handle self.runner inputs).done = true := by
  induction turns generalizing self with
  | nil =>
      refine ⟨fun hdone => ⟨[], List.nil_prefix, Machine.throughout_nil, hdone⟩, ?_⟩
      rintro ⟨inputs, hprefix, -, hdone⟩
      obtain rfl := List.prefix_nil.1 hprefix
      exact hdone
  | cons turn turns ih =>
      by_cases hdone : self.runner.done = true
      · rw [BenchmarkProcess.spin_of_done hdone]
        exact iff_of_true hdone ⟨[], List.nil_prefix, Machine.throughout_nil, hdone⟩
      · cases turn with
        | none =>
            rw [List.reduceOption_cons_of_none, BenchmarkProcess.spin_none hdone]
            exact ih self
        | some input =>
            rw [List.reduceOption_cons_of_some]
            -- a run up to a runner that is done begins with this input
            have hfirst : ∀ inputs, inputs <+: input :: turns.reduceOption →
                (Machine.final LatencyRunner.handle self.runner inputs).done = true →
                ∃ rest, inputs = input :: rest ∧ rest <+: turns.reduceOption := by
              intro inputs hprefix hend
              cases inputs with
              | nil => exact absurd hend hdone
              | cons first rest =>
                  obtain ⟨rfl, hrest⟩ := List.cons_prefix_cons.1 hprefix
                  exact ⟨rest, rfl, hrest⟩
            cases houtcome : (self.handle input).2.outcome with
            | error exc =>
                rw [BenchmarkProcess.spin_of_error hdone houtcome]
                refine iff_of_false ?_ ?_
                · show ¬ (self.runner.handle input).1.done = true
                  rwa [LatencyRunner.done_of_error houtcome]
                · rintro ⟨inputs, hprefix, hquiet, hend⟩
                  obtain ⟨rest, rfl, -⟩ := hfirst inputs hprefix hend
                  have hok := (Machine.throughout_cons.1 hquiet).1
                  exact absurd (houtcome.symm.trans hok) (by simp)
            | ok =>
                rw [BenchmarkProcess.spin_of_ok hdone houtcome, ih]
                refine ⟨?_, ?_⟩
                · rintro ⟨rest, hprefix, hquiet, hend⟩
                  exact ⟨input :: rest, List.cons_prefix_cons.2 ⟨rfl, hprefix⟩,
                    Machine.throughout_cons.2 ⟨houtcome, hquiet⟩, hend⟩
                · rintro ⟨inputs, hprefix, hquiet, hend⟩
                  obtain ⟨rest, rfl, hrest⟩ := hfirst inputs hprefix hend
                  exact ⟨rest, hrest, (Machine.throughout_cons.1 hquiet).2, hend⟩

theorem LatencyRunner.quiet_start_iff {mode : BenchMode} {count : ℤ} {runId : PyStr}
    (hcount : count < 2 ^ 63) (inputs : List BenchInput) :
    (LatencyRunner.start mode count runId).Quiet inputs ↔ (mode = .plain →
      ∀ msg perfNs, .plainEcho msg perfNs ∈ inputs → ∃ n, pyInt msg.linear.x = .ok n) := by
  have hraise : ∀ before input exc,
      ((Machine.final LatencyRunner.handle (.start mode count runId) before).handle input).2.outcome =
        .error exc ↔ mode = .plain ∧ ∃ msg perfNs, input = .plainEcho msg perfNs ∧
          pyInt msg.linear.x = .error exc := by
    intro before input exc
    have h : Replied (.start mode count runId) _ before := replied_final hcount before
    have hlt := LatencyRunner.count_start_lt mode hcount runId
    have hiff := h.books.outcome_eq_error (h.count ▸ hlt) input exc
    rwa [h.mode] at hiff
  refine ⟨?_, ?_⟩
  · intro hquiet hmode msg perfNs hmem
    obtain ⟨before, after, hsplit⟩ := List.append_of_mem hmem
    have hok := hquiet before _ after hsplit
    cases hx : pyInt msg.linear.x with
    | ok n => exact ⟨n, rfl⟩
    | error exc =>
        have herror := (hraise before _ exc).2 ⟨hmode, msg, perfNs, rfl, hx⟩
        exact absurd (herror.symm.trans hok) (by simp)
  · intro hfinite before input after hsplit
    cases houtcome : ((Machine.final LatencyRunner.handle (.start mode count runId) before).handle
        input).2.outcome with
    | ok => rfl
    | error exc =>
        obtain ⟨hmode, msg, perfNs, rfl, hx⟩ := (hraise before input exc).1 houtcome
        obtain ⟨n, hn⟩ := hfinite hmode msg perfNs (by simp [hsplit])
        exact absurd (hx.symm.trans hn) (by simp)

/-- **When a benchmark completes**: `main` ends with all rows iff each number is replied to after its
    command was sent, before an echo comes in that is no number; and then it ends normally. -/
theorem benchmark_completes_iff {params : LatencyRunnerParams} {runId : PyStr} {self : BenchmarkProcess}
    (hinit : BenchmarkProcess.init params runId = .ok self) (hcount : params.count < 2 ^ 63)
    (turns : List (Option BenchInput)) :
    ((self.main turns).1.runner.done = true ↔ ∃ inputs, inputs <+: turns.reduceOption ∧
      (∀ sequence < self.runner.count, RepliedTo self.runner.mode inputs sequence) ∧
      (self.runner.mode = .plain →
        ∀ msg perfNs, .plainEcho msg perfNs ∈ inputs → ∃ n, pyInt msg.linear.x = .ok n)) ∧
    ((self.main turns).1.runner.done = true → (self.main turns).2 = .ok ()) := by
  obtain ⟨runner, hrunner, hself⟩ := Fallible.bind_eq_ok.1 hinit
  obtain rfl := Fallible.pure_eq_ok.1 hself
  obtain ⟨mode, rfl⟩ := LatencyRunner.init_eq_ok hrunner
  have hmain : ((BenchmarkProcess.mk (.start mode params.count runId) .init).main turns).1.runner =
      ((BenchmarkProcess.mk (.start mode params.count runId) .init).spin turns).1.runner := by
    unfold BenchmarkProcess.main
    simp only
    split <;> rfl
  rw [hmain]
  refine ⟨?_, fun hdone => ?_⟩
  · rw [BenchmarkProcess.spin_done_iff]
    refine exists_congr fun inputs => and_congr_right fun _ => ?_
    rw [and_comm]
    refine and_congr ?_ (LatencyRunner.quiet_start_iff hcount inputs)
    exact (replied_final hcount inputs).done_iff
  · show ((BenchmarkProcess.mk (.start mode params.count runId) .init).spin turns).2 = .ok ()
    cases houtcome : ((BenchmarkProcess.mk (.start mode params.count runId) .init).spin turns).2 with
    | ok => rfl
    | error exc =>
        obtain ⟨before, input, after, rfl, hok, hspinning, hraise⟩ :=
          BenchmarkProcess.spin_eq_error.1 houtcome
        rw [BenchmarkProcess.spin_append, hok] at hdone
        simp only [BenchmarkProcess.spin_of_error hspinning hraise] at hdone
        exact absurd ((LatencyRunner.done_of_error hraise).symm.trans hdone) hspinning

/-- A benchmark of one message, with an event that comes too early. -/
theorem benchmark_completes_demo :
    ((BenchmarkProcess.demo .appSig).main
      [some (.verifyEvent .demo), none, some (.tick 0), some (.verifyEvent .demo)]).2 = .ok () := by
  have hinit : BenchmarkProcess.init ⟨PyStr.ofString "app_sig", 1⟩ (PyStr.ofString "5f1c2a7b9d30") =
      .ok (.demo .appSig) := rfl
  obtain ⟨hdone, hnormal⟩ := benchmark_completes_iff hinit (by decide)
    [some (.verifyEvent .demo), none, some (.tick 0), some (.verifyEvent .demo)]
  refine hnormal (hdone.2 ⟨_, List.prefix_refl _, ?_, fun hmode => absurd hmode (by decide)⟩)
  intro sequence hlt
  obtain rfl : sequence = 0 := Nat.lt_one_iff.1 hlt
  exact ⟨[.verifyEvent .demo, .tick 0], .verifyEvent .demo, [], rfl, by decide, rfl⟩

/-! ## The pipeline -/

/-- Whenever the runner is handed an event of an outstanding number, its message is one the signer
    made. -/
def Pipeline.OwnAnswered {P : Platform} (self : Pipeline P) (actions : List PipelineAction) : Prop :=
  ∀ st ∈ Machine.steps Pipeline.step self actions, ∀ v ∈ st.pre.answered? st.input,
    v.delivery.msg ∈ st.pre.signed.map Prod.snd

instance {P : Platform} (self : Pipeline P) (actions : List PipelineAction) :
    Decidable (self.OwnAnswered actions) :=
  inferInstanceAs (Decidable (∀ st ∈ _, ∀ v ∈ _, _ ∈ _))

/-- The runner only got replies to what the signer has signed. -/
structure Pipeline.InvOwn {P : Platform} (pipe : Pipeline P) : Prop extends pipe.Inv where
  answered : ∀ n < pipe.runner.published, n ∉ pipe.runner.sentPerfNs → n < pipe.signed.length

namespace Pipeline

variable {P : Platform}

theorem OwnAnswered.of_append {self : Pipeline P} {actions later : List PipelineAction}
    (h : self.OwnAnswered (actions ++ later)) : self.OwnAnswered actions := by
  intro st hst
  refine h st ?_
  rw [Machine.steps_append]
  exact List.mem_append_left _ hst

/-- What was signed stays signed. -/
theorem signed_prefix_step (self : Pipeline P) (action : PipelineAction) :
    self.signed <+: (self.step action).1.signed := by
  cases action with
  | sign env =>
      show self.signed <+: (self.sign env).signed
      unfold Pipeline.sign
      split
      · exact List.prefix_refl _
      · exact List.prefix_append _ _
  | record i =>
      show self.signed <+: (self.record i).1.signed
      unfold Pipeline.record
      split <;> exact List.prefix_refl _
  | _ => exact List.prefix_refl _

theorem signed_prefix_final (self : Pipeline P) (actions : List PipelineAction) :
    self.signed <+: (Machine.final Pipeline.step self actions).signed := by
  induction actions generalizing self with
  | nil => exact List.prefix_refl _
  | cons action actions ih => exact (self.signed_prefix_step action).trans (ih (self.step action).1)

theorem signed_prefix_of_mem_steps {self : Pipeline P} {actions : List PipelineAction}
    {st : Machine.Step (Pipeline P) PipelineAction (List (RowReport P))}
    (h : st ∈ Machine.steps Pipeline.step self actions) :
    st.pre.signed <+: (Machine.final Pipeline.step self actions).signed := by
  obtain ⟨before, action, after, rfl, rfl⟩ := (Machine.mem_steps_iff Pipeline.step).1 h
  rw [Machine.final_append]
  exact signed_prefix_final _ (action :: after)

/-- A number that was published and is neither signed nor on its way never is again. -/
theorem lost_step {self : Pipeline P} {n : ℕ} (action : PipelineAction)
    (h : n < self.runner.published ∧ n ∉ self.numbers) :
    n < (self.step action).1.runner.published ∧ n ∉ (self.step action).1.numbers := by
  obtain ⟨hpublished, hlost⟩ := h
  have hsub : ∀ {signed : List (ℕ × SignedTwist)} {raw : List (ℕ × Twist)},
      (signed.map Prod.fst ++ raw.map Prod.fst).Sublist self.numbers →
        n ∉ signed.map Prod.fst ++ raw.map Prod.fst :=
    fun hsublist hmem => hlost (hsublist.subset hmem)
  cases action with
  | tick perfNs =>
      show n < (self.tick perfNs).runner.published ∧ n ∉ (self.tick perfNs).numbers
      unfold Pipeline.tick Pipeline.numbers
      simp only
      rcases self.runner.handle_tick perfNs with ⟨hrunner, htwists⟩ | ⟨x, hx, hrunner, htwists⟩
      · rw [hrunner, htwists, List.map_nil, List.append_nil]
        exact ⟨hpublished, hlost⟩
      · rw [hrunner, htwists, List.map_singleton, List.map_append, ← List.append_assoc, List.mem_append]
        refine ⟨Nat.lt_succ_of_lt hpublished, ?_⟩
        rintro (hold | hnew)
        · exact hlost hold
        · exact absurd (List.mem_singleton.1 hnew) (ne_of_lt hpublished)
  | loseRaw i =>
      exact ⟨hpublished, hsub ((List.Sublist.refl _).append ((List.eraseIdx_sublist self.raw i).map _))⟩
  | sign env =>
      show n < (self.sign env).runner.published ∧ n ∉ (self.sign env).numbers
      unfold Pipeline.sign
      cases hraw : self.raw with
      | nil => exact ⟨hpublished, hlost⟩
      | cons nm rest =>
          obtain ⟨number, msg⟩ := nm
          refine ⟨hpublished, ?_⟩
          have hnumbers : self.numbers = self.signed.map Prod.fst ++ (number :: rest.map Prod.fst) := by
            unfold Pipeline.numbers
            rw [hraw]
            rfl
          refine hsub ?_
          rw [hnumbers, List.map_append, List.append_assoc]
          refine (List.Sublist.refl _).append ?_
          rcases self.signer.handle_published P ⟨msg, env⟩ with
            ⟨hsigner, hnone⟩ | ⟨event, signedMsg, hevent, hcarries, hsequence, hsigner, hone⟩
          · rw [hnone]
            exact List.sublist_cons_self _ _
          · rw [hone]
            exact List.Sublist.refl _
  | verify d => exact ⟨hpublished, hlost⟩
  | record i =>
      show n < (self.record i).1.runner.published ∧ n ∉ (self.record i).1.numbers
      unfold Pipeline.record
      split
      · exact ⟨hpublished, hlost⟩
      · refine ⟨?_, hlost⟩
        rw [LatencyRunner.published_verifyEvent]
        exact hpublished

theorem invOwn_start (P : Platform) (count : ℤ) (runId : PyStr) (params : SignerParams)
    (verifier : VerifierNode) : (Pipeline.start P count runId params verifier).InvOwn where
  toInv := Pipeline.inv_start P count runId params verifier
  answered n hn := absurd hn (Nat.not_lt_zero n)

/-- An own message was made from a command that is at least as far down the stream as its sequence. -/
theorem Inv.sequence_lt {self : Pipeline P} (h : self.Inv) {v : Verification P}
    (hown : v.delivery.msg ∈ self.signed.map Prod.snd) :
    v.event.sequence.toNat < self.signed.length := by
  obtain ⟨⟨m, msg⟩, hm, rfl⟩ := List.mem_map.1 hown
  obtain ⟨hlt, -⟩ := h.position hm
  have hsequence : v.event.sequence = v.delivery.msg.sequence := v.reports.sequence
  rw [List.length_map, ← hsequence] at hlt
  exact hlt

theorem InvOwn.record {self : Pipeline P} (h : self.InvOwn) {i : ℕ} {v : Verification P}
    (hevent : self.events[i]? = some v)
    (hown : v.event.sequence.toNat ∈ self.runner.sentPerfNs →
      v.delivery.msg ∈ self.signed.map Prod.snd) :
    (self.record i).1.InvOwn := by
  refine ⟨h.toInv.record i, ?_⟩
  obtain ⟨rows, hbooks⟩ := h.books
  have hreply : ∀ perfNs, BenchInput.verifyEvent v.event ≠ .tick perfNs := by simp
  have hstep := hbooks.handle_reply hreply
  rw [Pipeline.record_of_some hevent]
  cases hanswer : self.runner.answer? (.verifyEvent v.event) with
  | none =>
      rw [hanswer] at hstep
      simp only at hstep
      rw [hstep.1]
      exact h.answered
  | some answer =>
      obtain ⟨k, row⟩ := answer
      rw [hanswer] at hstep
      simp only at hstep
      rw [hstep]
      have hnumber : v.event.sequence.toNat = k := by
        have hnumber := (hbooks.answer?_eq_some_iff.1 hanswer).1
        rw [h.mode] at hnumber
        exact Option.some.inj hnumber
      intro n hn hnone
      by_cases hnk : n = k
      · have hmem := hown (hnumber ▸ (LatencyRunner.of_answer? hanswer).1)
        rw [hnk, ← hnumber]
        exact h.toInv.sequence_lt hmem
      · refine h.answered n hn fun hout => hnone ?_
        exact Finmap.mem_erase.2 ⟨hnk, hout⟩

theorem InvOwn.step {self : Pipeline P} (h : self.InvOwn) (action : PipelineAction)
    (hown : ∀ v ∈ self.answered? action, v.delivery.msg ∈ self.signed.map Prod.snd) :
    (self.step action).1.InvOwn := by
  have hinv := h.toInv.step action
  cases action with
  | tick perfNs =>
      refine ⟨hinv, ?_⟩
      show ∀ n < (self.tick perfNs).runner.published, n ∉ (self.tick perfNs).runner.sentPerfNs →
        n < self.signed.length
      unfold Pipeline.tick
      simp only
      rcases self.runner.handle_tick perfNs with ⟨hrunner, -⟩ | ⟨x, hx, hrunner, -⟩
      · rw [hrunner]
        exact h.answered
      · rw [hrunner]
        intro n hn hnone
        have hmem : ∀ s, s ∈ self.runner.sentPerfNs.insert self.runner.published perfNs ↔
            s = self.runner.published ∨ s ∈ self.runner.sentPerfNs := fun s => Finmap.mem_insert
        have hnot := fun hin => hnone ((hmem n).2 hin)
        have hlt : n < self.runner.published + 1 := hn
        have hne : n ≠ self.runner.published := fun heq => hnot (Or.inl heq)
        exact h.answered n (by omega) fun hout => hnot (Or.inr hout)
  | loseRaw i => exact ⟨hinv, h.answered⟩
  | sign env =>
      refine ⟨hinv, ?_⟩
      have hlength := (self.signed_prefix_step (.sign env)).length_le
      have hrunner : (self.step (.sign env)).1.runner = self.runner := by
        show (self.sign env).runner = self.runner
        unfold Pipeline.sign
        split <;> rfl
      rw [hrunner]
      exact fun n hn hnone => lt_of_lt_of_le (h.answered n hn hnone) hlength
  | verify d => exact ⟨hinv, h.answered⟩
  | record i =>
      cases hevent : self.events[i]? with
      | none =>
          show (self.record i).1.InvOwn
          rw [Pipeline.record_of_none hevent]
          exact h
      | some v =>
          refine h.record hevent fun hout => hown v ?_
          rw [Pipeline.answered?_record, hevent]
          simp [hout]

theorem OwnAnswered.invOwn {self : Pipeline P} (hself : self.InvOwn) {actions : List PipelineAction}
    (h : self.OwnAnswered actions) : (Machine.final Pipeline.step self actions).InvOwn := by
  induction actions generalizing self with
  | nil => exact hself
  | cons action actions ih =>
      refine ih (hself.step action fun v => h _ List.mem_cons_self v) fun st hst => ?_
      exact h st (List.mem_cons_of_mem _ hst)

/-- When the runner is done, all commands were signed, in order. -/
theorem InvOwn.all_signed {self : Pipeline P} (h : self.InvOwn) (hdone : self.runner.done = true) :
    self.signed.map Prod.fst = List.range self.runner.count ∧ self.raw = [] := by
  obtain ⟨rows, hbooks⟩ := h.books
  obtain ⟨hpublished, hnone⟩ := hbooks.done_iff_answered.1 hdone
  have hlength : self.runner.count ≤ self.signed.length := by
    have hpos := self.runner.count_pos
    have hlast := h.answered (self.runner.count - 1) (by omega) (hnone _)
    omega
  have hnumbers : self.numbers = List.range self.runner.count := by
    refine Renumbering.eq_range h.increasing (hpublished ▸ h.published) ?_
    unfold Pipeline.numbers
    rw [List.length_append, List.length_map]
    omega
  have htotal := congrArg List.length hnumbers
  unfold Pipeline.numbers at hnumbers htotal
  rw [List.length_append, List.length_map, List.length_map, List.length_range] at htotal
  have hraw : self.raw = [] := List.eq_nil_of_length_eq_zero (by omega)
  rw [hraw, List.map_nil, List.append_nil] at hnumbers
  exact ⟨hnumbers, hraw⟩

end Pipeline

/-- **A benchmark that ends measured what it says**, as long as only messages of its own signer are
    answered: it ends only if all commands were signed, and then every row is about the command it is
    labelled with. Once a command is lost or dropped, the runner waits forever. -/
theorem ended_run_faithful (P : Platform) (count : ℤ) (runId : PyStr) (params : SignerParams)
    (verifier : VerifierNode) (actions : List PipelineAction) :
    let start := Pipeline.start P count runId params verifier
    let pipe := Machine.final Pipeline.step start actions
    (pipe.runner.done = true → (start.RowsFaithful actions ↔ start.OwnAnswered actions)) ∧
    (pipe.runner.done = true → start.OwnAnswered actions →
      pipe.signed.map Prod.fst = List.range pipe.runner.count ∧ pipe.raw = []) ∧
    ∀ n < pipe.runner.published, n ∉ pipe.numbers → ∀ later, start.OwnAnswered (actions ++ later) →
      (Machine.final Pipeline.step start (actions ++ later)).runner.done = false := by
  intro start pipe
  have hstart : start.InvOwn := Pipeline.invOwn_start P count runId params verifier
  refine ⟨fun hdone => ?_, fun hdone hown => (hown.invOwn hstart).all_signed hdone, ?_⟩
  · have hrows : ∀ st ∈ Machine.steps Pipeline.step start actions,
        (∀ report ∈ st.output, report.Faithful st.pre.signed) ↔ ∀ v, st.pre.answered? st.input = some v →
          (v.delivery.msg.sequence.toNat, v.delivery.msg) ∈ st.pre.signed := by
      intro st hst
      obtain ⟨hinv, houtput⟩ := Pipeline.inv_of_mem_steps hst
      rw [houtput, hinv.forall_output_iff]
      exact forall₂_congr fun v _ => hinv.faithful_iff st.pre.runner v
    refine ⟨fun hfaithful st hst v hv => ?_, fun hown => ?_⟩
    · exact List.mem_map_of_mem ((hrows st hst).1 (hfaithful st hst) v hv)
    · have hend := hown.invOwn hstart
      intro st hst
      refine (hrows st hst).2 fun v hv => ?_
      obtain ⟨⟨m, msg⟩, hm, hmsg⟩ := List.mem_map.1 (hown st hst v hv)
      -- at the end, the message is at the position of its sequence, where its command stands too
      obtain ⟨hlt, hget⟩ := hend.toInv.position ((Pipeline.signed_prefix_of_mem_steps hst).subset hm)
      have hrange : m = msg.sequence.toNat := by
        rw [← hget]
        simp only [(hend.all_signed hdone).1, List.getElem_range]
      rw [← hmsg]
      rwa [hrange] at hm
  · intro n hpublished hlost later hown
    rw [Bool.eq_false_iff]
    intro hdone
    have hend := hown.invOwn hstart
    have hstill := Machine.final_invariant Pipeline.step (Q := fun _ => True)
      (P := fun s => n < s.runner.published ∧ n ∉ s.numbers)
      (fun s action _ hs => Pipeline.lost_step action hs) (fun _ (_ : _ ∈ later) => trivial)
      ⟨hpublished, hlost⟩
    rw [← Machine.final_append] at hstill
    obtain ⟨hbelow, hgone⟩ := hstill
    obtain ⟨rows, hbooks⟩ := hend.books
    refine hgone ?_
    unfold Pipeline.numbers
    rw [(hend.all_signed hdone).1, (hend.all_signed hdone).2, List.map_nil, List.append_nil,
      List.mem_range, ← (hbooks.done_iff_answered.1 hdone).1]
    exact hbelow

/-- The run of two commands that loses none. -/
def losslessActions (digest : Bytes) : List PipelineAction :=
  [.tick 0, .sign (.quiet 5000000000), .tick 50000000, .sign (.quiet 5000000000),
    .verify ⟨{ SignedTwist.bench 0x3ff0000000000000 digest with sequence := 1 }, .quiet 5000001000⟩,
    .verify ⟨.bench 0 digest, .quiet 5000002000⟩, .record 0, .record 0, .record 1]

/-- It ends, and its rows are right; the run that lost its first command does not. -/
theorem ended_run_faithful_demo :
    (Pipeline.demo lossyDigest).RowsFaithful (losslessActions lossyDigest) ∧
      (Machine.final Pipeline.step (Pipeline.demo lossyDigest)
        (lossyActions ++ [.record 0])).runner.done = false := by
  refine ⟨?_, ?_⟩
  · have hdone : (Machine.final Pipeline.step (Pipeline.demo lossyDigest)
        (losslessActions lossyDigest)).runner.done = true := by rfl
    have hown : (Pipeline.demo lossyDigest).OwnAnswered (losslessActions lossyDigest) := by decide
    exact ((ended_run_faithful _ _ _ _ _ _).1 hdone).2 hown
  · have hlost : (Machine.final Pipeline.step (Pipeline.demo lossyDigest) lossyActions).numbers = [1] := by
      rfl
    have hpublished :
        (Machine.final Pipeline.step (Pipeline.demo lossyDigest) lossyActions).runner.published = 2 := by
      rfl
    have hown : (Pipeline.demo lossyDigest).OwnAnswered (lossyActions ++ [.record 0]) := by decide
    refine (ended_run_faithful _ _ _ _ _ lossyActions).2.2 0 ?_ ?_ _ hown
    · exact lt_of_lt_of_eq Nat.zero_lt_two hpublished.symm
    · intro hmem
      have hin : 0 ∈ [1] := hlost ▸ hmem
      exact absurd hin (by decide)

end PqcSecureComm
