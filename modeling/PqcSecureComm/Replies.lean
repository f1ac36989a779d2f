import PqcSecureComm.LatencyRunner

set_option autoImplicit false

/-! # Which replies get a row

A reply to the runner is an echo in plain mode and an event in `app_sig` mode. What else is published on
the topics does not matter: every number that is replied to after its command was sent gets one row, made
of the first such reply (`rows_first_replies`). -/

namespace PqcSecureComm

/-- The clock at the ticks of the timer. -/
def tickTimes (inputs : List BenchInput) : List ℤ :=
  inputs.filterMap fun
    | .tick perfNs => some perfNs
    | _ => none

/-! ## One callback -/

section Callbacks

variable {self : LatencyRunner} {rows : List BenchmarkRow}

theorem LatencyRunner.handle_tick_of_lt (self : LatencyRunner) (hcount : self.published < self.count)
    {x : UInt64} (hx : pyFloat self.published = .ok x) (perfNs : ℤ) :
    self.handle (.tick perfNs) = (self.countPublished perfNs, ⟨.ok (), [.twist (numberedTwist x)]⟩) := by
  unfold LatencyRunner.handle Callback.react LatencyRunner.callback LatencyRunner.publishOne
  simp only [Callback.run_node_bind]
  rw [if_neg (not_le.2 hcount), Callback.run_call_bind, hx]
  rfl

theorem LatencyRunner.handle_tick_of_le (self : LatencyRunner) (hcount : self.count ≤ self.published)
    (perfNs : ℤ) : self.handle (.tick perfNs) = (self, ⟨.ok (), []⟩) := by
  unfold LatencyRunner.handle Callback.react LatencyRunner.callback LatencyRunner.publishOne
  simp only [Callback.run_node_bind, if_pos hcount]
  rfl

/-- An echo or an event writes its row if its number is outstanding, and is ignored otherwise. -/
theorem LatencyRunner.Bookkeeping.handle_reply (h : self.Bookkeeping rows) {input : BenchInput}
    (hreply : ∀ perfNs, input ≠ .tick perfNs) :
    match self.answer? input with
    | none => (self.handle input).1 = self ∧ (self.handle input).2.published = []
    | some (sequence, row) => self.handle input = (self.countRecorded sequence, ⟨.ok (), [.row row]⟩) := by
  have hsteps := self.steps input
  generalize self.handle input = result at hsteps ⊢
  cases hsteps with
  | idle outcome hnone hopen =>
      rw [hnone]
      exact ⟨rfl, rfl⟩
  | publish perfNs x htick hcount hx => exact absurd htick (hreply perfNs)
  | record sequence row hanswer hopen => rw [hanswer]
  | late sequence row hanswer hclosed =>
      rw [h.isOpen (LatencyRunner.of_answer? hanswer).1] at hclosed
      exact absurd hclosed (by simp)

theorem LatencyRunner.answer?_of_mem_rowsOf {self : LatencyRunner} {input : BenchInput}
    {row : BenchmarkRow} (h : row ∈ rowsOf (self.handle input).2) :
    ∃ sequence, self.answer? input = some (sequence, row) := by
  have hsteps := self.steps input
  generalize self.handle input = result at hsteps h
  cases hsteps with
  | idle outcome hnone hopen => exact absurd h List.not_mem_nil
  | publish perfNs x htick hcount hx => exact absurd h List.not_mem_nil
  | record sequence row' hanswer hopen =>
      obtain rfl : row = row' := List.mem_singleton.1 h
      exact ⟨sequence, hanswer⟩
  | late sequence row' hanswer hclosed => exact absurd h List.not_mem_nil

theorem LatencyRunner.published_le_handle (self : LatencyRunner) (input : BenchInput) :
    self.published ≤ (self.handle input).1.published := by
  have hsteps := self.steps input
  generalize self.handle input = result at hsteps ⊢
  cases hsteps with
  | publish perfNs x htick hcount hx => exact Nat.le_succ _
  | _ => exact le_rfl

theorem LatencyRunner.published_le_final (self : LatencyRunner) (inputs more : List BenchInput) :
    (Machine.final LatencyRunner.handle self inputs).published ≤
      (Machine.final LatencyRunner.handle self (inputs ++ more)).published := by
  rw [Machine.final_append]
  exact Machine.final_invariant LatencyRunner.handle (Q := fun _ => True)
    (P := fun s => (Machine.final LatencyRunner.handle self inputs).published ≤ s.published)
    (fun s input _ hs => le_trans hs (s.published_le_handle input)) (fun _ _ => trivial) le_rfl

end Callbacks

/-! ## Replies -/

/-- The number a reply carries, whether the runner waits for it or not. -/
def BenchInput.number? (mode : BenchMode) : BenchInput → Option ℕ
  | .tick _ => none
  | .plainEcho msg _ =>
    match mode, pyInt msg.linear.x with
    | .plain, .ok sequence => if sequence < 0 then none else some sequence.toNat
    | _, _ => none
  | .verifyEvent msg =>
    match mode with
    | .plain => none
    | .appSig => some msg.sequence.toNat

/-- The row a reply to a command that was sent at `sentNs` would get. -/
def LatencyRunner.replyRow? (self : LatencyRunner) (sequence : ℕ) (sentNs : ℤ) :
    BenchInput → Option BenchmarkRow
  | .tick _ => none
  | .plainEcho _ perfNs => some (self.echoRow sequence perfNs sentNs)
  | .verifyEvent msg => some (self.eventRow msg)

/-- A reply to the number came in after its command, that of the tick at this position, had been sent. -/
def RepliedTo (mode : BenchMode) (inputs : List BenchInput) (sequence : ℕ) : Prop :=
  ∃ before input after, inputs = before ++ input :: after ∧
    sequence < (tickTimes before).length ∧ input.number? mode = some sequence

/-- The input, behind these, is the first reply to the number. -/
structure LatencyRunner.FirstReply (start : LatencyRunner) (before : List BenchInput) (input : BenchInput)
    (sequence : ℕ) (row : BenchmarkRow) : Prop where
  lt : sequence < start.count
  number : input.number? start.mode = some sequence
  first : ¬ RepliedTo start.mode before sequence
  row : ∃ sentNs, (tickTimes before)[sequence]? = some sentNs ∧
    start.replyRow? sequence sentNs input = some row

/-- The runner takes an input for a reply iff its number is outstanding. -/
theorem LatencyRunner.Bookkeeping.answer?_eq_some_iff {self : LatencyRunner} {rows : List BenchmarkRow}
    (h : self.Bookkeeping rows) {input : BenchInput} {sequence : ℕ} {row : BenchmarkRow} :
    self.answer? input = some (sequence, row) ↔ input.number? self.mode = some sequence ∧
      ∃ sentNs, self.sentPerfNs.lookup sequence = some sentNs ∧
        self.replyRow? sequence sentNs input = some row := by
  unfold LatencyRunner.answer? BenchInput.number? LatencyRunner.replyRow?
  cases input with
  | tick perfNs => simp
  | verifyEvent msg =>
      cases self.mode with
      | plain => simp
      | appSig =>
          simp only [Option.map_eq_some_iff, Prod.mk.injEq, Option.some.injEq]
          refine ⟨?_, ?_⟩
          · rintro ⟨sentNs, hsent, rfl, rfl⟩
            exact ⟨rfl, sentNs, hsent, rfl⟩
          · rintro ⟨rfl, sentNs, hsent, rfl⟩
            exact ⟨sentNs, hsent, rfl, rfl⟩
  | plainEcho msg perfNs =>
      cases self.mode with
      | appSig => simp
      | plain =>
          cases hint : pyInt msg.linear.x with
          | error exc => simp [hint]
          | ok n =>
              have hcast : 0 ≤ n → ((n.toNat : ℕ) : ℤ) = n := Int.toNat_of_nonneg
              simp only [hint, Option.ite_none_left_eq_some, Option.map_eq_some_iff, Prod.mk.injEq,
                Option.some.injEq]
              refine ⟨?_, ?_⟩
              · rintro ⟨hrange, sentNs, hsent, rfl, rfl⟩
                have hpos : 0 ≤ n := not_lt.1 fun hneg => hrange (Or.inl hneg)
                exact ⟨⟨not_lt.2 hpos, rfl⟩, sentNs, hsent, by rw [hcast hpos]⟩
              · rintro ⟨⟨hpos, rfl⟩, sentNs, hsent, rfl⟩
                have hlt := h.outstanding_lt _ (Finmap.mem_of_lookup_eq_some hsent)
                have hle := h.published_le
                exact ⟨by omega, sentNs, hsent, rfl, by rw [hcast (not_lt.1 hpos)]⟩

theorem LatencyRunner.Bookkeeping.mem_rowsOf_iff {self : LatencyRunner} {rows : List BenchmarkRow}
    (h : self.Bookkeeping rows) {input : BenchInput} {row : BenchmarkRow} :
    row ∈ rowsOf (self.handle input).2 ↔ ∃ sequence, self.answer? input = some (sequence, row) := by
  refine ⟨LatencyRunner.answer?_of_mem_rowsOf, ?_⟩
  rintro ⟨sequence, hanswer⟩
  have hreply : ∀ perfNs, input ≠ .tick perfNs := by
    rintro perfNs rfl
    exact absurd hanswer (by simp [LatencyRunner.answer?])
  have hstep := h.handle_reply hreply
  rw [hanswer] at hstep
  simp only at hstep
  rw [hstep]
  exact List.mem_singleton_self row

/-! ## Runs -/

theorem LatencyRunner.rows_concat (self : LatencyRunner) (inputs : List BenchInput) (input : BenchInput) :
    self.rows (inputs ++ [input]) =
    self.rows inputs ++ rowsOf ((Machine.final LatencyRunner.handle self inputs).handle input).2 := by
  unfold LatencyRunner.rows Machine.outputs
  rw [Machine.steps_append, List.map_append, List.flatMap_append]
  simp

section Append

variable {inputs : List BenchInput}

theorem tickTimes_concat_tick (perfNs : ℤ) :
    tickTimes (inputs ++ [.tick perfNs]) = tickTimes inputs ++ [perfNs] := by
  simp [tickTimes]

theorem tickTimes_concat_plainEcho (msg : Twist) (perfNs : ℤ) :
    tickTimes (inputs ++ [.plainEcho msg perfNs]) = tickTimes inputs := by
  simp [tickTimes]

theorem tickTimes_concat_verifyEvent (msg : VerificationEvent) :
    tickTimes (inputs ++ [.verifyEvent msg]) = tickTimes inputs := by
  simp [tickTimes]

end Append

theorem repliedTo_concat {mode : BenchMode} {inputs : List BenchInput} {input : BenchInput}
    {sequence : ℕ} : RepliedTo mode (inputs ++ [input]) sequence ↔ RepliedTo mode inputs sequence ∨
      sequence < (tickTimes inputs).length ∧ input.number? mode = some sequence :=
  Machine.exists_split_concat

theorem RepliedTo.lt {mode : BenchMode} {inputs : List BenchInput} {sequence : ℕ}
    (h : RepliedTo mode inputs sequence) : sequence < (tickTimes inputs).length := by
  obtain ⟨before, input, after, rfl, hlt, -⟩ := h
  unfold tickTimes at hlt ⊢
  rw [List.filterMap_append, List.length_append]
  omega

/-- What the runner knows after some inputs: it published a number at each tick until all were, it waits
    for those without a reply, and for the others it wrote the row of the first one. -/
structure Replied (start runner : LatencyRunner) (inputs : List BenchInput) : Prop where
  mode : runner.mode = start.mode
  count : runner.count = start.count
  runId : runner.runId = start.runId
  books : runner.Bookkeeping (start.rows inputs)
  published : runner.published = min (tickTimes inputs).length runner.count
  sent : ∀ sequence sentNs, runner.sentPerfNs.lookup sequence = some sentNs ↔
    sequence < start.count ∧ ¬ RepliedTo start.mode inputs sequence ∧
      (tickTimes inputs)[sequence]? = some sentNs
  rows : ∀ row, row ∈ start.rows inputs ↔ ∃ before input after, inputs = before ++ input :: after ∧
    ∃ sequence, start.FirstReply before input sequence row

/-- The runner answers exactly the first replies. -/
theorem Replied.firstReply_iff {start runner : LatencyRunner} {inputs : List BenchInput}
    (h : Replied start runner inputs) {input : BenchInput} {sequence : ℕ} {row : BenchmarkRow} :
    start.FirstReply inputs input sequence row ↔ runner.answer? input = some (sequence, row) := by
  have hrow : ∀ sentNs, runner.replyRow? sequence sentNs input = start.replyRow? sequence sentNs input := by
    intro sentNs
    unfold LatencyRunner.replyRow? LatencyRunner.echoRow LatencyRunner.eventRow
    rw [h.mode, h.runId]
  rw [h.books.answer?_eq_some_iff, h.mode]
  refine ⟨?_, ?_⟩
  · rintro ⟨hlt, hnumber, hfirst, sentNs, hsent, hreply⟩
    exact ⟨hnumber, sentNs, (h.sent _ _).2 ⟨hlt, hfirst, hsent⟩, (hrow sentNs).trans hreply⟩
  · rintro ⟨hnumber, sentNs, hlookup, hreply⟩
    obtain ⟨hlt, hfirst, hsent⟩ := (h.sent _ _).1 hlookup
    exact ⟨hlt, hnumber, hfirst, sentNs, hsent, (hrow sentNs).symm.trans hreply⟩

/-- The rows behind one more input. -/
theorem Replied.rows_concat {start : LatencyRunner} {inputs : List BenchInput}
    (h : Replied start (Machine.final LatencyRunner.handle start inputs) inputs) (input : BenchInput)
    (row : BenchmarkRow) : row ∈ start.rows (inputs ++ [input]) ↔ ∃ before input' after,
      inputs ++ [input] = before ++ input' :: after ∧
        ∃ sequence, start.FirstReply before input' sequence row := by
  rw [LatencyRunner.rows_concat, List.mem_append, h.rows, h.books.mem_rowsOf_iff,
    Machine.exists_split_concat]
  exact or_congr_right (exists_congr fun sequence => h.firstReply_iff.symm)

theorem Replied.tick {start : LatencyRunner} {inputs : List BenchInput}
    (h : Replied start (Machine.final LatencyRunner.handle start inputs) inputs)
    (hfew : (Machine.final LatencyRunner.handle start inputs).published < 2 ^ 64) (perfNs : ℤ) :
    Replied start (Machine.final LatencyRunner.handle start (inputs ++ [.tick perfNs]))
      (inputs ++ [.tick perfNs]) := by
  have hrows := h.rows_concat (.tick perfNs)
  have hbooks := h.books.handle (.tick perfNs)
  rw [← LatencyRunner.rows_concat] at hbooks
  rw [Machine.final_append]
  generalize Machine.final LatencyRunner.handle start inputs = s at h hbooks hfew ⊢
  have hpublished := h.published
  have hsame := h.count
  have hreplied : ∀ n, RepliedTo start.mode (inputs ++ [.tick perfNs]) n ↔
      RepliedTo start.mode inputs n := by
    intro n
    rw [repliedTo_concat, BenchInput.number?]
    simp
  change Replied start (s.handle (.tick perfNs)).1 _
  by_cases hall : s.count ≤ s.published
  · -- everything was published before
    rw [s.handle_tick_of_le hall] at hbooks ⊢
    refine ⟨h.mode, h.count, h.runId, hbooks, ?_, ?_, hrows⟩
    · rw [tickTimes_concat_tick, List.length_append, List.length_singleton]
      show s.published = min _ s.count
      omega
    · intro n sentNs
      rw [h.sent, hreplied, tickTimes_concat_tick]
      refine and_congr_right fun hn => ?_
      rw [List.getElem?_append_left (by omega)]
  · have hlt : s.published < s.count := not_le.1 hall
    have hnew : s.published = (tickTimes inputs).length := by omega
    obtain ⟨x, hx⟩ := exists_pyFloat hfew
    rw [s.handle_tick_of_lt hlt hx] at hbooks ⊢
    refine ⟨h.mode, h.count, h.runId, hbooks, ?_, ?_, hrows⟩
    · rw [tickTimes_concat_tick, List.length_append, List.length_singleton]
      show s.published + 1 = min _ s.count
      omega
    · intro n sentNs
      rw [hreplied, tickTimes_concat_tick]
      show (s.sentPerfNs.insert s.published perfNs).lookup n = some sentNs ↔ _
      by_cases hn : n = s.published
      · -- its command has just been sent
        subst hn
        have hnone : ¬ RepliedTo start.mode inputs s.published := fun hreply => by
          have hreply' := hreply.lt
          omega
        have hlast : (tickTimes inputs ++ [perfNs])[s.published]? = some perfNs := by
          rw [hnew]
          simp
        rw [Finmap.lookup_insert, hlast]
        exact ⟨fun heq => ⟨by omega, hnone, heq⟩, fun hand => hand.2.2⟩
      · rw [Finmap.lookup_insert_of_ne _ hn, h.sent]
        refine and_congr_right fun _ => and_congr_right fun _ => ?_
        by_cases hlt' : n < s.published
        · rw [List.getElem?_append_left (by omega)]
        · rw [List.getElem?_eq_none (by omega), List.getElem?_eq_none (by simp; omega)]

/-- An echo or an event. -/
theorem Replied.reply {start : LatencyRunner} {inputs : List BenchInput}
    (h : Replied start (Machine.final LatencyRunner.handle start inputs) inputs) {input : BenchInput}
    (hreply : ∀ perfNs, input ≠ .tick perfNs) :
    Replied start (Machine.final LatencyRunner.handle start (inputs ++ [input])) (inputs ++ [input]) := by
  have hrows := h.rows_concat input
  have hbooks := h.books.handle input
  rw [← LatencyRunner.rows_concat] at hbooks
  rw [Machine.final_append]
  generalize Machine.final LatencyRunner.handle start inputs = s at h hbooks ⊢
  have hticks : tickTimes (inputs ++ [input]) = tickTimes inputs := by
    cases input with
    | tick perfNs => exact absurd rfl (hreply perfNs)
    | plainEcho msg perfNs => exact tickTimes_concat_plainEcho msg perfNs
    | verifyEvent msg => exact tickTimes_concat_verifyEvent msg
  have hrow : ∀ n sentNs, ∃ row, s.replyRow? n sentNs input = some row := by
    intro n sentNs
    cases input with
    | tick perfNs => exact absurd rfl (hreply perfNs)
    | plainEcho msg perfNs => exact ⟨_, rfl⟩
    | verifyEvent msg => exact ⟨_, rfl⟩
  -- what was outstanding and is not answered by the input still is
  have hsent : ∀ n sentNs, (n < start.count ∧ ¬ RepliedTo start.mode (inputs ++ [input]) n ∧
      (tickTimes (inputs ++ [input]))[n]? = some sentNs) ↔
      s.sentPerfNs.lookup n = some sentNs ∧ input.number? start.mode ≠ some n := by
    intro n sentNs
    rw [hticks, h.sent, repliedTo_concat]
    refine ⟨?_, ?_⟩
    · rintro ⟨hn, hfirst, htime⟩
      have hlt := (List.getElem?_eq_some_iff.1 htime).1
      exact ⟨⟨hn, fun hbefore => hfirst (Or.inl hbefore), htime⟩,
        fun hnumber => hfirst (Or.inr ⟨hlt, hnumber⟩)⟩
    · rintro ⟨⟨hn, hfirst, htime⟩, hnumber⟩
      exact ⟨hn, fun hor => hor.elim hfirst fun hand => hnumber hand.2, htime⟩
  have hstep := h.books.handle_reply hreply
  change Replied start (s.handle input).1 _
  cases hanswer : s.answer? input with
  | none =>
      rw [hanswer] at hstep
      simp only at hstep
      rw [hstep.1] at hbooks ⊢
      refine ⟨h.mode, h.count, h.runId, hbooks, by rw [hticks, h.published], ?_, hrows⟩
      intro n sentNs
      rw [hsent]
      refine ⟨fun hlookup => ⟨hlookup, fun hnumber => ?_⟩, And.left⟩
      obtain ⟨row, hreplied⟩ := hrow n sentNs
      have hsome := h.books.answer?_eq_some_iff.2 ⟨h.mode ▸ hnumber, sentNs, hlookup, hreplied⟩
      exact absurd (hanswer.symm.trans hsome) (by simp)
  | some answer =>
      obtain ⟨k, row⟩ := answer
      rw [hanswer] at hstep
      simp only at hstep
      have hnumber : input.number? start.mode = some k :=
        h.mode ▸ (h.books.answer?_eq_some_iff.1 hanswer).1
      rw [hstep] at hbooks ⊢
      refine ⟨h.mode, h.count, h.runId, hbooks, by rw [hticks]; exact h.published, ?_, hrows⟩
      intro n sentNs
      rw [hsent, hnumber]
      show (s.sentPerfNs.erase k).lookup n = some sentNs ↔ _
      by_cases hn : n = k
      · subst hn
        rw [Finmap.lookup_erase]
        simp
      · rw [Finmap.lookup_erase_ne hn]
        simp [Ne.symm hn]

theorem replied_start (mode : BenchMode) (count : ℤ) (runId : PyStr) :
    Replied (.start mode count runId) (.start mode count runId) [] where
  mode := rfl
  count := rfl
  runId := rfl
  books := LatencyRunner.bookkeeping_start mode count runId
  published := (Nat.zero_min _).symm
  sent _ _ := by simp [LatencyRunner.start, tickTimes]
  rows row := by simp [LatencyRunner.rows]

/-- Numbers below `2^64` have a double: as long as no others were published, the runner is where its
    inputs put it. -/
theorem replied_of_published {mode : BenchMode} {count : ℤ} {runId : PyStr} {inputs : List BenchInput}
    (hfew : (Machine.final LatencyRunner.handle (.start mode count runId) inputs).published < 2 ^ 64) :
    Replied (.start mode count runId)
      (Machine.final LatencyRunner.handle (.start mode count runId) inputs) inputs := by
  induction inputs using List.reverseRecOn with
  | nil => exact replied_start mode count runId
  | append_singleton inputs input ih =>
      rw [Machine.final_append] at hfew
      have hbefore := lt_of_le_of_lt (LatencyRunner.published_le_handle _ input) hfew
      have h := ih hbefore
      cases input with
      | tick perfNs => exact h.tick hbefore perfNs
      | plainEcho msg perfNs => exact h.reply (by simp)
      | verifyEvent msg => exact h.reply (by simp)

theorem replied_final {mode : BenchMode} {count : ℤ} {runId : PyStr} (hcount : count < 2 ^ 63)
    (inputs : List BenchInput) : Replied (.start mode count runId)
      (Machine.final LatencyRunner.handle (.start mode count runId) inputs) inputs := by
  refine replied_of_published ?_
  have hle := (LatencyRunner.bookkeeping_final mode count runId inputs).published_le
  rw [LatencyRunner.count_final] at hle
  have hstart := LatencyRunner.count_start_lt mode hcount runId
  omega

/-- The runner is done iff it published all its numbers and none is outstanding. -/
theorem LatencyRunner.Bookkeeping.done_iff_answered {self : LatencyRunner} {rows : List BenchmarkRow}
    (h : self.Bookkeeping rows) :
    self.done = true ↔ self.published = self.count ∧ ∀ n, n ∉ self.sentPerfNs := by
  have hbalance := h.balance
  have hle := h.published_le
  rw [h.done_iff, h.recorded_eq]
  refine ⟨fun hcount => ⟨by omega, fun n hn => ?_⟩, ?_⟩
  · have hcard := Finset.card_pos.2 ⟨n, Finmap.mem_keys.2 hn⟩
    omega
  · rintro ⟨hpublished, hnone⟩
    have hkeys : self.sentPerfNs.keys = ∅ :=
      Finset.eq_empty_of_forall_notMem fun n hn => hnone n (Finmap.mem_keys.1 hn)
    rw [hkeys, Finset.card_empty] at hbalance
    omega

/-- It is done iff every number is replied to. -/
theorem Replied.done_iff {start runner : LatencyRunner} {inputs : List BenchInput}
    (h : Replied start runner inputs) :
    runner.done = true ↔ ∀ sequence < start.count, RepliedTo start.mode inputs sequence := by
  rw [h.books.done_iff_answered, h.published, h.count]
  refine ⟨?_, ?_⟩
  · rintro ⟨hpublished, hnone⟩ n hn
    by_contra hreply
    have hsent := List.getElem?_eq_getElem (show n < (tickTimes inputs).length by omega)
    exact hnone n (Finmap.mem_of_lookup_eq_some ((h.sent n _).2 ⟨hn, hreply, hsent⟩))
  · intro hall
    have hpos := start.count_pos
    have hlast := (hall _ (Nat.sub_one_lt (by omega))).lt
    refine ⟨by omega, fun n hn => ?_⟩
    obtain ⟨sentNs, hlookup⟩ := Finmap.mem_iff.1 hn
    obtain ⟨hlt, hreply, -⟩ := (h.sent n sentNs).1 hlookup
    exact hreply (hall n hlt)

/-- **The rows of a benchmark**, in both modes and whatever is received: one for each number that is
    replied to after its command was sent, made of the first such reply. The runner is done iff all
    numbers are; if one is never replied to, it waits forever. -/
theorem rows_first_replies {params : LatencyRunnerParams} {runId : PyStr} {runner : LatencyRunner}
    (hinit : LatencyRunner.init params runId = .ok runner) (hcount : params.count < 2 ^ 63)
    (inputs : List BenchInput) :
    (∀ row, row ∈ runner.rows inputs ↔ ∃ before input after, inputs = before ++ input :: after ∧
      ∃ sequence, runner.FirstReply before input sequence row) ∧
    (runner.rows inputs).Nodup ∧
    ((Machine.final LatencyRunner.handle runner inputs).done = true ↔
      ∀ sequence < runner.count, RepliedTo runner.mode inputs sequence) := by
  obtain ⟨mode, rfl⟩ := LatencyRunner.init_eq_ok hinit
  have h : Replied (.start mode params.count runId) _ inputs := replied_final hcount inputs
  exact ⟨h.rows, h.books.distinct.of_map _, h.done_iff⟩

/-- The event of the first command arrives before the command was sent, and once more in time; the second
    command is never answered. -/
theorem rows_first_replies_demo :
    let runner := LatencyRunner.start .appSig 2 (PyStr.ofString "5f1c2a7b9d30")
    let inputs := [BenchInput.verifyEvent .demo, .tick 0, .verifyEvent .demo, .tick 50000000]
    (∃ before input after, inputs = before ++ input :: after ∧
      ∃ sequence, runner.FirstReply before input sequence (runner.eventRow .demo)) ∧
    ¬ ∀ sequence < 2, RepliedTo .appSig inputs sequence := by
  intro runner inputs
  have hinit : LatencyRunner.init ⟨PyStr.ofString "app_sig", 2⟩ (PyStr.ofString "5f1c2a7b9d30") =
      .ok runner := rfl
  obtain ⟨hrows, -, hdone⟩ := rows_first_replies hinit (by decide) inputs
  have hwaiting : (Machine.final LatencyRunner.handle runner inputs).done = false := by decide
  refine ⟨(hrows _).1 (by decide), fun hall => ?_⟩
  rw [hdone.2 hall] at hwaiting
  exact absurd hwaiting (by simp)

end PqcSecureComm
