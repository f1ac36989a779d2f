import PqcSecureComm.Pipeline
import PqcSecureComm.Replies

set_option autoImplicit false

/-! # What a plain benchmark measures

In plain mode the runner listens to its own commands on `/cmd_vel/raw`. As long as nobody else publishes
there, whatever the topic loses, repeats or reorders, every row is a true measurement: from the sending of
its command to the first echo of that very command (`plain_measures`). -/

namespace PqcSecureComm

/-- The clock at an echo of a number. -/
def BenchInput.echoOf? (sequence : ℕ) : BenchInput → Option ℤ
  | .plainEcho msg perfNs =>
    match pyInt msg.linear.x with
    | .ok n => if n = sequence then some perfNs else none
    | .error _ => none
  | _ => none

def echoTimes (sequence : ℕ) (inputs : List BenchInput) : List ℤ :=
  inputs.filterMap (BenchInput.echoOf? sequence)

/-- The commands published in a run. -/
def LatencyRunner.twists (self : LatencyRunner) (inputs : List BenchInput) : List Twist :=
  (Machine.outputs LatencyRunner.handle self inputs).flatMap twistsOf

/-- Nobody else publishes on the topic: an echo is one of the commands published before it. Which of them
    come back, how often and in which order is left open. -/
def LatencyRunner.EchoesOwn (self : LatencyRunner) (inputs : List BenchInput) : Prop :=
  ∀ before msg perfNs after, inputs = before ++ .plainEcho msg perfNs :: after →
    msg ∈ self.twists before

/-- The reading of the clock an input comes with. -/
def BenchInput.perfNs? : BenchInput → Option ℤ
  | .tick perfNs => some perfNs
  | .plainEcho _ perfNs => some perfNs
  | .verifyEvent _ => none

/-- The readings never decrease. -/
def ClockMonotone (inputs : List BenchInput) : Prop :=
  (inputs.filterMap BenchInput.perfNs?).Pairwise (· ≤ ·)

instance (inputs : List BenchInput) : Decidable (ClockMonotone inputs) :=
  inferInstanceAs (Decidable (List.Pairwise _ _))

/-- The row of a command that came back after `e2eNs`. -/
def BenchmarkRow.measured (runId : PyStr) (sequence : ℕ) (e2eNs : ℤ) : BenchmarkRow :=
  ⟨runId, BenchMode.plain.text, sequence, 0, 0, 0, e2eNs, 0⟩

/-! ## Own commands -/

theorem LatencyRunner.twistsOf_handle {self : LatencyRunner} {input : BenchInput} {msg : Twist}
    (h : msg ∈ twistsOf (self.handle input).2) :
    ∃ x, pyFloat self.published = .ok x ∧ msg = numberedTwist x ∧
      self.published < (self.handle input).1.published := by
  have hsteps := self.steps input
  generalize self.handle input = result at hsteps h ⊢
  cases hsteps with
  | publish perfNs x htick hcount hx => exact ⟨x, hx, List.mem_singleton.1 h, Nat.lt_succ_self _⟩
  | _ => exact absurd h List.not_mem_nil

/-- The commands of a run are those of the numbers published in it. -/
theorem LatencyRunner.exists_of_mem_twists {self : LatencyRunner} {inputs : List BenchInput} {msg : Twist}
    (h : msg ∈ self.twists inputs) :
    ∃ n < (Machine.final LatencyRunner.handle self inputs).published, ∃ x, pyFloat n = .ok x ∧
      msg = numberedTwist x := by
  have hall : ∀ msg ∈ self.twists inputs,
      ∃ n < (Machine.final LatencyRunner.handle self inputs).published, ∃ x, pyFloat n = .ok x ∧
        msg = numberedTwist x := by
    refine Machine.observed_invariant LatencyRunner.handle twistsOf
      (P := fun s msgs => ∀ msg ∈ msgs, ∃ n < s.published, ∃ x, pyFloat n = .ok x ∧ msg = numberedTwist x)
      ?_ (fun _ hmem => absurd hmem List.not_mem_nil) inputs
    intro s msgs input hs msg hmsg
    rcases List.mem_append.1 hmsg with hold | hnew
    · obtain ⟨n, hn, hrest⟩ := hs msg hold
      exact ⟨n, lt_of_lt_of_le hn (s.published_le_handle input), hrest⟩
    · obtain ⟨x, hx, hmsg, hlt⟩ := LatencyRunner.twistsOf_handle hnew
      exact ⟨s.published, hlt, x, hx, hmsg⟩
  exact hall msg h

theorem LatencyRunner.echoesOwn_iff {self : LatencyRunner} {inputs : List BenchInput} :
    self.EchoesOwn inputs ↔ Machine.Throughout (fun before input =>
      ∀ msg perfNs, input = .plainEcho msg perfNs → msg ∈ self.twists before) inputs := by
  refine ⟨?_, ?_⟩
  · intro h before input after hsplit msg perfNs hecho
    exact h before msg perfNs after (hecho ▸ hsplit)
  · intro h before msg perfNs after hsplit
    exact h before _ after hsplit msg perfNs rfl

theorem LatencyRunner.echoesOwn_concat {self : LatencyRunner} {inputs : List BenchInput}
    {input : BenchInput} : self.EchoesOwn (inputs ++ [input]) ↔
      self.EchoesOwn inputs ∧
        ∀ msg perfNs, input = .plainEcho msg perfNs → msg ∈ self.twists inputs := by
  rw [LatencyRunner.echoesOwn_iff, Machine.throughout_concat, ← LatencyRunner.echoesOwn_iff]

theorem LatencyRunner.EchoesOwn.concat {self : LatencyRunner} {inputs : List BenchInput}
    (h : self.EchoesOwn inputs) (input : BenchInput)
    (hinput : ∀ msg perfNs, input = .plainEcho msg perfNs → msg ∈ self.twists inputs) :
    self.EchoesOwn (inputs ++ [input]) := LatencyRunner.echoesOwn_concat.2 ⟨h, hinput⟩

theorem LatencyRunner.EchoesOwn.of_append {self : LatencyRunner} {inputs more : List BenchInput}
    (h : self.EchoesOwn (inputs ++ more)) : self.EchoesOwn inputs := by
  intro before msg perfNs after hsplit
  exact h before msg perfNs (after ++ more) (by rw [hsplit, List.append_assoc, List.cons_append])

/-! ## Echoes and replies -/

theorem BenchInput.echoOf?_eq_some {n : ℕ} {input : BenchInput} {perfNs : ℤ} :
    input.echoOf? n = some perfNs ↔ ∃ msg, input = .plainEcho msg perfNs ∧ pyInt msg.linear.x = .ok n := by
  unfold BenchInput.echoOf?
  cases input with
  | tick perfNs' => simp
  | verifyEvent msg => simp
  | plainEcho msg perfNs' =>
      cases hint : pyInt msg.linear.x with
      | error exc => simp [hint]
      | ok k =>
          simp only [hint, Option.ite_none_right_eq_some, Option.some.injEq, BenchInput.plainEcho.injEq]
          refine ⟨?_, ?_⟩
          · rintro ⟨rfl, rfl⟩
            exact ⟨msg, ⟨rfl, rfl⟩, hint⟩
          · rintro ⟨msg', ⟨rfl, rfl⟩, hk⟩
            exact ⟨Except.ok.inj (hint.symm.trans hk), rfl⟩

/-- In plain mode the replies are the echoes. -/
theorem BenchInput.number?_plain_iff {n : ℕ} {input : BenchInput} :
    input.number? .plain = some n ↔ ∃ perfNs, input.echoOf? n = some perfNs := by
  simp only [BenchInput.echoOf?_eq_some]
  unfold BenchInput.number?
  cases input with
  | tick perfNs => simp
  | verifyEvent msg => simp
  | plainEcho msg perfNs =>
      cases hint : pyInt msg.linear.x with
      | error exc => simp [hint]
      | ok k =>
          simp only [hint, Option.ite_none_left_eq_some, Option.some.injEq, BenchInput.plainEcho.injEq]
          refine ⟨?_, ?_⟩
          · rintro ⟨hpos, rfl⟩
            refine ⟨perfNs, msg, ⟨rfl, rfl⟩, ?_⟩
            rw [hint, Int.toNat_of_nonneg (not_lt.1 hpos)]
          · rintro ⟨perfNs', msg', ⟨rfl, -⟩, hk⟩
            obtain rfl := Except.ok.inj (hint.symm.trans hk)
            exact ⟨by omega, Int.toNat_natCast n⟩

/-- The first echo of a number, by what was received before it. -/
theorem head?_echoTimes {n : ℕ} {inputs : List BenchInput} {received : ℤ} :
    (echoTimes n inputs).head? = some received ↔ ∃ before input after, inputs = before ++ input :: after ∧
      input.echoOf? n = some received ∧ ∀ e ∈ before, e.echoOf? n = none := by
  unfold echoTimes
  rw [List.head?_filterMap, List.findSome?_eq_some_iff]

section Own

variable {count : ℤ} {runId : PyStr} {inputs : List BenchInput}

/-- An own echo comes after its command. -/
theorem LatencyRunner.EchoesOwn.lt_of_echo
    (hown : (LatencyRunner.start .plain count runId).EchoesOwn inputs)
    (hfew : (Machine.final LatencyRunner.handle (.start .plain count runId) inputs).published ≤ 2 ^ 53)
    {before after : List BenchInput} {input : BenchInput} (hsplit : inputs = before ++ input :: after)
    {n : ℕ} {perfNs : ℤ} (hecho : input.echoOf? n = some perfNs) :
    n < (tickTimes before).length ∧ n < (LatencyRunner.start .plain count runId).count := by
  obtain ⟨msg, rfl, hint⟩ := BenchInput.echoOf?_eq_some.1 hecho
  obtain ⟨m, hm, x, hx, rfl⟩ := LatencyRunner.exists_of_mem_twists (hown before msg perfNs after hsplit)
  rw [hsplit] at hfew
  have hle := LatencyRunner.published_le_final (.start .plain count runId) before
    (.plainEcho (numberedTwist x) perfNs :: after)
  have hsame : pyInt (numberedTwist x).linear.x = .ok m := pyInt_pyFloat (by omega) hx
  obtain rfl : m = n := by
    have hcast := Except.ok.inj (hsame.symm.trans hint)
    exact_mod_cast hcast
  have h : Replied (.start .plain count runId) _ before := replied_of_published (by omega)
  have hpublished := h.published
  have hcount := h.count
  omega

theorem LatencyRunner.EchoesOwn.repliedTo_iff
    (hown : (LatencyRunner.start .plain count runId).EchoesOwn inputs)
    (hfew : (Machine.final LatencyRunner.handle (.start .plain count runId) inputs).published ≤ 2 ^ 53)
    {n : ℕ} : RepliedTo .plain inputs n ↔ ∃ input ∈ inputs, ∃ perfNs, input.echoOf? n = some perfNs := by
  refine ⟨?_, ?_⟩
  · rintro ⟨before, input, after, rfl, -, hnumber⟩
    exact ⟨input, by simp, BenchInput.number?_plain_iff.1 hnumber⟩
  · rintro ⟨input, hinput, perfNs, hecho⟩
    obtain ⟨before, after, rfl⟩ := List.append_of_mem hinput
    exact ⟨before, input, after, rfl, (hown.lt_of_echo hfew rfl hecho).1,
      BenchInput.number?_plain_iff.2 ⟨perfNs, hecho⟩⟩

/-- The first reply to a number is the first echo of its command. -/
theorem LatencyRunner.EchoesOwn.firstReply_iff
    (hown : (LatencyRunner.start .plain count runId).EchoesOwn inputs)
    (hfew : (Machine.final LatencyRunner.handle (.start .plain count runId) inputs).published ≤ 2 ^ 53)
    {before after : List BenchInput} {input : BenchInput} (hsplit : inputs = before ++ input :: after)
    {n : ℕ} {row : BenchmarkRow} :
    (LatencyRunner.start .plain count runId).FirstReply before input n row ↔
      ∃ sent received, (tickTimes before)[n]? = some sent ∧ input.echoOf? n = some received ∧
        (∀ e ∈ before, e.echoOf? n = none) ∧ row = .measured runId n (received - sent) := by
  subst hsplit
  have hfew' := le_trans (LatencyRunner.published_le_final _ before (input :: after)) hfew
  have hfirst : ¬ RepliedTo .plain before n ↔ ∀ e ∈ before, e.echoOf? n = none := by
    rw [hown.of_append.repliedTo_iff hfew']
    simp only [not_exists, not_and, Option.eq_none_iff_forall_ne_some]
  refine ⟨?_, ?_⟩
  · rintro ⟨-, hnumber, hnone, sent, hsent, hrow⟩
    obtain ⟨received, hecho⟩ := BenchInput.number?_plain_iff.1 hnumber
    obtain ⟨msg, rfl, -⟩ := BenchInput.echoOf?_eq_some.1 hecho
    exact ⟨sent, received, hsent, hecho, hfirst.1 hnone, (Option.some.inj hrow).symm⟩
  · rintro ⟨sent, received, hsent, hecho, hnone, rfl⟩
    obtain ⟨msg, rfl, -⟩ := BenchInput.echoOf?_eq_some.1 hecho
    exact ⟨(hown.lt_of_echo hfew rfl hecho).2, BenchInput.number?_plain_iff.2 ⟨received, hecho⟩,
      hfirst.2 hnone, sent, hsent, rfl⟩

end Own

theorem tickTimes_append (inputs more : List BenchInput) :
    tickTimes (inputs ++ more) = tickTimes inputs ++ tickTimes more := List.filterMap_append

/-- A monotone clock measures no negative time. -/
theorem ClockMonotone.sub_nonneg {before after : List BenchInput} {msg : Twist} {sent received : ℤ}
    (h : ClockMonotone (before ++ .plainEcho msg received :: after)) (hsent : sent ∈ tickTimes before) :
    0 ≤ received - sent := by
  unfold ClockMonotone at h
  rw [List.filterMap_append, List.pairwise_append] at h
  obtain ⟨-, -, hle⟩ := h
  have hreading : sent ∈ before.filterMap BenchInput.perfNs? := by
    obtain ⟨input, hinput, htick⟩ := List.mem_filterMap.1 hsent
    refine List.mem_filterMap.2 ⟨input, hinput, ?_⟩
    cases input with
    | tick perfNs => exact htick
    | plainEcho msg' perfNs => exact absurd htick (by simp)
    | verifyEvent msg' => exact absurd htick (by simp)
  exact Int.sub_nonneg.2 (hle sent hreading received (by simp [BenchInput.perfNs?]))

/-- **A plain benchmark measures what it says**, whatever the topic loses, repeats or reorders: there is
    a row for a number iff the command was sent and came back, one only, and it holds the time from the
    tick that sent the command to its first echo. With a monotone clock that is never negative. -/
theorem plain_measures {count : ℤ} {runId : PyStr} {inputs : List BenchInput}
    (hown : (LatencyRunner.start .plain count runId).EchoesOwn inputs)
    (hfew : (Machine.final LatencyRunner.handle (.start .plain count runId) inputs).published ≤ 2 ^ 53) :
    let rows := (LatencyRunner.start .plain count runId).rows inputs
    (∀ row, row ∈ rows ↔ ∃ n : ℕ, ∃ sent received, (n : ℤ) < max 1 count ∧
      (tickTimes inputs)[n]? = some sent ∧ (echoTimes n inputs).head? = some received ∧
      row = .measured runId n (received - sent)) ∧
    (rows.map BenchmarkRow.sequence).Nodup ∧
    (ClockMonotone inputs → ∀ row ∈ rows, 0 ≤ row.e2eNs) := by
  intro rows
  have h : Replied (.start .plain count runId) _ inputs := replied_of_published (by omega)
  have hstart : (((LatencyRunner.start .plain count runId).count : ℕ) : ℤ) = max 1 count :=
    Int.toNat_of_nonneg (by omega)
  refine ⟨fun row => ?_, h.books.distinct, fun hclock row hrow => ?_⟩
  · rw [h.rows]
    refine ⟨?_, ?_⟩
    · rintro ⟨before, input, after, hsplit, n, hreply⟩
      have hlt := hreply.lt
      obtain ⟨sent, received, hsent, hecho, hnone, rfl⟩ := (hown.firstReply_iff hfew hsplit).1 hreply
      refine ⟨n, sent, received, by omega, ?_,
        head?_echoTimes.2 ⟨before, input, after, hsplit, hecho, hnone⟩, rfl⟩
      rw [hsplit, tickTimes_append, List.getElem?_append_left (List.getElem?_eq_some_iff.1 hsent).1, hsent]
    · rintro ⟨n, sent, received, -, hsent, hhead, rfl⟩
      obtain ⟨before, input, after, hsplit, hecho, hnone⟩ := head?_echoTimes.1 hhead
      refine ⟨before, input, after, hsplit, n, (hown.firstReply_iff hfew hsplit).2
        ⟨sent, received, ?_, hecho, hnone, rfl⟩⟩
      -- the command was sent before its echo
      have hlt := (hown.lt_of_echo hfew hsplit hecho).1
      rwa [hsplit, tickTimes_append, List.getElem?_append_left hlt] at hsent
  · obtain ⟨before, input, after, hsplit, n, hreply⟩ := (h.rows row).1 hrow
    obtain ⟨sent, received, hsent, hecho, -, rfl⟩ := (hown.firstReply_iff hfew hsplit).1 hreply
    obtain ⟨msg, rfl, -⟩ := BenchInput.echoOf?_eq_some.1 hecho
    rw [hsplit] at hclock
    exact hclock.sub_nonneg (List.mem_of_getElem? hsent)

/-- Three commands: the second one overtakes the first and comes twice, the third one is lost. -/
theorem plain_measures_demo :
    let inputs : List BenchInput := [.tick 10, .tick 20, .tick 30,
      .plainEcho (numberedTwist 0x3ff0000000000000) 35, .plainEcho (numberedTwist 0) 40,
      .plainEcho (numberedTwist 0x3ff0000000000000) 50]
    let rows := (LatencyRunner.start .plain 3 (PyStr.ofString "5f1c2a7b9d30")).rows inputs
    BenchmarkRow.measured (PyStr.ofString "5f1c2a7b9d30") 1 15 ∈ rows ∧
      (∀ row ∈ rows, row.sequence ≠ 2) ∧ ∀ row ∈ rows, 0 ≤ row.e2eNs := by
  intro inputs rows
  have hown : (LatencyRunner.start .plain 3 (PyStr.ofString "5f1c2a7b9d30")).EchoesOwn inputs := by
    have hnil : (LatencyRunner.start .plain 3 (PyStr.ofString "5f1c2a7b9d30")).EchoesOwn [] :=
      fun before msg perfNs after hsplit => absurd hsplit (by simp)
    have hticks := ((hnil.concat (.tick 10) (by simp)).concat (.tick 20) (by simp)).concat (.tick 30)
      (by simp)
    have hfirst := hticks.concat (.plainEcho (numberedTwist 0x3ff0000000000000) 35) (by
      rintro msg perfNs heq
      obtain ⟨rfl, -⟩ := BenchInput.plainEcho.inj heq
      decide)
    have hsecond := hfirst.concat (.plainEcho (numberedTwist 0) 40) (by
      rintro msg perfNs heq
      obtain ⟨rfl, -⟩ := BenchInput.plainEcho.inj heq
      decide)
    exact hsecond.concat (.plainEcho (numberedTwist 0x3ff0000000000000) 50) (by
      rintro msg perfNs heq
      obtain ⟨rfl, -⟩ := BenchInput.plainEcho.inj heq
      decide)
  have hfew : (Machine.final LatencyRunner.handle
      (.start .plain 3 (PyStr.ofString "5f1c2a7b9d30")) inputs).published ≤ 2 ^ 53 := by decide
  obtain ⟨hrows, -, hnonneg⟩ := plain_measures hown hfew
  refine ⟨(hrows _).2 ⟨1, 20, 35, by decide, by decide, by decide, rfl⟩, ?_, hnonneg (by decide)⟩
  intro row hrow hlost
  obtain ⟨n, sent, received, -, -, hhead, rfl⟩ := (hrows row).1 hrow
  have hnumber : (n : ℤ) = 2 := hlost
  obtain rfl : n = 2 := by exact_mod_cast hnumber
  have hnil : echoTimes 2 inputs = [] := by decide
  rw [hnil] at hhead
  exact absurd hhead (by simp)

end PqcSecureComm
