import PqcSecureComm.Lib.Machine
import PqcSecureComm.Lib.SlidingWindow
import PqcSecureComm.Messages

set_option autoImplicit false

/-! # The replay window

`ReplayWindow.check_and_update` keeps, for every `(source_id, key_id)` pair, the greatest sequence
accepted and the set of accepted sequences above `highest - window_size`; everything older is
forgotten after each acceptance. The reference checker below forgets nothing. `ReplayState.ofHistory`
is the invariant: the state of a pair is a function of the full history of that pair, and one call
moves state and history in step. -/

namespace PqcSecureComm

open SlidingWindow

/-! ## The source -/

/-- `ReplayState`, with the defaults of the dataclass. -/
structure ReplayState where
  highestSequenceSeen : ℤ := -1
  acceptedSequences : Finset ℤ := ∅
  deriving DecidableEq

/-- `ReplayWindow`; its constructor admits positive sizes only. -/
structure ReplayWindow where
  windowSize : ℤ
  states : Finmap fun _ : Pair => ReplayState
  windowSize_pos : 0 < windowSize

/-- The arguments of one `check_and_update` call. -/
structure ReplayCall where
  pair : Pair
  sequence : ℤ
  deriving DecidableEq, Repr

/-- `ReplayWindow.__init__`. -/
def ReplayWindow.init (windowSize : ℤ := 64) : Except PyError ReplayWindow :=
  if h : windowSize ≤ 0 then
    .error (.mk' .valueError "replay_window_size must be a positive integer.")
  else .ok ⟨windowSize, ∅, by omega⟩

/-- The body of `check_and_update` on the state object of the pair: the state it leaves and the
    answer. -/
def ReplayState.checkAndUpdate (windowSize : ℤ) (state : ReplayState) (sequence : ℤ) :
    ReplayState × Bool :=
  if sequence ∈ state.acceptedSequences then (state, false)
  else if state.highestSequenceSeen ≥ 0 ∧ sequence ≤ state.highestSequenceSeen - windowSize then
    (state, false)
  else
    let accepted := insert sequence state.acceptedSequences
    let highest :=
      if sequence > state.highestSequenceSeen then sequence else state.highestSequenceSeen
    let cutoff := highest - windowSize
    (⟨highest, {a ∈ accepted | a > cutoff}⟩, true)

/-- `check_and_update`: `setdefault` finds or creates the state object of the pair, which the body
    then mutates in place. -/
def ReplayWindow.checkAndUpdate (self : ReplayWindow) (call : ReplayCall) : ReplayWindow × Bool :=
  let state := (self.states.lookup call.pair).getD {}
  let result := state.checkAndUpdate self.windowSize call.sequence
  ({ self with states := self.states.insert call.pair result.1 }, result.2)

/-! ## The checker that remembers everything -/

/-- For every pair, all sequences ever accepted. -/
abbrev Reference := Pair → Finset ℤ

/-- Accept `s` iff it is not in the history of its pair and above `max - windowSize`. -/
def Reference.check (windowSize : ℤ) (H : Reference) (call : ReplayCall) : Reference × Bool :=
  if Admits windowSize (H call.pair) call.sequence then
    (Function.update H call.pair (insert call.sequence (H call.pair)), true)
  else (H, false)

/-- What was offered for one pair, in order. -/
def sequencesOf (p : Pair) (calls : List ReplayCall) : List ℤ :=
  calls.filterMap fun call => if call.pair = p then some call.sequence else none

/-- What was accepted for one pair in the course of the calls. -/
def history (windowSize : ℤ) (calls : List ReplayCall) (p : Pair) : Finset ℤ :=
  offers windowSize ∅ (sequencesOf p calls)

theorem sequencesOf_cons (p : Pair) (call : ReplayCall) (calls : List ReplayCall) :
    sequencesOf p (call :: calls) =
      if call.pair = p then call.sequence :: sequencesOf p calls else sequencesOf p calls := by
  by_cases hp : call.pair = p
  · simp [sequencesOf, hp]
  · simp [sequencesOf, hp]

theorem Reference.check_apply (windowSize : ℤ) (H : Reference) (call : ReplayCall) (p : Pair) :
    (Reference.check windowSize H call).1 p =
      if call.pair = p then offer windowSize (H p) call.sequence else H p := by
  unfold Reference.check
  by_cases hadm : Admits windowSize (H call.pair) call.sequence
  · rw [if_pos hadm]
    by_cases hp : call.pair = p
    · subst hp
      rw [if_pos rfl, offer_of_admits hadm]
      exact Function.update_self ..
    · rw [if_neg hp]
      exact Function.update_of_ne (fun h => hp h.symm) ..
  · rw [if_neg hadm]
    by_cases hp : call.pair = p
    · subst hp
      rw [if_pos rfl, offer_of_not_admits hadm]
    · rw [if_neg hp]

theorem Reference.check_answer (windowSize : ℤ) (H : Reference) (call : ReplayCall) :
    (Reference.check windowSize H call).2 =
      decide (Admits windowSize (H call.pair) call.sequence) := by
  unfold Reference.check
  by_cases hadm : Admits windowSize (H call.pair) call.sequence
  · rw [if_pos hadm, decide_eq_true hadm]
  · rw [if_neg hadm, decide_eq_false hadm]

/-- The reference keeps each pair apart: its history is that of the offers for the pair alone. -/
theorem Reference.final_apply (windowSize : ℤ) (H : Reference) (calls : List ReplayCall) (p : Pair) :
    Machine.final (Reference.check windowSize) H calls p =
      offers windowSize (H p) (sequencesOf p calls) := by
  induction calls generalizing H with
  | nil => rfl
  | cons call calls ih =>
      rw [Machine.final_cons, ih, Reference.check_apply, sequencesOf_cons]
      by_cases hp : call.pair = p
      · rw [if_pos hp, if_pos hp, offers_cons]
      · rw [if_neg hp, if_neg hp]

theorem Reference.final_empty (windowSize : ℤ) (calls : List ReplayCall) (p : Pair) :
    Machine.final (Reference.check windowSize) (fun _ => ∅) calls p = history windowSize calls p :=
  Reference.final_apply windowSize (fun _ => ∅) calls p

/-! ## The state of a pair as a function of its history -/

/-- Greatest element and recent part of the history; the dataclass defaults if there is none. -/
def ReplayState.ofHistory (windowSize : ℤ) (H : Finset ℤ) : ReplayState :=
  if hH : H.Nonempty then ⟨H.max' hH, recent windowSize H⟩ else {}

theorem ReplayState.ofHistory_empty (windowSize : ℤ) :
    ReplayState.ofHistory windowSize ∅ = {} := rfl

theorem ReplayState.ofHistory_of_nonempty {windowSize : ℤ} {H : Finset ℤ} (hH : H.Nonempty) :
    ReplayState.ofHistory windowSize H = ⟨H.max' hH, recent windowSize H⟩ := dif_pos hH

/-- **One call.** On the state of a history of nonnegative sequences, `check_and_update` gives the
    verdict of the whole history and leaves the state of the next history. -/
theorem ReplayState.checkAndUpdate_ofHistory {windowSize : ℤ} (hW : 0 < windowSize) {H : Finset ℤ}
    (hH : ∀ h ∈ H, 0 ≤ h) {s : ℤ} (hs : 0 ≤ s) :
    (ReplayState.ofHistory windowSize H).checkAndUpdate windowSize s =
      (ReplayState.ofHistory windowSize (offer windowSize H s),
        decide (Admits windowSize H s)) := by
  rcases H.eq_empty_or_nonempty with rfl | hne
  · -- the first sequence of a pair: the sentinel `-1` switches the cutoff check off
    have hadm : Admits windowSize ∅ s := by simp [Admits]
    have hone : offer windowSize ∅ s = {s} := offer_of_admits hadm
    rw [hone, decide_eq_true hadm, ReplayState.ofHistory_empty,
      ReplayState.ofHistory_of_nonempty (Finset.singleton_nonempty s), recent_singleton hW,
      Finset.max'_singleton]
    have hfilter : ({a ∈ ({s} : Finset ℤ) | a > s - windowSize}) = {s} := by
      rw [Finset.filter_singleton, if_pos (by omega)]
    simp [ReplayState.checkAndUpdate, show s > -1 by omega, hfilter]
  · rw [ReplayState.ofHistory_of_nonempty hne]
    have hmax : 0 ≤ H.max' hne := hH _ (H.max'_mem hne)
    by_cases hadm : Admits windowSize H s
    · -- accepted: neither check fires, and pruning keeps the recent part
      obtain ⟨hnew, hcut⟩ := (admits_iff_recent hne).1 hadm
      have hhighest : (if s > H.max' hne then s else H.max' hne) = max (H.max' hne) s := by
        rw [max_def]; split <;> split <;> omega
      rw [offer_of_admits hadm, decide_eq_true hadm,
        ReplayState.ofHistory_of_nonempty (Finset.insert_nonempty s H), recent_insert _ hne,
        Finset.max'_insert s H hne, max_comm s]
      simp only [ReplayState.checkAndUpdate, hnew, if_false, hhighest, gt_iff_lt]
      rw [if_neg (by omega)]
    · -- refused: in the recent part, or at or below the cutoff
      rw [offer_of_not_admits hadm, decide_eq_false hadm, ReplayState.ofHistory_of_nonempty hne]
      by_cases hrecent : s ∈ recent windowSize H
      · simp [ReplayState.checkAndUpdate, hrecent]
      · have hcut : s ≤ H.max' hne - windowSize := by
          by_contra hlt
          exact hadm ((admits_iff_recent hne).2 ⟨hrecent, not_le.1 hlt⟩)
        simp [ReplayState.checkAndUpdate, hrecent, hmax, hcut]

/-! ## The simulation -/

/-- The window stands for the histories: every pair has the state of its history, and an entry in
    the dictionary iff something was accepted for it. -/
structure ReplayWindow.Tracks (window : ReplayWindow) (H : Reference) : Prop where
  nonneg : ∀ p, ∀ h ∈ H p, 0 ≤ h
  state : ∀ p, (window.states.lookup p).getD {} = ReplayState.ofHistory window.windowSize (H p)
  mem : ∀ p, p ∈ window.states ↔ (H p).Nonempty

theorem ReplayWindow.Tracks.congr {window : ReplayWindow} {H H' : Reference} (h : window.Tracks H)
    (heq : ∀ p, H p = H' p) : window.Tracks H' := funext heq ▸ h

@[simp]
theorem ReplayWindow.windowSize_checkAndUpdate (self : ReplayWindow) (call : ReplayCall) :
    (self.checkAndUpdate call).1.windowSize = self.windowSize := rfl

theorem ReplayWindow.lookup_checkAndUpdate (self : ReplayWindow) (call : ReplayCall) :
    (self.checkAndUpdate call).1.states.lookup call.pair =
      some (((self.states.lookup call.pair).getD {}).checkAndUpdate self.windowSize
        call.sequence).1 :=
  Finmap.lookup_insert self.states

theorem ReplayWindow.lookup_checkAndUpdate_of_ne (self : ReplayWindow) {call : ReplayCall} {p : Pair}
    (h : p ≠ call.pair) :
    (self.checkAndUpdate call).1.states.lookup p = self.states.lookup p :=
  Finmap.lookup_insert_of_ne self.states h

theorem ReplayWindow.Tracks.answer {self : ReplayWindow} {H : Reference} (h : self.Tracks H)
    {call : ReplayCall} (hcall : 0 ≤ call.sequence) :
    (self.checkAndUpdate call).2 = decide (Admits self.windowSize (H call.pair) call.sequence) := by
  simp only [ReplayWindow.checkAndUpdate, h.state call.pair]
  rw [ReplayState.checkAndUpdate_ofHistory self.windowSize_pos (h.nonneg call.pair) hcall]

theorem offer_nonempty (windowSize : ℤ) (H : Finset ℤ) (s : ℤ) :
    (offer windowSize H s).Nonempty := by
  by_cases hadm : Admits windowSize H s
  · rw [offer_of_admits hadm]
    exact Finset.insert_nonempty s H
  · rw [offer_of_not_admits hadm]
    by_contra hempty
    rw [Finset.not_nonempty_iff_eq_empty] at hempty
    subst hempty
    exact hadm (by simp [Admits])

/-- **One call keeps the simulation.** -/
theorem ReplayWindow.Tracks.next {self : ReplayWindow} {H : Reference} (h : self.Tracks H)
    {call : ReplayCall} (hcall : 0 ≤ call.sequence) :
    (self.checkAndUpdate call).1.Tracks (Reference.check self.windowSize H call).1 := by
  constructor
  · intro p a ha
    rw [Reference.check_apply] at ha
    split at ha
    · next hp =>
        unfold offer at ha
        split at ha
        · rcases Finset.mem_insert.1 ha with rfl | hmem
          · exact hcall
          · exact h.nonneg p a hmem
        · exact h.nonneg p a ha
    · exact h.nonneg p a ha
  · intro p
    rw [Reference.check_apply]
    by_cases hp : call.pair = p
    · subst hp
      rw [ReplayWindow.lookup_checkAndUpdate, Option.getD_some, h.state, if_pos rfl,
        ReplayState.checkAndUpdate_ofHistory self.windowSize_pos (h.nonneg call.pair) hcall]
      rfl
    · rw [ReplayWindow.lookup_checkAndUpdate_of_ne self (fun heq => hp heq.symm), if_neg hp]
      exact h.state p
  · intro p
    rw [Reference.check_apply]
    by_cases hp : call.pair = p
    · subst hp
      rw [if_pos rfl]
      refine iff_of_true ?_ (offer_nonempty self.windowSize (H call.pair) call.sequence)
      exact Finmap.mem_insert.2 (Or.inl rfl)
    · rw [if_neg hp, ← h.mem p]
      exact (Finmap.mem_insert.trans (or_iff_right fun heq => hp heq.symm))

theorem ReplayWindow.init_eq_ok {windowSize : ℤ} {window : ReplayWindow}
    (h : ReplayWindow.init windowSize = .ok window) :
    window.windowSize = windowSize ∧ window.states = ∅ := by
  unfold ReplayWindow.init at h
  split at h
  · exact absurd h (by simp)
  · simp only [Except.ok.injEq] at h
    subst h
    exact ⟨rfl, rfl⟩

/-- A window without entries stands for empty histories. -/
theorem ReplayWindow.tracks_empty {window : ReplayWindow} (h : window.states = ∅) :
    window.Tracks fun _ => ∅ := by
  constructor
  · intro p a ha
    exact absurd ha (Finset.notMem_empty a)
  · intro p
    rw [h, Finmap.lookup_empty]
    rfl
  · intro p
    rw [h]
    exact iff_of_false Finmap.notMem_empty Finset.not_nonempty_empty

theorem ReplayWindow.windowSize_final (window : ReplayWindow) (calls : List ReplayCall) :
    (Machine.final ReplayWindow.checkAndUpdate window calls).windowSize = window.windowSize := by
  induction calls generalizing window with
  | nil => rfl
  | cons call calls ih => rw [Machine.final_cons, ih, ReplayWindow.windowSize_checkAndUpdate]

theorem ReplayWindow.simulates (windowSize : ℤ) :
    Machine.Simulates ReplayWindow.checkAndUpdate (Reference.check windowSize)
      (fun call => 0 ≤ call.sequence) (fun w H => w.windowSize = windowSize ∧ w.Tracks H) where
  next := by
    rintro w H call hcall ⟨rfl, htracks⟩
    exact ⟨rfl, htracks.next hcall⟩
  output := by
    rintro w H call hcall ⟨rfl, htracks⟩
    rw [htracks.answer hcall, Reference.check_answer]

/-- After any calls on a fresh window, every pair has the state of its history. -/
theorem ReplayWindow.tracks_final {window : ReplayWindow} (hfresh : window.states = ∅)
    {calls : List ReplayCall} (hcalls : ∀ call ∈ calls, 0 ≤ call.sequence) :
    (Machine.final ReplayWindow.checkAndUpdate window calls).Tracks
      (history window.windowSize calls) := by
  have hrun := ((ReplayWindow.simulates window.windowSize).run
    ⟨rfl, ReplayWindow.tracks_empty hfresh⟩ hcalls).1.2
  have hhistory : Machine.final (Reference.check window.windowSize) (fun _ => ∅) calls =
      history window.windowSize calls := funext (Reference.final_empty window.windowSize calls)
  rwa [hhistory] at hrun

/-- **Forgetting never shows.** For every window size and every list of calls with sequences `≥ 0`,
    the answers are those of the checker that keeps the full history of every pair. -/
theorem replayWindow_refines_reference (windowSize : ℤ) (hW : 1 ≤ windowSize)
    (calls : List ReplayCall) (hcalls : ∀ call ∈ calls, 0 ≤ call.sequence) :
    ∃ window, ReplayWindow.init windowSize = .ok window ∧
      Machine.outputs ReplayWindow.checkAndUpdate window calls =
        Machine.outputs (Reference.check windowSize) (fun _ => ∅) calls := by
  have hpos : ¬ windowSize ≤ 0 := by omega
  refine ⟨⟨windowSize, ∅, by omega⟩, dif_neg hpos, ?_⟩
  exact ((ReplayWindow.simulates windowSize).run ⟨rfl, ReplayWindow.tracks_empty rfl⟩ hcalls).2

/-- Out-of-order acceptance, a jump that prunes, and a second pair, with a window of three. -/
theorem replayWindow_refines_reference_three :
    ∃ window, ReplayWindow.init 3 = .ok window ∧
      Machine.outputs ReplayWindow.checkAndUpdate window
          [⟨([1], [2]), 10⟩, ⟨([1], [2]), 8⟩, ⟨([3], [2]), 8⟩, ⟨([1], [2]), 8⟩, ⟨([1], [2]), 20⟩,
            ⟨([1], [2]), 10⟩] =
        Machine.outputs (Reference.check 3) (fun _ => ∅)
          [⟨([1], [2]), 10⟩, ⟨([1], [2]), 8⟩, ⟨([3], [2]), 8⟩, ⟨([1], [2]), 8⟩, ⟨([1], [2]), 20⟩,
            ⟨([1], [2]), 10⟩] :=
  replayWindow_refines_reference 3 (by decide) _ (by decide)

example :
    Machine.outputs (Reference.check 3) (fun _ => ∅)
      [⟨([1], [2]), 10⟩, ⟨([1], [2]), 8⟩, ⟨([3], [2]), 8⟩, ⟨([1], [2]), 8⟩, ⟨([1], [2]), 20⟩,
        ⟨([1], [2]), 10⟩] = [true, true, true, false, true, false] := by decide

end PqcSecureComm
