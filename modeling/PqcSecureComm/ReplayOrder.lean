import PqcSecureComm.ReplayWindow

set_option autoImplicit false

/-! # Order, repetition and window size

Which calls of `check_and_update` are accepted depends on their order, but the state they leave does
not: for every pair it is the greatest sequence offered and the offered ones above the cutoff, accepted
or not. Hence reordering and duplication on the way are forgotten, and two windows of different sizes
agree on the greatest sequence while the larger one accepts whatever the smaller one does. -/

namespace PqcSecureComm

open SlidingWindow

/-! ## The state as a function of the offers -/

/-- The sequences offered for a pair, accepted or not. -/
def offered (p : Pair) (calls : List ReplayCall) : Finset ℤ := (sequencesOf p calls).toFinset

theorem mem_offered {p : Pair} {calls : List ReplayCall} {s : ℤ} :
    s ∈ offered p calls ↔ ⟨p, s⟩ ∈ calls := by
  rw [offered, List.mem_toFinset, sequencesOf, List.mem_filterMap]
  refine ⟨?_, ?_⟩
  · rintro ⟨⟨pair, sequence⟩, hmem, hcall⟩
    by_cases hp : pair = p
    · rw [if_pos hp] at hcall
      rw [← hp, ← Option.some.inj hcall]
      exact hmem
    · rw [if_neg hp] at hcall
      exact absurd hcall (by simp)
  · intro hmem
    exact ⟨⟨p, s⟩, hmem, if_pos rfl⟩

theorem offered_congr {calls calls' : List ReplayCall} (h : ∀ call, call ∈ calls ↔ call ∈ calls')
    (p : Pair) : offered p calls = offered p calls' := by
  ext s
  rw [mem_offered, mem_offered]
  exact h ⟨p, s⟩

/-- The history of a pair is empty iff nothing was offered for it: the first offer is accepted. -/
theorem history_nonempty_iff {windowSize : ℤ} (hW : 0 < windowSize) (calls : List ReplayCall)
    (p : Pair) : (history windowSize calls p).Nonempty ↔ (offered p calls).Nonempty :=
  ⟨fun h => h.mono (offers_subset_toFinset windowSize (sequencesOf p calls)), offers_nonempty hW⟩

/-- Offers that were refused leave no trace, and accepted ones none that their refusal would not. -/
theorem ReplayState.ofHistory_history {windowSize : ℤ} (hW : 0 < windowSize)
    (calls : List ReplayCall) (p : Pair) :
    ReplayState.ofHistory windowSize (history windowSize calls p) =
      ReplayState.ofHistory windowSize (offered p calls) := by
  rcases (offered p calls).eq_empty_or_nonempty with hempty | hne
  · have hhistory : history windowSize calls p = ∅ := by
      rw [← Finset.not_nonempty_iff_eq_empty, history_nonempty_iff hW, hempty]
      exact Finset.not_nonempty_empty
    rw [hempty, hhistory]
  · have hhistory : (history windowSize calls p).Nonempty := offers_nonempty hW hne
    rw [ReplayState.ofHistory_of_nonempty hhistory, ReplayState.ofHistory_of_nonempty hne]
    have hmax : (history windowSize calls p).max' hhistory = (offered p calls).max' hne :=
      max'_offers hW hne
    have hrecent : recent windowSize (history windowSize calls p) =
        recent windowSize (offered p calls) := recent_offers hW (sequencesOf p calls)
    rw [hmax, hrecent]

/-- **The state in closed form.** After any calls on a fresh window, a pair has an entry iff something
    was offered for it, and the entry is that of the set of all its offers. -/
theorem ReplayWindow.lookup_final {window : ReplayWindow} (hfresh : window.states = ∅)
    {calls : List ReplayCall} (hcalls : ∀ call ∈ calls, 0 ≤ call.sequence) (p : Pair) :
    (Machine.final ReplayWindow.checkAndUpdate window calls).states.lookup p =
      if (offered p calls).Nonempty then
        some (ReplayState.ofHistory window.windowSize (offered p calls))
      else none := by
  have htracks := ReplayWindow.tracks_final hfresh hcalls
  have hmem := htracks.mem p
  have hstate := htracks.state p
  rw [history_nonempty_iff window.windowSize_pos] at hmem
  rw [ReplayWindow.windowSize_final, ReplayState.ofHistory_history window.windowSize_pos] at hstate
  by_cases hne : (offered p calls).Nonempty
  · obtain ⟨state, hlookup⟩ := Finmap.mem_iff.1 (hmem.2 hne)
    rw [hlookup, Option.getD_some] at hstate
    rw [if_pos hne, hlookup, hstate]
  · rw [if_neg hne, Finmap.lookup_eq_none]
    exact fun h => hne (hmem.1 h)

/-! ## Order and repetition -/

theorem ReplayWindow.eq_of_states_eq {window window' : ReplayWindow}
    (hsize : window.windowSize = window'.windowSize) (hstates : window.states = window'.states) :
    window = window' := by
  obtain ⟨size, states, hpos⟩ := window
  obtain ⟨size', states', hpos'⟩ := window'
  obtain rfl : size = size' := hsize
  obtain rfl : states = states' := hstates
  rfl

/-- **Order and multiplicity are forgotten.** Two lists of calls with sequences `≥ 0` that contain the
    same calls, in any order and number, leave the same states; the entry of a pair holds the greatest
    sequence offered for it and the offered sequences above the cutoff; and all later calls get the same
    answers. -/
theorem replayWindow_order_irrelevant (windowSize : ℤ) (hW : 1 ≤ windowSize)
    (calls calls' : List ReplayCall) (hcalls : ∀ call ∈ calls, 0 ≤ call.sequence)
    (hsame : ∀ call, call ∈ calls ↔ call ∈ calls') :
    ∃ window, ReplayWindow.init windowSize = .ok window ∧
      (Machine.final ReplayWindow.checkAndUpdate window calls).states =
        (Machine.final ReplayWindow.checkAndUpdate window calls').states ∧
      (∀ p, ∀ hne : (offered p calls).Nonempty,
        (Machine.final ReplayWindow.checkAndUpdate window calls).states.lookup p =
          some ⟨(offered p calls).max' hne,
            {s ∈ offered p calls | (offered p calls).max' hne - windowSize < s}⟩) ∧
      (∀ p, offered p calls = ∅ →
        (Machine.final ReplayWindow.checkAndUpdate window calls).states.lookup p = none) ∧
      ∀ later,
        Machine.outputs ReplayWindow.checkAndUpdate
            (Machine.final ReplayWindow.checkAndUpdate window calls) later =
          Machine.outputs ReplayWindow.checkAndUpdate
            (Machine.final ReplayWindow.checkAndUpdate window calls') later := by
  have hpos : ¬ windowSize ≤ 0 := by omega
  have hcalls' : ∀ call ∈ calls', 0 ≤ call.sequence := fun call h => hcalls call ((hsame call).2 h)
  refine ⟨⟨windowSize, ∅, by omega⟩, dif_neg hpos, ?_⟩
  generalize hwindow : (⟨windowSize, ∅, by omega⟩ : ReplayWindow) = window
  have hfresh : window.states = ∅ := by rw [← hwindow]
  have hsize : window.windowSize = windowSize := by rw [← hwindow]
  have hstates : (Machine.final ReplayWindow.checkAndUpdate window calls).states =
      (Machine.final ReplayWindow.checkAndUpdate window calls').states := by
    refine Finmap.ext_lookup fun p => ?_
    rw [ReplayWindow.lookup_final hfresh hcalls, ReplayWindow.lookup_final hfresh hcalls',
      offered_congr hsame]
  refine ⟨hstates, ?_, ?_, ?_⟩
  · intro p hne
    have hrecent : recent windowSize (offered p calls) =
        {s ∈ offered p calls | (offered p calls).max' hne - windowSize < s} := by
      ext s
      rw [mem_recent hne, Finset.mem_filter]
    rw [ReplayWindow.lookup_final hfresh hcalls, if_pos hne, hsize,
      ReplayState.ofHistory_of_nonempty hne, hrecent]
  · intro p hempty
    rw [ReplayWindow.lookup_final hfresh hcalls, if_neg]
    rw [hempty]
    exact Finset.not_nonempty_empty
  · intro later
    -- equal sizes and equal states make equal windows
    have hwindows : Machine.final ReplayWindow.checkAndUpdate window calls =
        Machine.final ReplayWindow.checkAndUpdate window calls' := by
      have hsizes := (ReplayWindow.windowSize_final window calls).trans
        (ReplayWindow.windowSize_final window calls').symm
      exact ReplayWindow.eq_of_states_eq hsizes hstates
    rw [hwindows]

/-- The same offers in another order, one of them twice; in the first order `8` is refused. -/
theorem replayWindow_order_irrelevant_three :
    ∃ window, ReplayWindow.init 3 = .ok window ∧
      (Machine.final ReplayWindow.checkAndUpdate window
          [⟨([1], [2]), 20⟩, ⟨([1], [2]), 8⟩, ⟨([1], [2]), 19⟩]).states =
        (Machine.final ReplayWindow.checkAndUpdate window
          [⟨([1], [2]), 8⟩, ⟨([1], [2]), 19⟩, ⟨([1], [2]), 8⟩, ⟨([1], [2]), 20⟩]).states ∧
      (∀ p, ∀ hne : (offered p [⟨([1], [2]), 20⟩, ⟨([1], [2]), 8⟩, ⟨([1], [2]), 19⟩]).Nonempty,
        (Machine.final ReplayWindow.checkAndUpdate window
            [⟨([1], [2]), 20⟩, ⟨([1], [2]), 8⟩, ⟨([1], [2]), 19⟩]).states.lookup p =
          some ⟨(offered p [⟨([1], [2]), 20⟩, ⟨([1], [2]), 8⟩, ⟨([1], [2]), 19⟩]).max' hne,
            {s ∈ offered p [⟨([1], [2]), 20⟩, ⟨([1], [2]), 8⟩, ⟨([1], [2]), 19⟩] |
              (offered p [⟨([1], [2]), 20⟩, ⟨([1], [2]), 8⟩, ⟨([1], [2]), 19⟩]).max' hne - 3 < s}⟩) ∧
      (∀ p, offered p [⟨([1], [2]), 20⟩, ⟨([1], [2]), 8⟩, ⟨([1], [2]), 19⟩] = ∅ →
        (Machine.final ReplayWindow.checkAndUpdate window
          [⟨([1], [2]), 20⟩, ⟨([1], [2]), 8⟩, ⟨([1], [2]), 19⟩]).states.lookup p = none) ∧
      ∀ later,
        Machine.outputs ReplayWindow.checkAndUpdate
            (Machine.final ReplayWindow.checkAndUpdate window
              [⟨([1], [2]), 20⟩, ⟨([1], [2]), 8⟩, ⟨([1], [2]), 19⟩]) later =
          Machine.outputs ReplayWindow.checkAndUpdate
            (Machine.final ReplayWindow.checkAndUpdate window
              [⟨([1], [2]), 8⟩, ⟨([1], [2]), 19⟩, ⟨([1], [2]), 8⟩, ⟨([1], [2]), 20⟩]) later :=
  replayWindow_order_irrelevant 3 (by decide) _ _ (by decide) (by
    intro call
    simp only [List.mem_cons, List.not_mem_nil, or_false]
    tauto)

/-! ## The size of the window -/

/-- Both windows are what the same calls, with sequences `≥ 0`, left of two fresh ones. -/
def SameOffers (small₀ large₀ small large : ReplayWindow) : Prop :=
  ∃ past, (∀ call ∈ past, 0 ≤ call.sequence) ∧
    small = Machine.final ReplayWindow.checkAndUpdate small₀ past ∧
    large = Machine.final ReplayWindow.checkAndUpdate large₀ past

/-- One more call keeps the relation, and the larger window accepts it if the smaller one does. -/
theorem ReplayWindow.relates {small₀ large₀ : ReplayWindow} (hsmall : small₀.states = ∅)
    (hlarge : large₀.states = ∅) (hle : small₀.windowSize ≤ large₀.windowSize) :
    Machine.Relates ReplayWindow.checkAndUpdate ReplayWindow.checkAndUpdate
      (fun call => 0 ≤ call.sequence) (SameOffers small₀ large₀)
      (fun answer answer' => answer = true → answer' = true) where
  next := by
    rintro small large call hcall ⟨past, hpast, rfl, rfl⟩
    refine ⟨past ++ [call], ?_, ?_, ?_⟩
    · intro call' hmem
      rcases List.mem_append.1 hmem with hold | hnew
      · exact hpast call' hold
      · rw [List.mem_singleton.1 hnew]
        exact hcall
    · rw [Machine.final_append]
      rfl
    · rw [Machine.final_append]
      rfl
  output := by
    rintro small large call hcall ⟨past, hpast, rfl, rfl⟩
    rw [(ReplayWindow.tracks_final hsmall hpast).answer hcall,
      (ReplayWindow.tracks_final hlarge hpast).answer hcall, ReplayWindow.windowSize_final,
      ReplayWindow.windowSize_final, decide_eq_true_iff, decide_eq_true_iff]
    exact admits_offers_mono small₀.windowSize_pos hle

/-- `highest_sequence_seen` of a pair, if it has an entry. -/
def ReplayWindow.highest? (self : ReplayWindow) (p : Pair) : Option ℤ :=
  (self.states.lookup p).map ReplayState.highestSequenceSeen

/-- The greatest sequence seen is the greatest one offered, whatever the window size. -/
theorem ReplayWindow.highest?_final {window : ReplayWindow} (hfresh : window.states = ∅)
    {calls : List ReplayCall} (hcalls : ∀ call ∈ calls, 0 ≤ call.sequence) (p : Pair) :
    (Machine.final ReplayWindow.checkAndUpdate window calls).highest? p =
      if hne : (offered p calls).Nonempty then some ((offered p calls).max' hne) else none := by
  unfold ReplayWindow.highest?
  rw [ReplayWindow.lookup_final hfresh hcalls]
  by_cases hne : (offered p calls).Nonempty
  · rw [if_pos hne, dif_pos hne, ReplayState.ofHistory_of_nonempty hne]
    rfl
  · rw [if_neg hne, dif_neg hne]
    rfl

/-- **Enlarging the window only relaxes it.** Of two fresh windows on the same calls with sequences
    `≥ 0`, the larger one accepts every call the smaller one accepts, position by position, and after
    each call the two hold the same `highest_sequence_seen` for every pair. -/
theorem replayWindow_size_monotone (smallSize largeSize : ℤ) (hsmall : 1 ≤ smallSize)
    (hle : smallSize ≤ largeSize) (calls : List ReplayCall)
    (hcalls : ∀ call ∈ calls, 0 ≤ call.sequence) :
    ∃ small large, ReplayWindow.init smallSize = .ok small ∧ ReplayWindow.init largeSize = .ok large ∧
      List.Forall₂ (fun answer answer' => answer = true → answer' = true)
        (Machine.outputs ReplayWindow.checkAndUpdate small calls)
        (Machine.outputs ReplayWindow.checkAndUpdate large calls) ∧
      ∀ before after, calls = before ++ after → ∀ p,
        (Machine.final ReplayWindow.checkAndUpdate small before).highest? p =
          (Machine.final ReplayWindow.checkAndUpdate large before).highest? p := by
  have hsmall₀ : ¬ smallSize ≤ 0 := by omega
  have hlarge₀ : ¬ largeSize ≤ 0 := by omega
  refine ⟨⟨smallSize, ∅, by omega⟩, ⟨largeSize, ∅, by omega⟩, dif_neg hsmall₀, dif_neg hlarge₀,
    ?_, ?_⟩
  · exact ((ReplayWindow.relates rfl rfl hle).run ⟨[], by simp, rfl, rfl⟩ hcalls).2
  · rintro before after rfl p
    have hbefore : ∀ call ∈ before, 0 ≤ call.sequence := fun call h =>
      hcalls call (List.mem_append_left after h)
    rw [ReplayWindow.highest?_final rfl hbefore, ReplayWindow.highest?_final rfl hbefore]

/-- A jump that the window of two prunes behind, and a late sequence only the window of five takes. -/
theorem replayWindow_size_monotone_late :
    ∃ small large, ReplayWindow.init 2 = .ok small ∧ ReplayWindow.init 5 = .ok large ∧
      List.Forall₂ (fun answer answer' => answer = true → answer' = true)
        (Machine.outputs ReplayWindow.checkAndUpdate small
          [⟨([1], [2]), 4⟩, ⟨([1], [2]), 9⟩, ⟨([1], [2]), 6⟩])
        (Machine.outputs ReplayWindow.checkAndUpdate large
          [⟨([1], [2]), 4⟩, ⟨([1], [2]), 9⟩, ⟨([1], [2]), 6⟩]) ∧
      ∀ before after, [⟨([1], [2]), 4⟩, ⟨([1], [2]), 9⟩, ⟨([1], [2]), 6⟩] = before ++ after → ∀ p,
        (Machine.final ReplayWindow.checkAndUpdate small before).highest? p =
          (Machine.final ReplayWindow.checkAndUpdate large before).highest? p :=
  replayWindow_size_monotone 2 5 (by decide) (by decide) _ (by decide)

end PqcSecureComm
