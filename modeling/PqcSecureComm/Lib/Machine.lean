import Mathlib

set_option autoImplicit false

/-! # Machines with outputs

A deterministic machine is a function `step : S → I → S × O`. `final` is the state after a list of
inputs and `steps` the record of the run: for every input the state before it and the output it
caused. Each way of reasoning about runs is packaged once: invariants (`final_invariant`, of the state
and the history `observed_invariant`), projection to a machine that takes a step only for some inputs
(`final_filterMap`), two runs on the same inputs related step by step (`Relates.run`, with equal outputs
`Simulates.run`), and unwinding for two runs that differ by inputs an observer cannot notice
(`Unwinds.run`). -/

namespace Machine

variable {S T I J O V : Type}

/-- One step of a run: the state before it, the input and the output. -/
structure Step (S I O : Type) where
  pre : S
  input : I
  output : O

/-- The state after the inputs. -/
def final (step : S → I → S × O) : S → List I → S
  | s, [] => s
  | s, i :: is => final step (step s i).1 is

/-- The steps of the run on the inputs. -/
def steps (step : S → I → S × O) : S → List I → List (Step S I O)
  | _, [] => []
  | s, i :: is => ⟨s, i, (step s i).2⟩ :: steps step (step s i).1 is

/-- The outputs of the run on the inputs. -/
def outputs (step : S → I → S × O) (s : S) (is : List I) : List O :=
  (steps step s is).map Step.output

section Runs

variable (step : S → I → S × O)

@[simp]
theorem final_nil (s : S) : final step s [] = s := rfl

@[simp]
theorem final_cons (s : S) (i : I) (is : List I) :
    final step s (i :: is) = final step (step s i).1 is := rfl

@[simp]
theorem steps_nil (s : S) : steps step s [] = [] := rfl

@[simp]
theorem steps_cons (s : S) (i : I) (is : List I) :
    steps step s (i :: is) = ⟨s, i, (step s i).2⟩ :: steps step (step s i).1 is := rfl

@[simp]
theorem outputs_nil (s : S) : outputs step s [] = [] := rfl

@[simp]
theorem outputs_cons (s : S) (i : I) (is : List I) :
    outputs step s (i :: is) = (step s i).2 :: outputs step (step s i).1 is := rfl

theorem final_append (s : S) (is js : List I) :
    final step s (is ++ js) = final step (final step s is) js := by
  induction is generalizing s with
  | nil => rfl
  | cons i is ih => exact ih (step s i).1

theorem steps_append (s : S) (is js : List I) :
    steps step s (is ++ js) = steps step s is ++ steps step (final step s is) js := by
  induction is generalizing s with
  | nil => rfl
  | cons i is ih => exact congrArg _ (ih (step s i).1)

/-- The steps of a run are those the machine takes behind its prefixes. -/
theorem mem_steps_iff {s : S} {is : List I} {st : Step S I O} :
    st ∈ steps step s is ↔ ∃ before i after, is = before ++ i :: after ∧
      st = ⟨final step s before, i, (step (final step s before) i).2⟩ := by
  refine ⟨?_, ?_⟩
  · induction is generalizing s with
    | nil => exact fun h => absurd h List.not_mem_nil
    | cons i is ih =>
        intro h
        rcases List.mem_cons.1 h with rfl | hrest
        · exact ⟨[], i, is, rfl, rfl⟩
        · obtain ⟨before, j, after, rfl, rfl⟩ := ih hrest
          exact ⟨i :: before, j, after, rfl, rfl⟩
  · rintro ⟨before, i, after, rfl, rfl⟩
    rw [steps_append]
    exact List.mem_append_right _ List.mem_cons_self

/-- What one step preserves, a run preserves. -/
theorem final_invariant {P : S → Prop} {Q : I → Prop} (hstep : ∀ s i, Q i → P s → P (step s i).1)
    {s : S} {is : List I} (his : ∀ i ∈ is, Q i) (hs : P s) : P (final step s is) := by
  induction is generalizing s with
  | nil => exact hs
  | cons i is ih =>
      exact ih (fun j hj => his j (List.mem_cons_of_mem i hj))
        (hstep s i (his i List.mem_cons_self) hs)

/-- What one step preserves of the state and of everything observed so far, a run preserves. -/
theorem observed_invariant {P : S → List V → Prop} (observe : O → List V)
    (hstep : ∀ s vs i, P s vs → P (step s i).1 (vs ++ observe (step s i).2)) {s : S} {vs : List V}
    (hs : P s vs) (is : List I) :
    P (final step s is) (vs ++ (outputs step s is).flatMap observe) := by
  induction is generalizing s vs with
  | nil => rwa [outputs_nil, List.flatMap_nil, List.append_nil]
  | cons i is ih =>
      rw [outputs_cons, List.flatMap_cons, ← List.append_assoc]
      exact ih (hstep s vs i hs)

/-- Every step of a run starts in a state of the invariant and outputs what the machine does there. -/
theorem of_mem_steps {P : S → Prop} (hstep : ∀ s i, P s → P (step s i).1) {s : S} (hs : P s)
    {is : List I} {st : Step S I O} (h : st ∈ steps step s is) :
    P st.pre ∧ st.output = (step st.pre st.input).2 := by
  induction is generalizing s with
  | nil => exact absurd h List.not_mem_nil
  | cons i is ih =>
      rcases List.mem_cons.1 h with rfl | hrest
      · exact ⟨hs, rfl⟩
      · exact ih (hstep s i hs) hrest

/-- A place in a longer history is one of the shorter history or the last. -/
theorem concat_eq_append_cons_iff {is before after : List I} {i j : I} :
    is ++ [i] = before ++ j :: after ↔
      (∃ rest, after = rest ++ [i] ∧ is = before ++ j :: rest) ∨
        after = [] ∧ before = is ∧ j = i := by
  refine ⟨fun hsplit => ?_, ?_⟩
  · rcases List.eq_nil_or_concat after with rfl | ⟨rest, last, rfl⟩
    · obtain ⟨rfl, rfl⟩ := List.append_singleton_inj.1 hsplit
      exact Or.inr ⟨rfl, rfl, rfl⟩
    · rw [List.concat_eq_append, ← List.cons_append, ← List.append_assoc] at hsplit
      obtain ⟨rfl, rfl⟩ := List.append_singleton_inj.1 hsplit
      exact Or.inl ⟨rest, List.concat_eq_append, rfl⟩
  · rintro (⟨rest, rfl, rfl⟩ | ⟨rfl, rfl, rfl⟩)
    · simp
    · rfl

theorem exists_split_concat {is : List I} {i : I} {P : List I → I → Prop} :
    (∃ before input after, is ++ [i] = before ++ input :: after ∧ P before input) ↔
      (∃ before input after, is = before ++ input :: after ∧ P before input) ∨ P is i := by
  refine ⟨?_, ?_⟩
  · rintro ⟨before, input, after, hsplit, hP⟩
    rcases concat_eq_append_cons_iff.1 hsplit with ⟨rest, -, hrest⟩ | ⟨-, rfl, rfl⟩
    · exact Or.inl ⟨before, input, rest, hrest, hP⟩
    · exact Or.inr hP
  · rintro (⟨before, input, after, rfl, hP⟩ | hP)
    · exact ⟨before, input, after ++ [i], by simp, hP⟩
    · exact ⟨is, i, [], rfl, hP⟩

/-- At every place of a history, `P` holds of what was before and what comes there. -/
def Throughout (P : List I → I → Prop) (is : List I) : Prop :=
  ∀ before i after, is = before ++ i :: after → P before i

theorem throughout_nil {P : List I → I → Prop} : Throughout P [] :=
  fun before i after hsplit => absurd hsplit (by simp)

theorem throughout_concat {P : List I → I → Prop} {is : List I} {i : I} :
    Throughout P (is ++ [i]) ↔ Throughout P is ∧ P is i := by
  refine ⟨fun h => ⟨?_, h is i [] rfl⟩, ?_⟩
  · intro before j rest hsplit
    exact h before j (rest ++ [i]) (concat_eq_append_cons_iff.2 (Or.inl ⟨rest, rfl, hsplit⟩))
  · rintro ⟨hall, hlast⟩ before j after hsplit
    rcases concat_eq_append_cons_iff.1 hsplit with ⟨rest, -, hrest⟩ | ⟨-, rfl, rfl⟩
    · exact hall before j rest hrest
    · exact hlast

theorem throughout_cons {P : List I → I → Prop} {is : List I} {i : I} :
    Throughout P (i :: is) ↔ P [] i ∧ Throughout (fun before => P (i :: before)) is := by
  refine ⟨fun h => ⟨h [] i is rfl, ?_⟩, ?_⟩
  · intro before j after hsplit
    exact h (i :: before) j after (congrArg _ hsplit)
  · rintro ⟨hfirst, hrest⟩ before j after hsplit
    cases before with
    | nil =>
        obtain ⟨rfl, -⟩ := List.cons.inj hsplit
        exact hfirst
    | cons b before =>
        obtain ⟨rfl, hsplit'⟩ := List.cons.inj hsplit
        exact hrest before j after hsplit'

end Runs

/-! ## Traces -/

/-- Everything a machine that outputs lists of events brought about, in order. -/
def trace (step : S → I → S × List O) (s : S) (is : List I) : List O :=
  (outputs step s is).flatten

section Traces

variable (step : S → I → S × List O)

@[simp]
theorem trace_nil (s : S) : trace step s [] = [] := rfl

@[simp]
theorem trace_cons (s : S) (i : I) (is : List I) :
    trace step s (i :: is) = (step s i).2 ++ trace step (step s i).1 is := rfl

theorem trace_append (s : S) (is js : List I) :
    trace step s (is ++ js) = trace step s is ++ trace step (final step s is) js := by
  unfold trace outputs
  rw [steps_append, List.map_append, List.flatten_append]

theorem mem_trace_iff {s : S} {is : List I} {o : O} :
    o ∈ trace step s is ↔ ∃ st ∈ steps step s is, o ∈ st.output := by
  unfold trace outputs
  rw [List.mem_flatten]
  simp

/-- Every event of a trace was brought about by a step, before which the events before it happened. -/
theorem exists_step_of_trace_eq {s : S} {is : List I} {pre post : List O} {o : O}
    (h : trace step s is = pre ++ o :: post) :
    ∃ before i after, is = before ++ i :: after ∧
      o ∈ (step (final step s before) i).2 ∧ ∀ o' ∈ trace step s before, o' ∈ pre := by
  induction is generalizing s pre with
  | nil => exact absurd h (by simp)
  | cons i is ih =>
      rw [trace_cons, List.append_eq_append_iff] at h
      rcases h with ⟨rest, rfl, hrest⟩ | ⟨rest, hi, hrest⟩
      · -- the event comes after the first step
        obtain ⟨before, j, after, rfl, hmem, hbefore⟩ := ih hrest
        refine ⟨i :: before, j, after, rfl, hmem, ?_⟩
        intro o' ho'
        rcases List.mem_append.1 ho' with hfirst | hlater
        · exact List.mem_append_left _ hfirst
        · exact List.mem_append_right _ (hbefore o' hlater)
      · -- the event is the first one after `pre`, which is cut within or right behind the first step
        cases rest with
        | nil =>
            have hrest' : trace step (step s i).1 is = [] ++ o :: post := hrest.symm
            obtain ⟨before, j, after, rfl, hmem, hbefore⟩ := ih hrest'
            refine ⟨i :: before, j, after, rfl, hmem, ?_⟩
            intro o' ho'
            rcases List.mem_append.1 ho' with hfirst | hlater
            · rwa [hi, List.append_nil] at hfirst
            · exact absurd (hbefore o' hlater) List.not_mem_nil
        | cons o' rest =>
            obtain ⟨rfl, -⟩ := List.cons.inj hrest
            refine ⟨[], i, is, rfl, ?_, fun o' ho' => absurd ho' List.not_mem_nil⟩
            rw [final_nil, hi]
            exact List.mem_append_right _ List.mem_cons_self

end Traces

/-! ## Projection -/

/-- If, in the states of an invariant, the view moves like `step'` on the inputs that are calls and
    not at all on the others, then the run projects to the run of `step'` on the calls. -/
theorem final_filterMap {O' : Type} {step : S → I → S × O} {step' : T → J → T × O'}
    (Inv : S → Prop) (view : S → T) (call : I → Option J)
    (hinv : ∀ s i, Inv s → Inv (step s i).1)
    (hcall : ∀ s i j, Inv s → call i = some j → view (step s i).1 = (step' (view s) j).1)
    (hskip : ∀ s i, Inv s → call i = none → view (step s i).1 = view s)
    {s : S} (hs : Inv s) (is : List I) :
    view (final step s is) = final step' (view s) (is.filterMap call) := by
  induction is generalizing s with
  | nil => rfl
  | cons i is ih =>
      rw [final_cons, ih (hinv s i hs)]
      cases hi : call i with
      | none => rw [List.filterMap_cons_none hi, hskip s i hs hi]
      | some j => rw [List.filterMap_cons_some hi, final_cons, hcall s i j hs hi]

/-! ## Related runs -/

/-- `R` is preserved by equal inputs satisfying `Q`, and related states give outputs related by
    `Out`. -/
structure Relates {O' : Type} (step : S → I → S × O) (step' : T → I → T × O') (Q : I → Prop)
    (R : S → T → Prop) (Out : O → O' → Prop) : Prop where
  next : ∀ s t i, Q i → R s t → R (step s i).1 (step' t i).1
  output : ∀ s t i, Q i → R s t → Out (step s i).2 (step' t i).2

theorem Relates.run {O' : Type} {step : S → I → S × O} {step' : T → I → T × O'} {Q : I → Prop}
    {R : S → T → Prop} {Out : O → O' → Prop} (h : Relates step step' Q R Out) {s : S} {t : T}
    (hst : R s t) {is : List I} (his : ∀ i ∈ is, Q i) :
    R (final step s is) (final step' t is) ∧
      List.Forall₂ Out (outputs step s is) (outputs step' t is) := by
  induction is generalizing s t with
  | nil => exact ⟨hst, List.Forall₂.nil⟩
  | cons i is ih =>
      have hi : Q i := his i List.mem_cons_self
      obtain ⟨hfinal, houts⟩ := ih (h.next s t i hi hst) fun j hj => his j (List.mem_cons_of_mem i hj)
      exact ⟨hfinal, List.Forall₂.cons (h.output s t i hi hst) houts⟩

/-! ## Simulation -/

/-- `R` is preserved by equal inputs satisfying `Q`, and related states give equal outputs. -/
structure Simulates (step : S → I → S × O) (step' : T → I → T × O) (Q : I → Prop)
    (R : S → T → Prop) : Prop where
  next : ∀ s t i, Q i → R s t → R (step s i).1 (step' t i).1
  output : ∀ s t i, Q i → R s t → (step s i).2 = (step' t i).2

theorem Simulates.run {step : S → I → S × O} {step' : T → I → T × O} {Q : I → Prop}
    {R : S → T → Prop} (h : Simulates step step' Q R) {s : S} {t : T} (hst : R s t) {is : List I}
    (his : ∀ i ∈ is, Q i) :
    R (final step s is) (final step' t is) ∧ outputs step s is = outputs step' t is := by
  have hrelates : Relates step step' Q R Eq := ⟨h.next, h.output⟩
  obtain ⟨hfinal, houts⟩ := hrelates.run hst his
  exact ⟨hfinal, List.forall₂_eq_eq_eq ▸ houts⟩

/-! ## Refinement -/

/-- If every step of a run can be answered by a run of the other machine that looks the same, then so can
    the whole run. `R` relates what happened so far to the state of the other machine. -/
theorem exists_run_of_answers {step : S → I → S × List O} {step' : T → J → T × List V}
    (observe : O → Option V) {R : List I → T → Prop} {s : S} {t : T} (ht : R [] t) {is : List I}
    (hstep : ∀ before i after t, is = before ++ i :: after → R before t →
      ∃ js, R (before ++ [i]) (final step' t js) ∧
        trace step' t js = (step (final step s before) i).2.filterMap observe) :
    ∃ js, R is (final step' t js) ∧ trace step' t js = (trace step s is).filterMap observe := by
  induction is using List.reverseRecOn with
  | nil => exact ⟨[], ht, rfl⟩
  | append_singleton is i ih =>
      obtain ⟨js, hR, htrace⟩ := ih fun before j after t hsplit =>
        hstep before j (after ++ [i]) t (by rw [hsplit, List.append_assoc, List.cons_append])
      obtain ⟨ks, hR', hlast⟩ := hstep is i [] _ rfl hR
      refine ⟨js ++ ks, ?_, ?_⟩
      · rwa [final_append]
      · rw [trace_append, htrace, hlast, trace_append, List.filterMap_append, trace_cons, trace_nil,
          List.append_nil]

/-! ## Unwinding -/

/-- `keep` tells apart the inputs an observer with the given view can notice: in the states of the
    invariant, the others leave the view as it is, and after a kept input view and output depend on
    the view before it. -/
structure Unwinds (step : S → I → S × O) (Inv : S → Prop) (view : S → V) (keep : I → Prop) :
    Prop where
  inv : ∀ s i, Inv s → Inv (step s i).1
  skip : ∀ s i, Inv s → ¬ keep i → view (step s i).1 = view s
  next : ∀ s t i, Inv s → Inv t → keep i → view s = view t → view (step s i).1 = view (step t i).1
  output : ∀ s t i, Inv s → Inv t → keep i → view s = view t → (step s i).2 = (step t i).2

/-- Deleting unnoticeable inputs changes neither the final view nor the output of any other input. -/
theorem Unwinds.run {step : S → I → S × O} {Inv : S → Prop} {view : S → V} {keep : I → Prop}
    [DecidablePred keep] (h : Unwinds step Inv view keep) {s t : S} (hs : Inv s) (ht : Inv t)
    (hst : view s = view t) (is : List I) :
    view (final step s is) = view (final step t (is.filter keep)) ∧
      ((steps step s is).filter fun st => keep st.input).map Step.output =
        outputs step t (is.filter keep) := by
  induction is generalizing s t with
  | nil => exact ⟨hst, rfl⟩
  | cons i is ih =>
      by_cases hi : keep i
      · obtain ⟨hview, houts⟩ := ih (h.inv s i hs) (h.inv t i ht) (h.next s t i hs ht hi hst)
        rw [List.filter_cons_of_pos (by simpa using hi), steps_cons,
          List.filter_cons_of_pos (by simpa using hi)]
        refine ⟨hview, ?_⟩
        rw [List.map_cons, outputs_cons, houts, h.output s t i hs ht hi hst]
      · obtain ⟨hview, houts⟩ := ih (h.inv s i hs) ht ((h.skip s i hs hi).trans hst)
        rw [List.filter_cons_of_neg (by simpa using hi), steps_cons,
          List.filter_cons_of_neg (by simpa using hi)]
        exact ⟨hview, houts⟩

end Machine
