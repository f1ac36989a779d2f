import Mathlib

set_option autoImplicit false

/-! # Fallible computations and callbacks

`Except` inversion, and the monad of a node's callbacks: a computation that reads and writes the
state of its node, publishes messages in order, and may raise. Unlike a transaction, a raise does
**not** roll back: what was written and published before it stays, and a `tryCatch` around it
resumes from that state. `Callback.run` is the meaning; every primitive has one `run` equation in
the simp set, so a callback is executed symbolically by `simp` and case splits on its calls. -/

/-! ## Inversion for `Except` -/

namespace Fallible

variable {ε α β : Type}

theorem bind_eq_ok {x : Except ε α} {f : α → Except ε β} {b : β} :
    x >>= f = .ok b ↔ ∃ a, x = .ok a ∧ f a = .ok b := by
  cases x with
  | error e => simp [Bind.bind, Except.bind]
  | ok a => simp [Bind.bind, Except.bind]

theorem bind_eq_error {x : Except ε α} {f : α → Except ε β} {e : ε} :
    x >>= f = .error e ↔ x = .error e ∨ ∃ a, x = .ok a ∧ f a = .error e := by
  cases x with
  | error e' => simp [Bind.bind, Except.bind]
  | ok a => simp [Bind.bind, Except.bind]

theorem map_eq_ok {x : Except ε α} {f : α → β} {b : β} :
    f <$> x = .ok b ↔ ∃ a, x = .ok a ∧ f a = b := by
  cases x with
  | error e => simp [Functor.map, Except.map]
  | ok a => simp [Functor.map, Except.map]

@[simp]
theorem ok_bind (a : α) (f : α → Except ε β) : (Except.ok a >>= f) = f a := rfl

@[simp]
theorem pure_eq_ok {a b : α} : (pure a : Except ε α) = .ok b ↔ a = b := by
  simp [pure, Except.pure]

/-- Raise `fault` if there is one. -/
def check (fault : Option ε) : Except ε Unit :=
  match fault with
  | none => .ok ()
  | some e => .error e

@[simp]
theorem check_eq_ok {fault : Option ε} {u : Unit} : check fault = .ok u ↔ fault = none := by
  cases fault with
  | none => simp [check]
  | some e => simp [check]

/-- The computation raises: it has no value. -/
def Raises (x : Except ε α) : Prop := ∃ e, x = .error e

theorem raises_iff_not_ok {x : Except ε α} : Raises x ↔ ¬ ∃ a, x = .ok a := by
  cases x with
  | error e => simp [Raises]
  | ok a => simp [Raises]

theorem bind_raises_iff {x : Except ε α} {f : α → Except ε β} :
    Raises (x >>= f) ↔ Raises x ∨ ∃ a, x = .ok a ∧ Raises (f a) := by
  cases x with
  | error e => simp [Raises, Bind.bind, Except.bind]
  | ok a => simp [Raises, Bind.bind, Except.bind]

@[simp]
theorem not_raises_pure (a : α) : ¬ Raises (pure a : Except ε α) := by
  rintro ⟨e, he⟩
  exact absurd he (by simp [pure, Except.pure])

/-- What is made of the value does not matter where it cannot raise. -/
theorem bind_pure_raises_iff {x : Except ε α} {f : α → β} :
    Raises (x >>= fun a => pure (f a)) ↔ Raises x := by
  rw [bind_raises_iff]
  simp

/-- A computation on every element raises iff it does on one of them. -/
theorem mapM_raises_iff {f : α → Except ε β} {as : List α} :
    Raises (as.mapM f) ↔ ∃ a ∈ as, Raises (f a) := by
  induction as with
  | nil => simp
  | cons a as ih =>
      rw [List.mapM_cons, bind_raises_iff, List.exists_mem_cons_iff, ← ih]
      simp only [bind_pure_raises_iff]
      cases ha : f a with
      | error e => simp [Raises]
      | ok b => simp [Raises]

end Fallible

/-! ## Loops -/

namespace Fallible

variable {ε α β σ : Type}

/-- A loop that computes something from every element and puts it into the state succeeds iff all the
    computations do. -/
theorem foldlM_eq_ok {f : α → Except ε β} {put : σ → β → σ} {s s' : σ} {as : List α} :
    as.foldlM (fun s a => put s <$> f a) s = .ok s' ↔
      ∃ bs, List.Forall₂ (fun a b => f a = .ok b) as bs ∧ bs.foldl put s = s' := by
  induction as generalizing s with
  | nil =>
      rw [List.foldlM_nil, pure_eq_ok]
      refine ⟨fun h => ⟨[], List.Forall₂.nil, h⟩, ?_⟩
      rintro ⟨bs, hbs, rfl⟩
      rw [List.forall₂_nil_left_iff.1 hbs, List.foldl_nil]
  | cons a as ih =>
      rw [List.foldlM_cons, bind_eq_ok]
      refine ⟨?_, ?_⟩
      · rintro ⟨s₁, hs₁, hrest⟩
        obtain ⟨b, hb, rfl⟩ := map_eq_ok.1 hs₁
        obtain ⟨bs, hbs, rfl⟩ := ih.1 hrest
        exact ⟨b :: bs, List.Forall₂.cons hb hbs, rfl⟩
      · rintro ⟨bs, hbs, rfl⟩
        obtain ⟨b, bs', hb, hbs', rfl⟩ := List.forall₂_cons_left_iff.1 hbs
        exact ⟨put s b, map_eq_ok.2 ⟨b, hb, rfl⟩, ih.2 ⟨bs', hbs', rfl⟩⟩

/-- It raises what the first computation to raise does. -/
theorem foldlM_eq_error {f : α → Except ε β} {put : σ → β → σ} {s : σ} {as : List α} {e : ε} :
    as.foldlM (fun s a => put s <$> f a) s = .error e ↔
      ∃ before a after, as = before ++ a :: after ∧ (∀ a' ∈ before, ∃ b, f a' = .ok b) ∧
        f a = .error e := by
  induction as generalizing s with
  | nil =>
      refine iff_of_false (by simp [pure, Except.pure]) ?_
      rintro ⟨before, a, after, hsplit, -⟩
      exact absurd hsplit (by simp)
  | cons a as ih =>
      rw [List.foldlM_cons]
      cases ha : f a with
      | error e' =>
          show (Except.error e' : Except ε σ) = .error e ↔ _
          rw [Except.error.injEq]
          refine ⟨?_, ?_⟩
          · rintro rfl
            exact ⟨[], a, as, rfl, by simp, ha⟩
          rintro ⟨before, a', after, hsplit, hbefore, hraise⟩
          cases before with
          | nil =>
              obtain ⟨rfl, -⟩ := List.cons.inj hsplit
              exact Except.error.inj (ha.symm.trans hraise)
          | cons a'' before =>
              obtain ⟨rfl, -⟩ := List.cons.inj hsplit
              obtain ⟨b, hb⟩ := hbefore a List.mem_cons_self
              rw [ha] at hb
              exact absurd hb (by simp)
      | ok b =>
          have hstep : (put s <$> (Except.ok b : Except ε β)) = .ok (put s b) := rfl
          rw [hstep, ok_bind, ih]
          refine ⟨?_, ?_⟩
          · rintro ⟨before, a', after, rfl, hbefore, hraise⟩
            refine ⟨a :: before, a', after, rfl, ?_, hraise⟩
            intro a'' hmem
            rcases List.mem_cons.1 hmem with rfl | hrest
            · exact ⟨b, ha⟩
            · exact hbefore a'' hrest
          · rintro ⟨before, a', after, hsplit, hbefore, hraise⟩
            cases before with
            | nil =>
                obtain ⟨rfl, -⟩ := List.cons.inj hsplit
                rw [ha] at hraise
                exact absurd hraise (by simp)
            | cons a'' before =>
                obtain ⟨rfl, rfl⟩ := List.cons.inj hsplit
                exact ⟨before, a', after, rfl,
                  fun a₁ h₁ => hbefore a₁ (List.mem_cons_of_mem a h₁), hraise⟩

end Fallible

/-! ## Callbacks -/

/-- A computation on a node with state `σ` that publishes messages `ω` and may raise an `ε`. -/
abbrev Callback (σ ω ε : Type) := ExceptT ε (StateM (σ × List ω))

namespace Callback

variable {σ ω ε α β : Type}

/-- Run from node state `s` with `out` already published: the result, the new state and everything
    published so far. -/
def run (c : Callback σ ω ε α) (s : σ) (out : List ω) : Except ε α × σ × List ω :=
  Id.run (StateT.run (ExceptT.run c) (s, out))

/-- The state of the node. -/
def node : Callback σ ω ε σ := do
  let s ← get
  pure s.1

/-- Update the state of the node. -/
def modifyNode (f : σ → σ) : Callback σ ω ε Unit := modify fun s => (f s.1, s.2)

/-- Publish one message. -/
def publish (o : ω) : Callback σ ω ε Unit := modify fun s => (s.1, s.2 ++ [o])

/-- A call whose result or exception is already known. -/
def call (r : Except ε α) : Callback σ ω ε α :=
  match r with
  | .ok a => pure a
  | .error e => throw e

/-- Raise `fault` if there is one. -/
def raiseIf (fault : Option ε) : Callback σ ω ε Unit :=
  match fault with
  | none => pure ()
  | some e => throw e

@[simp]
theorem run_pure (a : α) (s : σ) (out : List ω) :
    run (pure a : Callback σ ω ε α) s out = (.ok a, s, out) := rfl

@[simp]
theorem run_throw (e : ε) (s : σ) (out : List ω) :
    run (throw e : Callback σ ω ε α) s out = (.error e, s, out) := rfl

/-- Sequencing: a raise skips the rest but keeps state and publications. -/
theorem run_bind (c : Callback σ ω ε α) (f : α → Callback σ ω ε β) (s : σ) (out : List ω) :
    run (c >>= f) s out =
      match run c s out with
      | (.ok a, s', out') => run (f a) s' out'
      | (.error e, s', out') => (.error e, s', out') := by
  simp only [run, ExceptT.run_bind, StateT.run_bind, Id.run_bind]
  rcases Id.run (StateT.run (ExceptT.run c) (s, out)) with ⟨_ | _, _, _⟩ <;> rfl

/-- The handler resumes from the state and publications the raise left behind. -/
theorem run_tryCatch (c : Callback σ ω ε α) (handler : ε → Callback σ ω ε α) (s : σ)
    (out : List ω) :
    run (tryCatch c handler) s out =
      match run c s out with
      | (.ok a, s', out') => (.ok a, s', out')
      | (.error e, s', out') => run (handler e) s' out' := by
  change Id.run (StateT.run (ExceptT.run (ExceptT.tryCatch c handler)) (s, out)) = _
  simp only [ExceptT.tryCatch, ExceptT.run_mk, StateT.run_bind, Id.run_bind]
  change (fun q : Except ε α × σ × List ω => Id.run (StateT.run (match q.1 with
    | .ok a => pure (.ok a)
    | .error e => ExceptT.run (handler e)) q.2)) (run c s out) = _
  rcases run c s out with ⟨_ | _, _, _⟩ <;> rfl

@[simp]
theorem run_node (s : σ) (out : List ω) :
    run (node : Callback σ ω ε σ) s out = (.ok s, s, out) := rfl

@[simp]
theorem run_modifyNode (f : σ → σ) (s : σ) (out : List ω) :
    run (modifyNode f : Callback σ ω ε Unit) s out = (.ok (), f s, out) := rfl

@[simp]
theorem run_publish (o : ω) (s : σ) (out : List ω) :
    run (publish o : Callback σ ω ε Unit) s out = (.ok (), s, out ++ [o]) := rfl

@[simp]
theorem run_call (r : Except ε α) (s : σ) (out : List ω) :
    run (call r : Callback σ ω ε α) s out = (r, s, out) := by
  cases r with
  | error e => exact run_throw e s out
  | ok a => exact run_pure a s out

@[simp]
theorem run_raiseIf_none (s : σ) (out : List ω) :
    run (raiseIf none : Callback σ ω ε Unit) s out = (.ok (), s, out) := run_pure () s out

@[simp]
theorem run_raiseIf_some (e : ε) (s : σ) (out : List ω) :
    run (raiseIf (some e) : Callback σ ω ε Unit) s out = (.error e, s, out) := run_throw e s out

@[simp]
theorem run_call_bind (r : Except ε α) (f : α → Callback σ ω ε β) (s : σ) (out : List ω) :
    run (call r >>= f) s out =
      match r with
      | .ok a => run (f a) s out
      | .error e => (.error e, s, out) := by
  rw [run_bind, run_call]
  cases r <;> rfl

@[simp]
theorem run_raiseIf_bind (fault : Option ε) (f : Unit → Callback σ ω ε β) (s : σ) (out : List ω) :
    run (raiseIf fault >>= f) s out =
      match fault with
      | none => run (f ()) s out
      | some e => (.error e, s, out) := by
  cases fault with
  | none => rw [run_bind, run_raiseIf_none]
  | some e => rw [run_bind, run_raiseIf_some]

@[simp]
theorem run_node_bind (f : σ → Callback σ ω ε β) (s : σ) (out : List ω) :
    run (node >>= f) s out = run (f s) s out := by
  rw [run_bind, run_node]

@[simp]
theorem run_modifyNode_bind (g : σ → σ) (f : Unit → Callback σ ω ε β) (s : σ) (out : List ω) :
    run (modifyNode g >>= f) s out = run (f ()) (g s) out := by
  rw [run_bind, run_modifyNode]

@[simp]
theorem run_publish_bind (o : ω) (f : Unit → Callback σ ω ε β) (s : σ) (out : List ω) :
    run (publish o >>= f) s out = run (f ()) s (out ++ [o]) := by
  rw [run_bind, run_publish]

/-! ## Reactions -/

/-- What a callback shows to the outside: whether it raised, and what it published. -/
structure Reaction (ω ε : Type) where
  outcome : Except ε Unit
  published : List ω

/-- Take the callback in node state `s`. -/
def react (c : Callback σ ω ε Unit) (s : σ) : σ × Reaction ω ε :=
  let result := run c s []
  (result.2.1, ⟨result.1, result.2.2⟩)

end Callback
