import PqcSecureComm.Lib.Machine
import PqcSecureComm.Lib.SlidingWindow

set_option autoImplicit false

/-! # A channel that can only be scheduled

What an authenticated channel with a sliding window is meant to be. Its sender puts in items, each with a
number and a deadline; a scheduler picks which one is to come out next, as often as it likes, in any
order, however late, and may drop what it has picked. It can make up nothing. An item comes out if its
deadline has not passed and the window admits its number. -/

namespace FreshChannel

open SlidingWindow

variable {α G : Type} [AddCommGroup G] [LinearOrder G]

structure Item (α G : Type) where
  payload : α
  number : G
  deadline : G
  deriving DecidableEq, Repr

/-- What was sent, and the numbers the window has taken. -/
structure State (α G : Type) where
  sent : List (Item α G)
  taken : Finset G

def State.empty : State α G := ⟨[], ∅⟩

inductive Act (α G : Type)
  | send (item : Item α G)
  | pick (k : ℕ) (now : G) (drop : Bool)

/-- What can be seen of the channel. -/
inductive Obs (α G : Type)
  | sent (item : Item α G)
  | delivered (item : Item α G) (now : G)
  deriving DecidableEq, Repr

def step (W : G) (self : State α G) : Act α G → State α G × List (Obs α G)
  | .send item => (⟨self.sent ++ [item], self.taken⟩, [.sent item])
  | .pick k now drop =>
    match self.sent[k]? with
    | none => (self, [])
    | some item =>
      if now ≤ item.deadline ∧ Admits W self.taken item.number then
        (⟨self.sent, insert item.number self.taken⟩, if drop then [] else [.delivered item now])
      else (self, [])

/-- Sending a list of items. -/
theorem run_sends (W : G) (self : State α G) (items : List (Item α G)) :
    Machine.final (step W) self (items.map .send) = ⟨self.sent ++ items, self.taken⟩ ∧
      Machine.trace (step W) self (items.map .send) = items.map .sent := by
  induction items generalizing self with
  | nil => exact ⟨by rw [List.append_nil]; rfl, rfl⟩
  | cons item items ih =>
      obtain ⟨hfinal, htrace⟩ := ih ⟨self.sent ++ [item], self.taken⟩
      rw [List.map_cons, Machine.final_cons, Machine.trace_cons, List.map_cons]
      refine ⟨hfinal.trans ?_, congrArg _ htrace⟩
      rw [List.append_assoc]
      rfl

theorem step_pick_of_admits {W : G} {self : State α G} {k : ℕ} {item : Item α G}
    (hitem : self.sent[k]? = some item) {now : G} (htime : now ≤ item.deadline)
    (hadmits : Admits W self.taken item.number) (drop : Bool) :
    step W self (.pick k now drop) =
      (⟨self.sent, insert item.number self.taken⟩, if drop then [] else [.delivered item now]) := by
  simp only [step, hitem]
  exact if_pos ⟨htime, hadmits⟩

/-- A pick is in vain, or takes an item that is in time and admitted. -/
theorem step_pick_cases (W : G) (self : State α G) (k : ℕ) (now : G) (drop : Bool) :
    step W self (.pick k now drop) = (self, []) ∨
    ∃ item ∈ self.sent, now ≤ item.deadline ∧ Admits W self.taken item.number ∧
      step W self (.pick k now drop) =
        (⟨self.sent, insert item.number self.taken⟩, if drop then [] else [.delivered item now]) := by
  cases hitem : self.sent[k]? with
  | none =>
      refine Or.inl ?_
      simp only [step, hitem]
  | some item =>
      by_cases hand : now ≤ item.deadline ∧ Admits W self.taken item.number
      · exact Or.inr ⟨item, List.mem_of_getElem? hitem, hand.1, hand.2,
          step_pick_of_admits hitem hand.1 hand.2 drop⟩
      · refine Or.inl ?_
        simp only [step, hitem]
        exact if_neg hand

/-- What comes out was sent before, is in time, and is neither a repetition nor overtaken by a whole
    window. -/
structure Justified (W : G) (before : List (Obs α G)) (item : Item α G) (now : G) : Prop where
  sent : .sent item ∈ before
  inTime : now ≤ item.deadline
  once : ∀ item' now', .delivered item' now' ∈ before → item'.number ≠ item.number
  inWindow : ∀ item' now', .delivered item' now' ∈ before → item'.number - W < item.number

/-- An observation behind others; only deliveries have to be justified. -/
def Obs.JustifiedBy (W : G) (before : List (Obs α G)) : Obs α G → Prop
  | .sent _ => True
  | .delivered item now => Justified W before item now

/-- The state remembers what was seen. -/
structure Inv (W : G) (channel : State α G) (seen : List (Obs α G)) : Prop where
  sent : ∀ item ∈ channel.sent, .sent item ∈ seen
  taken : ∀ item now, .delivered item now ∈ seen → item.number ∈ channel.taken
  justified : Machine.Throughout (Obs.JustifiedBy W) seen

variable [IsOrderedAddMonoid G]

theorem Inv.step {W : G} {self : State α G} {seen : List (Obs α G)} (h : Inv W self seen)
    (act : Act α G) :
    Inv W (FreshChannel.step W self act).1 (seen ++ (FreshChannel.step W self act).2) := by
  cases act with
  | send item =>
      refine ⟨?_, ?_, Machine.throughout_concat.2 ⟨h.justified, trivial⟩⟩
      · intro item' hitem'
        rcases List.mem_append.1 hitem' with hold | hnew
        · exact List.mem_append_left _ (h.sent item' hold)
        · rw [List.mem_singleton.1 hnew]
          exact List.mem_append_right _ (List.mem_singleton_self _)
      · intro item' now hseen
        rcases List.mem_append.1 hseen with hold | hnew
        · exact h.taken item' now hold
        · exact absurd (List.mem_singleton.1 hnew) (by simp)
  | pick k now drop =>
      rcases step_pick_cases W self k now drop with hvain | ⟨item, hitem, htime, hadmits, htake⟩
      · rw [hvain, List.append_nil]
        exact h
      · rw [htake]
        have htaken : ∀ item' now', Obs.delivered item' now' ∈ seen →
            item'.number ∈ insert item.number self.taken :=
          fun item' now' hseen => Finset.mem_insert_of_mem (h.taken item' now' hseen)
        cases drop with
        | true =>
            rw [if_pos rfl, List.append_nil]
            exact ⟨h.sent, htaken, h.justified⟩
        | false =>
            obtain ⟨hfresh, hcut⟩ := admits_iff.1 hadmits
            refine ⟨?_, ?_, Machine.throughout_concat.2 ⟨h.justified, ?_⟩⟩
            · exact fun item' hitem' => List.mem_append_left _ (h.sent item' hitem')
            · intro item' now' hseen
              rcases List.mem_append.1 hseen with hold | hnew
              · exact htaken item' now' hold
              · obtain ⟨rfl, -⟩ := Obs.delivered.inj (List.mem_singleton.1 hnew)
                exact Finset.mem_insert_self _ _
            · exact {
                sent := h.sent item hitem
                inTime := htime
                once := fun item' now' hseen heq => hfresh (heq ▸ h.taken item' now' hseen)
                inWindow := fun item' now' hseen => hcut _ (h.taken item' now' hseen) }

/-- **Every delivery of every schedule is justified.** -/
theorem justified_trace (W : G) (schedule : List (Act α G)) :
    Machine.Throughout (Obs.JustifiedBy W) (Machine.trace (FreshChannel.step W) .empty schedule) := by
  have hempty : Inv W (State.empty : State α G) [] :=
    ⟨fun item hitem => absurd hitem List.not_mem_nil, fun item now hseen => absurd hseen List.not_mem_nil,
      Machine.throughout_nil⟩
  have hrun := Machine.observed_invariant (FreshChannel.step W) id (fun s seen act hs => hs.step act)
    hempty schedule
  rw [List.nil_append, List.flatMap_id] at hrun
  exact hrun.justified

end FreshChannel
