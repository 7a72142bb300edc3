import Mathlib.Logic.Basic
import Mathlib.Data.List.Basic

/-!
# Parts that do not meet

A system is used by several parts, each call by one of them. What a part sees of a state is
given by when two states agree for it. If a call does the same in states that agree for its
part, and keeps what the other parts see, then each part sees of a run what it would see of
its own calls alone.
-/

namespace FpgaPcie.Interleaving

set_option autoImplicit false

variable {State Label Output Part : Type*}

/-- A run with what each of its calls gave; `none` if one of them is not defined. -/
def runAll (step : State → Label → Option (State × Output)) :
    State → List Label → Option (State × List (Label × Output))
  | state, [] => some (state, [])
  | state, label :: rest =>
      match step state label with
      | none => none
      | some (middle, output) =>
          (runAll step middle rest).map fun (after, outputs) => (after, (label, output) :: outputs)

structure Separated (step : State → Label → Option (State × Output)) (part : Label → Part)
    (Invariant : State → Prop) (Allowed : Label → Prop) (agrees : Part → State → State → Prop) :
    Prop where
  keeps : ∀ {state after label output}, Invariant state → Allowed label →
    step state label = some (after, output) → Invariant after
  own : ∀ {state other after label output}, Invariant state → Allowed label →
    agrees (part label) state other → step state label = some (after, output) →
      ∃ alone, step other label = some (alone, output) ∧ agrees (part label) after alone
  others : ∀ {state other after label output watcher}, Invariant state → Allowed label →
    part label ≠ watcher → agrees watcher state other → step state label = some (after, output) →
      agrees watcher after other

section Runs

variable {step : State → Label → Option (State × Output)} {part : Label → Part}
variable {Invariant : State → Prop} {Allowed : Label → Prop}
variable {agrees : Part → State → State → Prop} [DecidableEq Part]

theorem Separated.run (separated : Separated step part Invariant Allowed agrees) (watcher : Part)
    {state other after : State} {labels : List Label} {outputs : List (Label × Output)}
    (holds : Invariant state) (allowed : ∀ label ∈ labels, Allowed label)
    (same : agrees watcher state other) (ran : runAll step state labels = some (after, outputs)) :
    ∃ alone, runAll step other (labels.filter fun label => part label = watcher) =
        some (alone, outputs.filter fun given => part given.1 = watcher) ∧
      agrees watcher after alone := by
  induction labels generalizing state other outputs with
  | nil =>
      cases ran
      exact ⟨other, rfl, same⟩
  | cons label rest ih =>
      rw [runAll] at ran
      have first := allowed label List.mem_cons_self
      have later : ∀ label ∈ rest, Allowed label := fun other member =>
        allowed other (List.mem_cons_of_mem label member)
      cases stepped : step state label with
      | none => simp [stepped] at ran
      | some pair =>
          obtain ⟨middle, output⟩ := pair
          simp only [stepped] at ran
          obtain ⟨⟨reached, given⟩, continued, ended⟩ := Option.map_eq_some_iff.mp ran
          cases ended
          have kept := separated.keeps holds first stepped
          by_cases own : part label = watcher
          · subst own
            obtain ⟨beside, alike, agreed⟩ := separated.own holds first same stepped
            obtain ⟨alone, filtered, final⟩ := ih kept later agreed continued
            refine ⟨alone, ?_, final⟩
            simp only [List.filter_cons, decide_true, if_true, runAll, alike, filtered,
              Option.map_some]
          · have agreed := separated.others holds first own same stepped
            obtain ⟨alone, filtered, final⟩ := ih kept later agreed continued
            refine ⟨alone, ?_, final⟩
            simp only [List.filter_cons, own, decide_false, Bool.false_eq_true, if_false, filtered]

end Runs

end FpgaPcie.Interleaving
