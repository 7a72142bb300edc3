import FpgaPcie.Lib.Transition

/-!
# Runs that refine a specification

A specification relates abstract states by operations. A system refines it when each permitted
step, looked at abstractly, is one of the operation its label stands for; its runs are then
traces of the specification.
-/

namespace FpgaPcie.Refinement

open FpgaPcie.Transition

set_option autoImplicit false

variable {Abstract Operation : Type*}

inductive Trace (spec : Abstract → Operation → Abstract → Prop) :
    Abstract → List Operation → Abstract → Prop where
  | nil (state : Abstract) : Trace spec state [] state
  | cons {before middle after : Abstract} {operation : Operation} {rest : List Operation}
      (first : spec before operation middle) (later : Trace spec middle rest after) :
      Trace spec before (operation :: rest) after

namespace Trace

variable {spec : Abstract → Operation → Abstract → Prop} {before middle after : Abstract}

/-- What every operation of a kind keeps, a trace of such operations keeps. -/
theorem keeps {Kept : Abstract → Prop} {kind : Operation → Prop} {operations : List Operation}
    (trace : Trace spec before operations after)
    (step : ∀ state operation next, kind operation → Kept state → spec state operation next →
      Kept next)
    (all : ∀ operation ∈ operations, kind operation) (start : Kept before) : Kept after := by
  induction trace with
  | nil => exact start
  | cons first _ ih =>
      apply ih
      · exact fun operation member => all operation (List.mem_cons_of_mem _ member)
      · exact step _ _ _ (all _ List.mem_cons_self) start first

end Trace

variable {State Label : Type*} {system : System State Label} {allowed : State → Label → Prop}
  {spec : Abstract → Operation → Abstract → Prop}

/-- One step refined under an invariant is enough for whole runs. -/
theorem run_refines (view : State → Abstract) (meaning : Label → Operation) (Invariant : State → Prop)
    (step : ∀ state label after, Invariant state → allowed state label →
      system.step state label = some after →
        Invariant after ∧ spec (view state) (meaning label) (view after))
    {labels : List Label} {state after : State} (holds : Invariant state)
    (along : system.Along allowed state labels) (run : system.runFrom state labels = some after) :
    Invariant after ∧ Trace spec (view state) (labels.map meaning) (view after) := by
  induction labels generalizing state with
  | nil =>
      cases run
      exact ⟨holds, .nil _⟩
  | cons label rest ih =>
      obtain ⟨middle, first, later⟩ := System.run_from_cons run
      have permitted := (System.along_cons first).mp along
      obtain ⟨kept, operation⟩ := step state label middle holds permitted.1 first
      obtain ⟨end_, trace⟩ := ih kept permitted.2 later
      exact ⟨end_, .cons operation trace⟩

theorem followed_by {Target : Type*} {related : State → Target → Prop} {state : State}
    {step : Option Target} (follows : Option.Rel related (some state) step) :
    ∃ next, step = some next ∧ related state next := by
  cases follows with
  | some kept => exact ⟨_, rfl, kept⟩

theorem following {Target : Type*} {related : State → Target → Prop} {target : Target}
    {step : Option State} (follows : Option.Rel related step (some target)) :
    ∃ next, step = some next ∧ related next target := by
  cases follows with
  | some kept => exact ⟨_, rfl, kept⟩

/-- Steps that another system can follow keep what is reached related to what is reached there. -/
theorem reachable_simulated {abstract : System Abstract Operation} {related : State → Abstract → Prop}
    (start : ∀ state, system.initial state → ∃ image, abstract.initial image ∧ related state image)
    (step : ∀ state image label after, abstract.Reachable image → related state image →
      allowed state label → system.step state label = some after →
        ∃ operation next, abstract.step image operation = some next ∧ related after next)
    {state : State} (reached : system.ReachableUnder allowed state) :
    ∃ image, abstract.Reachable image ∧ related state image := by
  induction reached with
  | start initial =>
      obtain ⟨image, begins, held⟩ := start _ initial
      exact ⟨image, .start begins, held⟩
  | next _ permitted moved ih =>
      obtain ⟨image, reachable, held⟩ := ih
      obtain ⟨operation, next, follows, kept⟩ := step _ _ _ _ reachable held permitted moved
      exact ⟨next, .next reachable trivial follows, kept⟩

end FpgaPcie.Refinement
