import Mathlib.Logic.Function.Basic

/-!
# Guarded transition systems

A system is a predicate on starting states and an executable guarded step:
`step state label` is `none` where the label is not enabled. Everything the
environment chooses (which thread moves, what a failing call returns, which
address an allocator hands out) travels in the label, so that one definition
serves concrete runs and the induction over all runs alike.
-/

namespace FpgaPcie.Transition

set_option autoImplicit false

structure System (State Label : Type*) where
  initial : State → Prop
  step : State → Label → Option State

namespace System

variable {State Label : Type*} (system : System State Label)

def runFrom (state : State) : List Label → Option State
  | [] => some state
  | label :: rest =>
      match system.step state label with
      | none => none
      | some after => runFrom after rest

/-- States reached by runs whose every step meets `allowed` in the state before
that step. -/
inductive ReachableUnder (allowed : State → Label → Prop) : State → Prop where
  | start {state : State} (initial : system.initial state) : ReachableUnder allowed state
  | next {state after : State} {label : Label} (earlier : ReachableUnder allowed state)
      (permitted : allowed state label) (step : system.step state label = some after) :
      ReachableUnder allowed after

def Reachable : State → Prop := system.ReachableUnder fun _ _ => True

/-- Every step of a run from `state` meets `holds` in the state before it. -/
def Along (holds : State → Label → Prop) : State → List Label → Prop
  | _, [] => True
  | state, label :: rest => holds state label ∧
      ∀ after, system.step state label = some after → Along holds after rest

variable {system}

theorem run_from_cons {state after : State} {label : Label} {rest : List Label}
    (run : system.runFrom state (label :: rest) = some after) :
    ∃ middle, system.step state label = some middle ∧ system.runFrom middle rest = some after := by
  rw [runFrom] at run
  cases step : system.step state label with
  | none => rw [step] at run; cases run
  | some middle =>
      rw [step] at run
      exact ⟨middle, rfl, run⟩

theorem along_cons {holds : State → Label → Prop} {state middle : State} {label : Label}
    {rest : List Label} (step : system.step state label = some middle) :
    system.Along holds state (label :: rest) ↔ holds state label ∧ system.Along holds middle rest := by
  constructor
  · intro along
    exact ⟨along.1, along.2 middle step⟩
  · intro along
    apply And.intro along.1
    intro after same
    rw [step] at same
    cases same
    exact along.2

/-- The induction over runs, packaged once: what holds at the start and is kept by
every permitted step holds in every state reached. -/
theorem invariant_under {allowed : State → Label → Prop} {Invariant : State → Prop}
    (start : ∀ state, system.initial state → Invariant state)
    (keeps : ∀ state label after, Invariant state → allowed state label →
      system.step state label = some after → Invariant after)
    {state : State} (reached : system.ReachableUnder allowed state) : Invariant state := by
  induction reached with
  | start initial => exact start _ initial
  | next _ permitted step ih => exact keeps _ _ _ ih permitted step

theorem invariant {Invariant : State → Prop}
    (start : ∀ state, system.initial state → Invariant state)
    (keeps : ∀ state label after, Invariant state →
      system.step state label = some after → Invariant after)
    {state : State} (reached : system.Reachable state) : Invariant state :=
  invariant_under start (fun state label after holds _ step => keeps state label after holds step)
    reached

theorem ReachableUnder.mono {allowed weaker : State → Label → Prop}
    (weakens : ∀ state label, allowed state label → weaker state label) {state : State}
    (reached : system.ReachableUnder allowed state) : system.ReachableUnder weaker state := by
  induction reached with
  | start initial => exact .start initial
  | next _ permitted step ih => exact .next ih (weakens _ _ permitted) step

theorem reachable_of_run {allowed : State → Label → Prop} (labels : List Label)
    {state after : State} (reached : system.ReachableUnder allowed state)
    (permitted : ∀ state label, label ∈ labels → allowed state label)
    (run : system.runFrom state labels = some after) : system.ReachableUnder allowed after := by
  induction labels generalizing state with
  | nil =>
      cases run
      exact reached
  | cons label rest ih =>
      simp only [runFrom] at run
      cases step : system.step state label with
      | none => simp [step] at run
      | some middle =>
          simp only [step] at run
          exact ih (reached.next (permitted state label (by simp)) step)
            (fun state other member => permitted state other (by simp [member])) run

theorem reachable_of_along {allowed : State → Label → Prop} (labels : List Label)
    {state after : State} (reached : system.ReachableUnder allowed state)
    (along : system.Along allowed state labels)
    (run : system.runFrom state labels = some after) : system.ReachableUnder allowed after := by
  induction labels generalizing state with
  | nil =>
      cases run
      exact reached
  | cons label rest ih =>
      obtain ⟨middle, step, later⟩ := run_from_cons run
      obtain ⟨permitted, remaining⟩ := (along_cons step).mp along
      exact ih (reached.next permitted step) remaining later

/-- What every permitted step keeps is kept by a run of such steps. -/
theorem run_keeps {allowed : Label → Prop} {Invariant : State → Prop}
    (keeps : ∀ state label after, Invariant state → allowed label →
      system.step state label = some after → Invariant after)
    (labels : List Label) {state after : State} (holds : Invariant state)
    (permitted : ∀ label ∈ labels, allowed label)
    (run : system.runFrom state labels = some after) : Invariant after := by
  induction labels generalizing state with
  | nil =>
      cases run
      exact holds
  | cons label rest ih =>
      obtain ⟨middle, step, later⟩ := run_from_cons run
      apply ih (keeps state label middle holds (permitted label List.mem_cons_self) step) _ later
      exact fun other member => permitted other (List.mem_cons_of_mem _ member)

/-- What every permitted step takes one off counts the steps that are left. -/
theorem run_counts {allowed : Label → Prop} {Invariant : State → Prop} {left : State → Nat}
    (keeps : ∀ state label after, Invariant state → allowed label →
      system.step state label = some after → Invariant after)
    (lowers : ∀ state label after, Invariant state → allowed label →
      system.step state label = some after → left state = left after + 1)
    (labels : List Label) {state after : State} (holds : Invariant state)
    (permitted : ∀ label ∈ labels, allowed label)
    (run : system.runFrom state labels = some after) :
    labels.length + left after = left state := by
  induction labels generalizing state with
  | nil =>
      cases run
      exact Nat.zero_add _
  | cons label rest ih =>
      obtain ⟨middle, step, later⟩ := run_from_cons run
      have now := permitted label List.mem_cons_self
      have lower := lowers state label middle holds now step
      have counted := ih (keeps state label middle holds now step)
        (fun other member => permitted other (List.mem_cons_of_mem _ member)) later
      rw [List.length_cons]
      omega

def guarded (system : System State Label) (allowed : State → Label → Prop)
    [∀ state label, Decidable (allowed state label)] : System State Label where
  initial := system.initial
  step state label := if allowed state label then system.step state label else none

section Guarded

variable {allowed : State → Label → Prop} [∀ state label, Decidable (allowed state label)]

theorem run_of_guarded (labels : List Label) {state after : State}
    (run : (system.guarded allowed).runFrom state labels = some after) :
    system.Along allowed state labels ∧ system.runFrom state labels = some after := by
  induction labels generalizing state with
  | nil => exact ⟨trivial, run⟩
  | cons label rest ih =>
      obtain ⟨middle, step, later⟩ := run_from_cons run
      obtain ⟨along, ran⟩ := ih later
      by_cases permitted : allowed state label
      · have moved : system.step state label = some middle := (if_pos permitted).symm.trans step
        refine ⟨(along_cons moved).mpr ⟨permitted, along⟩, ?_⟩
        rw [runFrom, moved]
        exact ran
      · exact absurd ((if_neg permitted).symm.trans step) nofun

theorem reachable_of_guarded_run (labels : List Label) {state after : State}
    (reached : system.ReachableUnder allowed state)
    (run : (system.guarded allowed).runFrom state labels = some after) :
    system.ReachableUnder allowed after :=
  reachable_of_along labels reached (run_of_guarded labels run).1 (run_of_guarded labels run).2

end Guarded

section Observing

variable {Record : Type*} (nothing : Record) (observe : State → Label → Record → Record)

/-- The system with a record of its run beside it. The record sees the state before each
step and changes nothing. -/
def observing (system : System State Label) : System (State × Record) Label where
  initial pair := system.initial pair.1 ∧ pair.2 = nothing
  step pair label := (system.step pair.1 label).map fun after =>
    (after, observe pair.1 label pair.2)

variable {nothing observe} {allowed : State → Label → Prop}

variable (nothing observe) in
theorem observing_extends {state : State} (reached : system.ReachableUnder allowed state) :
    ∃ record, (system.observing nothing observe).ReachableUnder (fun pair => allowed pair.1)
      (state, record) := by
  induction reached with
  | start initial => exact ⟨nothing, .start ⟨initial, rfl⟩⟩
  | @next state after label _ permitted step ih =>
      obtain ⟨record, earlier⟩ := ih
      refine ⟨observe state label record, .next earlier permitted ?_⟩
      show (system.step state label).map _ = _
      rw [step]
      rfl

variable {record : Record}

theorem observing_step {state after : State} {label : Label} {later : Record}
    (step : (system.observing nothing observe).step (state, record) label = some (after, later)) :
    system.step state label = some after ∧ later = observe state label record := by
  obtain ⟨next, moved, same⟩ := Option.map_eq_some_iff.mp step
  cases same
  exact ⟨moved, rfl⟩

theorem reachable_of_observing {state : State}
    (reached : (system.observing nothing observe).Reachable (state, record)) :
    system.Reachable state := by
  have all : system.Reachable (state, record).1 := by
    refine @invariant _ _ _ (fun pair => system.Reachable pair.1) ?_ ?_ _ reached
    · exact fun pair initial => .start initial.1
    · intro pair label after earlier step
      exact .next earlier trivial (observing_step step).1
  exact all

end Observing

end System

end FpgaPcie.Transition
