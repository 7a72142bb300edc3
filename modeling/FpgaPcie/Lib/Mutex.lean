import Mathlib.Logic.Function.Basic

/-!
# What a mutex protects

Threads with phases of their own and a state they share. In the critical phases a thread
holds the mutex and relies on what it has set; the others cannot change it.
-/

namespace FpgaPcie.Mutex

set_option autoImplicit false

variable {Thread Phase Shared : Type*}

/-- Whoever is in a critical phase holds the mutex, and every phase finds what it relies on. -/
structure Guarded (critical : Phase → Bool) (relies : Phase → Shared → Prop)
    (holder : Option Thread) (phase : Thread → Phase) (shared : Shared) : Prop where
  exclusive : ∀ thread, critical (phase thread) → holder = some thread
  relied : ∀ thread, relies (phase thread) shared

section Steps

variable {critical : Phase → Bool} {relies : Phase → Shared → Prop} {holder : Option Thread}
  {phase : Thread → Phase} {shared after : Shared} {thread : Thread} {next : Phase}

theorem Guarded.alone (guarded : Guarded critical relies holder phase shared)
    (inside : critical (phase thread)) {other : Thread} (differs : other ≠ thread) :
    critical (phase other) = false := by
  rw [Bool.eq_false_iff]
  intro also
  have both := (guarded.exclusive thread inside).symm.trans (guarded.exclusive other also)
  exact differs (Option.some.inj both).symm

variable [DecidableEq Thread]

theorem guarded_step (inside : critical next → holder = some thread) (own : relies next after)
    (others : ∀ other, other ≠ thread → critical (phase other) → holder = some other)
    (quiet : ∀ other, other ≠ thread → relies (phase other) after) :
    Guarded critical relies holder (Function.update phase thread next) after where
  exclusive := (Function.forall_update_iff phase fun other phase =>
    critical phase → holder = some other).mpr ⟨inside, others⟩
  relied := (Function.forall_update_iff phase fun _ phase => relies phase after).mpr ⟨own, quiet⟩

theorem Guarded.keep (guarded : Guarded critical relies holder phase shared)
    (inside : critical next → critical (phase thread)) (own : relies next shared) :
    Guarded critical relies holder (Function.update phase thread next) shared := by
  apply guarded_step _ own
  · exact fun other _ also => guarded.exclusive other also
  · exact fun other _ => guarded.relied other
  · exact fun also => guarded.exclusive thread (inside also)

theorem Guarded.set (guarded : Guarded critical relies holder phase shared)
    (quiet : ∀ phase, critical phase = false → ∀ shared, relies phase shared)
    (inside : critical (phase thread)) (own : relies next after) :
    Guarded critical relies holder (Function.update phase thread next) after := by
  apply guarded_step _ own
  · exact fun other _ also => guarded.exclusive other also
  · exact fun other differs => quiet _ (guarded.alone inside differs) after
  · exact fun _ => guarded.exclusive thread inside

theorem Guarded.acquire (guarded : Guarded critical relies none phase shared)
    (own : relies next shared) :
    Guarded critical relies (some thread) (Function.update phase thread next) shared := by
  apply guarded_step _ own
  · intro other _ also
    cases guarded.exclusive other also
  · exact fun other _ => guarded.relied other
  · exact fun _ => rfl

theorem Guarded.release (guarded : Guarded critical relies holder phase shared)
    (inside : critical (phase thread)) (outside : critical next = false)
    (own : relies next shared) :
    Guarded critical relies none (Function.update phase thread next) shared := by
  apply guarded_step _ own
  · intro other differs also
    rw [guarded.alone inside differs] at also
    cases also
  · exact fun other _ => guarded.relied other
  · intro also
    rw [outside] at also
    cases also

end Steps

end FpgaPcie.Mutex
