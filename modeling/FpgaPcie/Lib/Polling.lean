import Mathlib.Order.Defs.LinearOrder
import Mathlib.Data.Nat.Basic

/-!
# Polling loops

A loop that looks at the world once per tick and either stops with a result or
tries again. `firstStop` runs it for a bounded number of ticks; `StopsAt` says
without fuel where and how it stops, and the two are shown to agree.
-/

namespace FpgaPcie.Polling

set_option autoImplicit false

variable {Result : Type*}

def firstStop (stop : ℕ → Option Result) : ℕ → ℕ → Option (ℕ × Result)
  | 0, _ => none
  | fuel + 1, tick =>
      match stop tick with
      | some result => some (tick, result)
      | none => firstStop stop fuel (tick + 1)

structure StopsAt (stop : ℕ → Option Result) (start tick : ℕ) (result : Result) : Prop where
  later : start ≤ tick
  stops : stop tick = some result
  first : ∀ earlier, start ≤ earlier → earlier < tick → stop earlier = none

theorem first_stop_eq_some_iff (stop : ℕ → Option Result) (fuel start tick : ℕ) (result : Result) :
    firstStop stop fuel start = some (tick, result) ↔
      StopsAt stop start tick result ∧ tick < start + fuel := by
  induction fuel generalizing start with
  | zero =>
      constructor
      · intro impossible
        cases impossible
      · intro both
        rcases both with ⟨stopped, bound⟩
        have later := stopped.later
        omega
  | succ fuel ih =>
      cases now : stop start with
      | some value =>
          simp only [firstStop, now, Option.some.injEq, Prod.mk.injEq]
          constructor
          · intro both
            rcases both with ⟨rfl, rfl⟩
            exact ⟨⟨le_rfl, now, fun earlier lower upper => by omega⟩, by omega⟩
          · intro both
            rcases both with ⟨stopped, -⟩
            have same : tick = start := by
              by_contra other
              have none_ := stopped.first start le_rfl
                (lt_of_le_of_ne stopped.later (Ne.symm other))
              rw [now] at none_
              cases none_
            have equal := stopped.stops
            rw [same, now, Option.some.injEq] at equal
            exact ⟨same.symm, equal⟩
      | none =>
          simp only [firstStop, now]
          rw [ih (start + 1)]
          constructor
          · intro both
            rcases both with ⟨stopped, bound⟩
            refine ⟨⟨by have := stopped.later; omega, stopped.stops, ?_⟩, by omega⟩
            intro earlier lower upper
            rcases Nat.eq_or_lt_of_le lower with rfl | beyond
            · exact now
            · exact stopped.first earlier beyond upper
          · intro both
            rcases both with ⟨stopped, bound⟩
            have different : tick ≠ start := by
              intro same
              subst same
              have some_ := stopped.stops
              rw [now] at some_
              cases some_
            have later := stopped.later
            exact ⟨⟨by omega, stopped.stops, fun earlier lower upper =>
              stopped.first earlier (by omega) upper⟩, by omega⟩

theorem first_stop_of_stops (stop : ℕ → Option Result) {start tick : ℕ} {result : Result}
    (stopped : StopsAt stop start tick result) :
    firstStop stop (tick + 1) start = some (tick, result) :=
  (first_stop_eq_some_iff stop _ start tick result).mpr ⟨stopped, by omega⟩

/-- Where a loop stops does not depend on how long it was allowed to run. -/
theorem stops_unique (stop : ℕ → Option Result) {start tick other : ℕ} {result second : Result}
    (stopped : StopsAt stop start tick result) (again : StopsAt stop start other second) :
    tick = other ∧ result = second := by
  have same : tick = other := by
    rcases Nat.lt_trichotomy tick other with before | equal | after
    · have none_ := again.first tick stopped.later before
      rw [stopped.stops] at none_
      cases none_
    · exact equal
    · have none_ := stopped.first other again.later after
      rw [again.stops] at none_
      cases none_
  have equal := stopped.stops
  rw [same, again.stops, Option.some.injEq] at equal
  exact ⟨same, equal.symm⟩

end FpgaPcie.Polling
