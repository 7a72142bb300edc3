import Mathlib.Tactic.Common

/-!
# Programs that throw

A program changes a state and returns a value or throws. What it has done to the state
remains in either case, so that a handler goes on from there. How a program ends from a
state is described by one predicate for the values it returns and one for what it throws,
with a rule for each way to put programs together.
-/

namespace FpgaPcie.Throwing

set_option autoImplicit false

abbrev Program (Thrown State Value : Type) : Type := ExceptT Thrown (StateM State) Value

section Programs

variable {Thrown State Value Other : Type}

def runFrom (program : Program Thrown State Value) (state : State) :
    Except Thrown Value × State :=
  (ExceptT.run program).run state

def change (next : State → Value × State) : Program Thrown State Value :=
  ExceptT.lift (StateT.mk next)

/-- `while (tried < limit)`, left with the first value. What makes a turn go on is handed to
`failed`. -/
def retry (turn : ℕ → Program Thrown State (Option Value)) (failed : Program Thrown State Value) :
    ℕ → ℕ → Program Thrown State Value
  | _, 0 => failed
  | tried, left + 1 => do
      match ← turn tried with
      | some value => return value
      | none => retry turn failed (tried + 1) left

def Ends (program : Program Thrown State Value) (state : State)
    (returns : Value → State → Prop) (throws : Thrown → State → Prop) : Prop :=
  match runFrom program state with
  | (.ok value, after) => returns value after
  | (.error thrown, after) => throws thrown after

variable {program : Program Thrown State Value} {state : State}
  {returns weaker : Value → State → Prop} {throws also : Thrown → State → Prop}
  {later : Other → State → Prop}

theorem ends_pure {value : Value} (holds : returns value state) :
    Ends (pure value) state returns throws := holds

theorem ends_throw {thrown : Thrown} (holds : throws thrown state) :
    Ends (throw thrown) state returns throws := holds

theorem ends_change {next : State → Value × State} (holds : returns (next state).1 (next state).2) :
    Ends (change next) state returns throws := holds

theorem ends_bind {rest : Value → Program Thrown State Other}
    (first : Ends program state returns throws)
    (goesOn : ∀ value after, returns value after → Ends (rest value) after later throws) :
    Ends (program >>= rest) state later throws := by
  have run : runFrom (program >>= rest) state = match runFrom program state with
      | (.ok value, after) => runFrom (rest value) after
      | (.error thrown, after) => (.error thrown, after) := by
    show (ExceptT.bindCont rest (runFrom program state).1).run (runFrom program state).2 = _
    rcases runFrom program state with ⟨value | thrown, after⟩ <;> rfl
  rw [Ends] at first ⊢
  rw [run]
  rcases ended : runFrom program state with ⟨thrown | value, after⟩
  · rw [ended] at first
    exact first
  · rw [ended] at first
    exact goesOn value after first

theorem ends_catch {handler : Thrown → Program Thrown State Value}
    (tried : Ends program state returns throws)
    (handles : ∀ thrown after, throws thrown after → Ends (handler thrown) after returns also) :
    Ends (tryCatch program handler) state returns also := by
  have run : runFrom (tryCatch program handler) state = match runFrom program state with
      | (.ok value, after) => (.ok value, after)
      | (.error thrown, after) => runFrom (handler thrown) after := by
    show (match (runFrom program state).1 with
      | .ok value => (pure (.ok value) : StateM State (Except Thrown Value))
      | .error thrown => (handler thrown).run).run (runFrom program state).2 = _
    rcases runFrom program state with ⟨value | thrown, after⟩ <;> rfl
  rw [Ends] at tried ⊢
  rw [run]
  rcases ended : runFrom program state with ⟨thrown | value, after⟩
  · rw [ended] at tried
    exact handles thrown after tried
  · rw [ended] at tried
    exact tried

theorem ends_mono (ends : Ends program state weaker throws)
    (returned : ∀ value after, weaker value after → returns value after)
    (thrown : ∀ value after, throws value after → also value after) :
    Ends program state returns also := by
  rw [Ends] at ends ⊢
  rcases ended : runFrom program state with ⟨value | value, after⟩
  · rw [ended] at ends
    exact thrown value after ends
  · rw [ended] at ends
    exact returned value after ends

theorem ends_retry {turn : ℕ → Program Thrown State (Option Value)}
    {failed : Program Thrown State Value} (keeps : State → Prop)
    (turns : ∀ tried state, keeps state → Ends (turn tried) state
      (fun value after => value.elim (keeps after) (returns · after)) throws)
    (fails : ∀ state, keeps state → Ends failed state returns throws) (tried left : ℕ)
    (holds : keeps state) : Ends (retry turn failed tried left) state returns throws := by
  induction left generalizing tried state with
  | zero => exact fails state holds
  | succ left ih =>
      apply ends_bind (turns tried state holds)
      intro value after ended
      cases value with
      | some value => exact ends_pure ended
      | none => exact ih (tried + 1) ended

theorem Ends.cases (ends : Ends program state returns throws) :
    (∃ value after, runFrom program state = (.ok value, after) ∧ returns value after) ∨
    ∃ thrown after, runFrom program state = (.error thrown, after) ∧ throws thrown after := by
  rw [Ends] at ends
  rcases ended : runFrom program state with ⟨thrown | value, after⟩
  · rw [ended] at ends
    exact Or.inr ⟨thrown, after, rfl, ends⟩
  · rw [ended] at ends
    exact Or.inl ⟨value, after, rfl, ends⟩

end Programs

end FpgaPcie.Throwing
