import Mathlib.Data.List.Range
import Mathlib.Tactic.Common

/-!
# Devices seen through loads and stores

What a load gives may depend on every access before it, so a device is a function of the
history of the accesses. Two programs that leave the same history are the same to every
device. Loops of accesses and loops of calls that may throw are compared here.
-/

namespace FpgaPcie.Bus

set_option autoImplicit false

inductive Access (Place Word : Type*) where
  | load (place : Place) (value : Word)
  | store (place : Place) (value : Word)
  deriving DecidableEq, Repr

abbrev History (Place Word : Type*) := List (Access Place Word)

abbrev Device (Place Word : Type*) := History Place Word → Place → Word

variable {Place Word State Error : Type*}

namespace Access

def place : Access Place Word → Place
  | .load place _ => place
  | .store place _ => place

end Access

def places (history : History Place Word) : List Place := history.map Access.place

def store (place : Place) (value : Word) (history : History Place Word) : History Place Word :=
  history ++ [.store place value]

def load (device : Device Place Word) (place : Place) (history : History Place Word) :
    Word × History Place Word :=
  (device history place, history ++ [.load place (device history place)])

/-- `for (i = start; count > 0; i++, count--)` around a step. -/
def loop (step : ℕ → State → State) : ℕ → ℕ → State → State
  | 0, _, state => state
  | count + 1, i, state => loop step count (i + 1) (step i state)

abbrev Call (State Error : Type*) := State → Option Error × State

def Call.andThen (first second : Call State Error) : Call State Error := fun state =>
  match first state with
  | (none, next) => second next
  | (some error, next) => (some error, next)

def repeatCall (call : ℕ → Call State Error) : ℕ → ℕ → Call State Error
  | 0, _, state => (none, state)
  | count + 1, i, state => (call i).andThen (repeatCall call count (i + 1)) state

section Loops

variable {step other : ℕ → State → State} {call : ℕ → Call State Error} {count start : ℕ}
  {state : State}

theorem repeat_call_congr {other : ℕ → Call State Error}
    (same : ∀ i, start ≤ i → i < start + count → call i = other i) :
    repeatCall call count start state = repeatCall other count start state := by
  induction count generalizing start state with
  | zero => rfl
  | succ count ih =>
      have later : repeatCall call count (start + 1) = repeatCall other count (start + 1) := by
        funext state
        apply ih
        intro i lower upper
        exact same i (by omega) (by omega)
      rw [repeatCall, repeatCall, same start (Nat.le_refl _) (by omega), later]

theorem repeat_call_loop
    (returns : ∀ i, start ≤ i → i < start + count → ∀ state, call i state = (none, step i state)) :
    repeatCall call count start state = (none, loop step count start state) := by
  induction count generalizing start state with
  | zero => rfl
  | succ count ih =>
      rw [repeatCall, Call.andThen, returns start (Nat.le_refl _) (by omega), loop]
      apply ih
      intro i lower upper
      exact returns i (by omega) (by omega)

theorem loop_places {view : State → List Place} {at_ : ℕ → Place}
    (one : ∀ i state, view (step i state) = view state ++ [at_ i]) :
    view (loop step count start state) = view state ++ (List.range' start count).map at_ := by
  induction count generalizing start state with
  | zero => simp [loop]
  | succ count ih =>
      rw [loop, ih, one, List.range'_succ, List.map_cons, List.append_assoc]
      rfl

theorem loop_same_start {view : State → List Place} (own theirs : ℕ → Place)
    (one : ∀ i state, view (step i state) = view state ++ [own i])
    (two : ∀ i state, view (other i state) = view state ++ [theirs i]) (some_ : 0 < count)
    (same : view (loop step count start state) = view (loop other count start state)) :
    own start = theirs start := by
  rw [loop_places one, loop_places two, List.append_cancel_left_eq] at same
  cases count with
  | zero => exact absurd some_ (Nat.lt_irrefl 0)
  | succ count =>
      rw [List.range'_succ, List.map_cons, List.map_cons] at same
      exact (List.cons.inj same).1

theorem repeat_call_returns (returns : Prop)
    (same : ∀ i, start ≤ i → i < start + count → ∀ state, (call i state).1 = none ↔ returns) :
    (repeatCall call count start state).1 = none ↔ count = 0 ∨ returns := by
  induction count generalizing start state with
  | zero => exact iff_of_true rfl (Or.inl rfl)
  | succ count ih =>
      have first := same start (Nat.le_refl _) (by omega) state
      rw [repeatCall, Call.andThen]
      cases called : call start state with
      | mk error next =>
          rw [called] at first
          cases error with
          | none =>
              have holds := first.mp rfl
              refine iff_of_true ((ih ?_).mpr (Or.inr holds)) (Or.inr holds)
              intro i lower upper
              exact same i (by omega) (by omega)
          | some error =>
              apply iff_of_false nofun
              rw [not_or]
              exact ⟨Nat.succ_ne_zero count, fun holds => nomatch first.mpr holds⟩

theorem repeat_call_throws {error : Error} {next : State}
    (first : call start state = (some error, next)) (some_ : 0 < count) :
    repeatCall call count start state = (some error, next) := by
  cases count with
  | zero => exact absurd some_ (Nat.lt_irrefl 0)
  | succ count => rw [repeatCall, Call.andThen, first]

theorem and_then_keeps (kept : State → Prop) {first second : Call State Error}
    (one : ∀ state, kept state → kept (first state).2)
    (two : ∀ state, kept state → kept (second state).2) (own : kept state) :
    kept ((first.andThen second) state).2 := by
  have reached := one state own
  unfold Call.andThen
  cases called : first state with
  | mk error next =>
      rw [called] at reached
      cases error with
      | none => exact two next reached
      | some error => exact reached

theorem repeat_call_keeps (kept : State → Prop)
    (keeps : ∀ i, start ≤ i → i < start + count → ∀ state, kept state → kept (call i state).2)
    (own : kept state) : kept (repeatCall call count start state).2 := by
  induction count generalizing start state with
  | zero => exact own
  | succ count ih =>
      apply and_then_keeps kept
      · exact keeps start (Nat.le_refl _) (by omega)
      · intro state own
        apply ih _ own
        intro i lower upper
        exact keeps i (by omega) (by omega)
      · exact own

end Loops

structure Reading (Place Word : Type*) where
  data : ℕ → Word
  history : History Place Word

abbrev Fetch (Place Word Error : Type*) :=
  History Place Word → Except Error Word × History Place Word

namespace Reading

def put (i : ℕ) (fetched : Word × History Place Word) (reading : Reading Place Word) :
    Reading Place Word :=
  ⟨Function.update reading.data i fetched.1, fetched.2⟩

def places (reading : Reading Place Word) : List Place := Bus.places reading.history

end Reading

def readInto (i : ℕ) (fetch : Fetch Place Word Error) : Call (Reading Place Word) Error :=
  fun reading =>
    match fetch reading.history with
    | (.ok value, history) => (none, reading.put i (value, history))
    | (.error error, history) => (some error, { reading with history := history })

def storeAt (data : ℕ → Word) (place : Place) (i : ℕ) : History Place Word → History Place Word :=
  store place (data i)

def loadAt (device : Device Place Word) (place : Place) (i : ℕ) (reading : Reading Place Word) :
    Reading Place Word :=
  reading.put i (load device place reading.history)

theorem store_places (place : Place) (value : Word) (history : History Place Word) :
    places (store place value history) = places history ++ [place] := by
  simp [places, store, Access.place]

theorem store_at_places (data : ℕ → Word) (place : Place) (i : ℕ)
    (history : History Place Word) :
    places (storeAt data place i history) = places history ++ [place] :=
  store_places place (data i) history

theorem load_places (device : Device Place Word) (place : Place) (history : History Place Word) :
    places (load device place history).2 = places history ++ [place] := by
  simp [places, load, Access.place]

theorem load_at_places (device : Device Place Word) (place : Place) (i : ℕ)
    (reading : Reading Place Word) :
    (loadAt device place i reading).places = reading.places ++ [place] :=
  load_places device place reading.history

def stored (history : History Place Word) : List (Place × Word) :=
  history.filterMap fun access =>
    match access with
    | .load _ _ => none
    | .store place value => some (place, value)

theorem stored_append (front back : History Place Word) :
    stored (front ++ back) = stored front ++ stored back := List.filterMap_append

theorem stored_loop (data : ℕ → Word) (place : ℕ → Place) (count start : ℕ)
    (history : History Place Word) :
    stored (loop (fun i => storeAt data (place i) i) count start history) =
      stored history ++ (List.range' start count).map fun i => (place i, data i) := by
  induction count generalizing start history with
  | zero => exact (List.append_nil _).symm
  | succ count ih =>
      have one : stored (storeAt data (place start) start history) =
          stored history ++ [(place start, data start)] := stored_append history _
      rw [loop, ih, one, List.range'_succ, List.map_cons, List.append_assoc]
      rfl

/-- A call that makes these stores, in order, unless it throws. -/
def Leaves (call : Call (History Place Word) Error) (stores : List (Place × Word)) : Prop :=
  ∀ history, (call history).1 = none →
    stored (call history).2 = stored history ++ stores

section Leaves

variable {first second : Call (History Place Word) Error} {one two : List (Place × Word)}

theorem and_then_returns {state : State} {first second : Call State Error}
    (returns : (first.andThen second state).1 = none) :
    (first state).1 = none ∧ first.andThen second state = second (first state).2 := by
  unfold Call.andThen at returns ⊢
  cases called : first state with
  | mk error next =>
      cases error with
      | none => exact ⟨rfl, rfl⟩
      | some error =>
          rw [called] at returns
          cases returns

theorem Leaves.andThen (leaves : Leaves first one) (later : Leaves second two) :
    Leaves (first.andThen second) (one ++ two) := by
  intro history returns
  obtain ⟨reached, same⟩ := and_then_returns returns
  rw [same] at returns ⊢
  rw [later _ returns, leaves _ reached, List.append_assoc]

theorem leaves_repeat {call : ℕ → Call (History Place Word) Error}
    {stores : ℕ → List (Place × Word)}
    {count start : ℕ}
    (leaves : ∀ i, start ≤ i → i < start + count → Leaves (call i) (stores i)) :
    Leaves (repeatCall call count start) ((List.range' start count).flatMap stores) := by
  induction count generalizing start with
  | zero =>
      intro history _
      exact (List.append_nil _).symm
  | succ count ih =>
      rw [List.range'_succ, List.flatMap_cons]
      apply (leaves start (Nat.le_refl _) (by omega)).andThen
      apply ih
      intro i lower upper
      exact leaves i (by omega) (by omega)

theorem repeat_call_each {call : ℕ → Call State Error} {count start : ℕ} {state : State}
    (returns : (repeatCall call count start state).1 = none) {i : ℕ} (lower : start ≤ i)
    (upper : i < start + count) : ∃ reached, (call i reached).1 = none := by
  induction count generalizing start state with
  | zero => omega
  | succ count ih =>
      rw [repeatCall] at returns
      obtain ⟨first, same⟩ := and_then_returns returns
      by_cases here : i = start
      · rw [here]
        exact ⟨state, first⟩
      · rw [same] at returns
        exact ih returns (by omega) (by omega)

end Leaves

end FpgaPcie.Bus
