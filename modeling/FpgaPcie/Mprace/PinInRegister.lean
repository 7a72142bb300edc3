import FpgaPcie.Lib.Ram
import FpgaPcie.Mprace.EngineWG

/-!
# Pins that share a register

A `PinInRegister` is a bit of a register: setting it reads the register, changes the value with
the mask of the bit and writes it back. Clearing a pin masks with a logical not, so that the
whole register is cleared. What the register should hold is a memory of bits, with one store
for each value that a pin is set to.
-/

namespace FpgaPcie.Mprace

open FpgaPcie.Ram

set_option autoImplicit false

structure Register (State : Type*) where
  get : State → U32
  set : U32 → State → State
  get_set : ∀ value state, get (set value state) = value

namespace PinInRegister

def mask : List U32 :=
  [0x00000001, 0x00000002, 0x00000004, 0x00000008, 0x00000010, 0x00000020, 0x00000040,
    0x00000080, 0x00000100, 0x00000200, 0x00000400, 0x00000800, 0x00001000, 0x00002000,
    0x00004000, 0x00008000, 0x00010000, 0x00020000, 0x00040000, 0x00080000, 0x00100000,
    0x00200000, 0x00400000, 0x00800000, 0x01000000, 0x02000000, 0x04000000, 0x08000000,
    0x10000000, 0x20000000, 0x40000000, 0x80000000]

end PinInRegister

structure PinInRegister where
  bit : U32
  bitMask : U32
  masked : PinInRegister.mask[bit.toNat]? = some bitMask

namespace PinInRegister

/-- The constructor; `none` where it reads behind the table. -/
def create (bit : U32) : Option PinInRegister :=
  match found : mask[bit.toNat]? with
  | none => none
  | some bitMask => some ⟨bit, bitMask, found⟩

section Functions

variable {State : Type*} (reg : Register State) (pin : PinInRegister)

def setTo (value : Bool) (state : State) : State :=
  if value then reg.set (reg.get state ||| pin.bitMask) state
  else reg.set (reg.get state &&& DMAEngineWG.logicalNot pin.bitMask) state

def get (state : State) : Bool := reg.get state &&& pin.bitMask ≠ 0

def set (state : State) : State := setTo reg pin true state

def clear (state : State) : State := setTo reg pin false state

end Functions

end PinInRegister

inductive PinFunction where
  | setTo (value : Bool)
  | set
  | clear
  | get
  deriving DecidableEq, Repr

structure PinCall (Pin : Type*) where
  pin : Pin
  function : PinFunction
  deriving DecidableEq, Repr

section Calls

variable {State Pin : Type*} (reg : Register State) (pins : Pin → PinInRegister)

def PinCall.perform (call : PinCall Pin) (state : State) : State :=
  match call.function with
  | .setTo value => (pins call.pin).setTo reg value state
  | .set => (pins call.pin).set reg state
  | .clear => (pins call.pin).clear reg state
  | .get => state

def performed (calls : List (PinCall Pin)) (state : State) : State :=
  calls.foldl (fun state call => call.perform reg pins state) state

def PinCall.value (call : PinCall Pin) : Option Bool :=
  match call.function with
  | .setTo value => some value
  | .set => some true
  | .clear => some false
  | .get => none

def lastSet [DecidableEq Pin] (pin : Pin) (calls : List (PinCall Pin)) : Option Bool :=
  (calls.filterMap fun call => if call.pin = pin then call.value else none).getLast?

def LeavesOthers (state : State) (call : PinCall Pin) : Prop :=
  ∀ bit, bit ≠ (pins call.pin).bit.toNat →
    (reg.get (call.perform reg pins state)).getLsbD bit = (reg.get state).getLsbD bit

/-- Every pin has the value it was set to last at any time, and nothing but its own calls
changes it or the bits without a pin. -/
structure PinsIndependent [DecidableEq Pin] (state : State) (calls : List (PinCall Pin)) :
    Prop where
  returns : ∀ front, front <+: calls → ∀ pin, (pins pin).get reg (performed reg pins front state) =
    (lastSet pin front).getD ((reg.get state).getLsbD (pins pin).bit.toNat)
  frame : ∀ front call, front ++ [call] <+: calls →
    LeavesOthers reg pins (performed reg pins front state) call

def PinCall.store (call : PinCall Pin) : Option (Store ℕ Bool) :=
  call.value.map fun value => ((pins call.pin).bit.toNat, value)

/-- The bits of a register that held `word`, after each call set its own bit only. -/
def intended (word : U32) (calls : List (PinCall Pin)) : ℕ → Bool :=
  contents (calls.filterMap (PinCall.store pins)) word.getLsbD

/-- A pin is cleared only while no other bit is meant to be set. -/
def ClearsAlone (word : U32) (calls : List (PinCall Pin)) : Prop :=
  ∀ front call, front ++ [call] <+: calls → call.value = some false →
    ∀ bit, bit ≠ (pins call.pin).bit.toNat → intended pins word front bit = false

end Calls

namespace PinInRegister

theorem mask_table : ∀ i < 32, mask[i]? = some (BitVec.twoPow 32 i) := by decide

theorem mask_nonzero : ∀ i < 32, BitVec.twoPow 32 i ≠ 0 := by decide

theorem logical_not_mask : ∀ i < 32, DMAEngineWG.logicalNot (BitVec.twoPow 32 i) = 0 := by decide

theorem bit_inside (pin : PinInRegister) : pin.bit.toNat < 32 :=
  (List.getElem?_eq_some_iff.mp pin.masked).1

theorem bit_mask (pin : PinInRegister) : pin.bitMask = BitVec.twoPow 32 pin.bit.toNat := by
  have tabled := mask_table pin.bit.toNat pin.bit_inside
  rw [pin.masked] at tabled
  exact Option.some.inj tabled

theorem create_eq_some_iff (bit : U32) (pin : PinInRegister) :
    create bit = some pin ↔ pin.bit = bit := by
  unfold create
  split
  next missing =>
    apply Iff.intro
    · intro made
      cases made
    · rintro rfl
      rw [pin.masked] at missing
      cases missing
  next bitMask found =>
    rw [Option.some_inj]
    apply Iff.intro
    · rintro rfl
      rfl
    · rintro rfl
      have same : bitMask = pin.bitMask := Option.some.inj (found.symm.trans pin.masked)
      subst same
      rfl

section Bits

variable {State : Type*} (reg : Register State) (pin : PinInRegister) (state : State)

theorem get_bit : pin.get reg state = (reg.get state).getLsbD pin.bit.toNat := by
  have nonzero := mask_nonzero pin.bit.toNat pin.bit_inside
  unfold get
  rw [pin.bit_mask, BitVec.and_twoPow]
  cases (reg.get state).getLsbD pin.bit.toNat
  · simp
  · simpa using nonzero

theorem set_to_bit (value : Bool) (bit : ℕ) :
    (reg.get (pin.setTo reg value state)).getLsbD bit =
      (value && ((reg.get state).getLsbD bit || decide (bit = pin.bit.toNat))) := by
  have inside := pin.bit_inside
  unfold setTo
  cases value with
  | false =>
      rw [if_neg Bool.false_ne_true, reg.get_set, pin.bit_mask, logical_not_mask _ inside]
      simp
  | true =>
      rw [if_pos rfl, reg.get_set, pin.bit_mask, BitVec.getLsbD_or, BitVec.getLsbD_twoPow]
      simp [inside, eq_comm]

end Bits

end PinInRegister

section Runs

variable {State Pin : Type*} (reg : Register State) (pins : Pin → PinInRegister)

theorem perform_value (call : PinCall Pin) (state : State) :
    call.perform reg pins state =
      call.value.elim state fun value => (pins call.pin).setTo reg value state := by
  unfold PinCall.perform PinCall.value
  cases call.function with
  | setTo value => rfl
  | set => rfl
  | clear => rfl
  | get => rfl

theorem intended_append (word : U32) (front : List (PinCall Pin)) (call : PinCall Pin) :
    intended pins word (front ++ [call]) =
      call.value.elim (intended pins word front) fun value =>
        Function.update (intended pins word front) (pins call.pin).bit.toNat value := by
  unfold intended
  rw [List.filterMap_append, contents_append]
  unfold PinCall.store
  cases given : call.value with
  | none => simp [given]
  | some value => simp [given]

section Step

variable {state : State} {word : U32} {front : List (PinCall Pin)} {call : PinCall Pin}
  (shown : (reg.get state).getLsbD = intended pins word front)

include shown

/-- A call that leaves the other bits alone keeps the register at what is meant. -/
theorem shown_step (frame : LeavesOthers reg pins state call) :
    (reg.get (call.perform reg pins state)).getLsbD = intended pins word (front ++ [call]) := by
  rw [intended_append, ← shown]
  unfold LeavesOthers at frame
  rw [perform_value] at frame ⊢
  cases given : call.value with
  | none => rfl
  | some value =>
      rw [given] at frame
      simp only [Option.elim_some] at frame ⊢
      funext bit
      by_cases own : bit = (pins call.pin).bit.toNat
      · rw [PinInRegister.set_to_bit, own, Function.update_self]
        simp
      · rw [frame bit own, Function.update_of_ne own]

/-- Only clearing touches other bits, and only those that are set. -/
theorem leaves_others_iff :
    LeavesOthers reg pins state call ↔ (call.value = some false →
      ∀ bit, bit ≠ (pins call.pin).bit.toNat → intended pins word front bit = false) := by
  unfold LeavesOthers
  rw [perform_value, ← shown]
  apply Iff.intro
  · intro frame cleared bit other
    -- the other bit is zero afterwards, so it was before
    have kept := frame bit other
    rw [cleared, Option.elim_some, PinInRegister.set_to_bit] at kept
    simpa using kept.symm
  · intro alone bit other
    cases given : call.value with
    | none => rfl
    | some value =>
        rw [Option.elim_some, PinInRegister.set_to_bit]
        cases value with
        | false => simp [alone given bit other]
        | true => simp [other]

end Step

theorem performed_append (front : List (PinCall Pin)) (call : PinCall Pin) (state : State) :
    performed reg pins (front ++ [call]) state =
      call.perform reg pins (performed reg pins front state) := by
  unfold performed
  rw [List.foldl_append]
  rfl

/-- The register holds what is meant after every call, as long as each call, made where that is
so, leaves the other bits alone. -/
theorem shown_run {calls : List (PinCall Pin)} {state : State}
    (frames : ∀ front call, front ++ [call] <+: calls →
      (reg.get (performed reg pins front state)).getLsbD =
        intended pins (reg.get state) front →
      LeavesOthers reg pins (performed reg pins front state) call)
    (front : List (PinCall Pin)) (early : front <+: calls) :
    (reg.get (performed reg pins front state)).getLsbD =
      intended pins (reg.get state) front := by
  induction front using List.reverseRecOn with
  | nil => rfl
  | append_singleton front call ih =>
      -- what a call finds decides whether it leaves the other bits alone
      have shown := ih ((List.prefix_append front [call]).trans early)
      rw [performed_append]
      exact shown_step reg pins shown (frames front call early shown)

/-- What is meant for the bit of a pin is the value the pin was set to last. -/
theorem intended_pin [DecidableEq Pin]
    (distinct : Function.Injective fun pin => (pins pin).bit) (word : U32)
    (calls : List (PinCall Pin)) (pin : Pin) :
    intended pins word calls (pins pin).bit.toNat =
      (lastSet pin calls).getD (word.getLsbD (pins pin).bit.toNat) := by
  have own (other : Pin) :
      (pins other).bit.toNat = (pins pin).bit.toNat ↔ other = pin := by
    rw [← BitVec.toNat_eq]
    exact distinct.eq_iff
  have stored : lastStored (pins pin).bit.toNat (calls.filterMap (PinCall.store pins)) =
      lastSet pin calls := by
    unfold lastStored lastSet
    rw [List.filterMap_filterMap]
    congr 2
    funext call
    unfold PinCall.store
    cases call.value with
    | none => simp
    | some value => simp [own]
  unfold intended
  rw [contents_last, stored]

/-- Pins at distinct bits are independent in exactly the runs that clear a pin only while all
other bits of the register are meant to be zero. -/
theorem pins_independent_iff [DecidableEq Pin]
    (distinct : Function.Injective fun pin => (pins pin).bit) (state : State)
    (calls : List (PinCall Pin)) :
    PinsIndependent reg pins state calls ↔ ClearsAlone pins (reg.get state) calls := by
  apply Iff.intro
  · intro independent front call early
    have before := (List.prefix_append front [call]).trans early
    have shown := shown_run reg pins
      (fun front call early _ => independent.frame front call early) front before
    exact (leaves_others_iff reg pins shown).mp (independent.frame front call early)
  · intro alone
    have shown := shown_run reg pins
      (fun front call early shown =>
        (leaves_others_iff reg pins shown).mpr (alone front call early))
    apply PinsIndependent.mk
    · intro front early pin
      rw [PinInRegister.get_bit, shown front early, intended_pin pins distinct]
    · intro front call early
      have before := (List.prefix_append front [call]).trans early
      exact (leaves_others_iff reg pins (shown front before)).mpr (alone front call early)

end Runs

def wordRegister : Register U32 := ⟨id, fun value _ => value, fun _ _ => rfl⟩

def twoPins (second : Bool) : PinInRegister :=
  if second then ⟨1, 2, rfl⟩ else ⟨0, 1, rfl⟩

theorem two_pins_distinct : Function.Injective fun pin => (twoPins pin).bit := by
  intro pin other same
  revert pin other
  decide

theorem pins_independent_iff_cleared_first :
    PinsIndependent wordRegister twoPins 1 ([⟨false, .clear⟩] ++ [⟨true, .set⟩]) ∧
      ClearsAlone twoPins 1 ([⟨false, .clear⟩] ++ [⟨true, .set⟩]) := by
  have alone : ClearsAlone twoPins 1 ([⟨false, .clear⟩] ++ [⟨true, .set⟩]) := by
    intro front call early cleared bit other
    rcases List.prefix_concat_iff.mp early with last | first
    · cases (List.append_inj' last rfl).2
      cases cleared
    · have short := first.length_le
      rw [List.length_append, List.length_singleton, List.length_singleton] at short
      have none_before : front = [] := List.length_eq_zero_iff.mp (by omega)
      subst none_before
      obtain rfl : call = ⟨false, .clear⟩ := by simpa using first
      have away : bit ≠ 0 := other
      change (1 : U32).getLsbD bit = false
      simp [away]
  exact ⟨(pins_independent_iff wordRegister twoPins two_pins_distinct 1 _).mpr alone, alone⟩

theorem clearing_pin_loses_other : Function.Injective (fun pin => (twoPins pin).bit) ∧
    ¬PinsIndependent wordRegister twoPins 0 [⟨false, .set⟩, ⟨true, .clear⟩] := by
  refine ⟨two_pins_distinct, fun independent => ?_⟩
  have returned := independent.returns _ (List.prefix_refl _) false
  revert returned
  decide

end FpgaPcie.Mprace
