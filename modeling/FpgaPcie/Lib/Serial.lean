import Mathlib.Data.List.Basic
import Mathlib.Logic.Function.Basic
import Mathlib.Tactic.Common

/-!
# A serial chip on three wires

The chip takes the level of its data wire at each rising edge of its clock, and loads what it
has taken at a rising edge of its load wire.
-/

namespace FpgaPcie.Serial

set_option autoImplicit false

structure Wiring (Pin : Type*) where
  clock : Pin
  data : Pin
  load : Pin
  data_clock : data ≠ clock
  load_clock : load ≠ clock
  data_load : data ≠ load

inductive Seen where
  | shift (level : Bool)
  | load
  deriving DecidableEq, Repr

abbrev Levels (Pin : Type*) := Pin → Bool

abbrev Drive (Pin : Type*) := Pin × Bool

variable {Pin : Type*} [DecidableEq Pin]

def driven (levels : Levels Pin) (drive : Drive Pin) : Levels Pin :=
  Function.update levels drive.1 drive.2

theorem driven_self (levels : Levels Pin) (pin : Pin) (level : Bool) :
    driven levels (pin, level) pin = level := by
  simp [driven]

theorem driven_other {pin : Pin} {drive : Drive Pin} (levels : Levels Pin)
    (other : pin ≠ drive.1) : driven levels drive pin = levels pin := by
  simp [driven, other]

def settled : Levels Pin → List (Drive Pin) → Levels Pin := List.foldl driven

section Wires

variable (wiring : Wiring Pin)

def seenAt (levels : Levels Pin) (drive : Drive Pin) : List Seen :=
  if levels drive.1 = true ∨ drive.2 = false then []
  else if drive.1 = wiring.clock then [.shift (levels wiring.data)]
  else if drive.1 = wiring.load then [.load]
  else []

def seen : Levels Pin → List (Drive Pin) → List Seen
  | _, [] => []
  | levels, drive :: drives => seenAt wiring levels drive ++ seen (driven levels drive) drives

def bitDrives (bit : Bool) : List (Drive Pin) :=
  [(wiring.data, bit), (wiring.clock, true), (wiring.clock, false)]

def pulseDrives : List (Drive Pin) := [(wiring.load, true), (wiring.load, false)]

theorem seen_append (levels : Levels Pin) (first second : List (Drive Pin)) :
    seen wiring levels (first ++ second) =
      seen wiring levels first ++ seen wiring (settled levels first) second := by
  induction first generalizing levels with
  | nil => rfl
  | cons drive first ih =>
      rw [List.cons_append, seen, ih, seen, List.append_assoc]
      rfl

theorem settled_append (levels : Levels Pin) (first second : List (Drive Pin)) :
    settled levels (first ++ second) = settled (settled levels first) second :=
  List.foldl_append

theorem settled_low (levels : Levels Pin) (drives : List (Drive Pin)) (pin : Pin) :
    settled levels (drives ++ [(pin, false)]) pin = false := by
  rw [settled_append]
  exact driven_self _ pin false

theorem settled_other {pin : Pin} {drives : List (Drive Pin)} (levels : Levels Pin)
    (other : ∀ drive ∈ drives, pin ≠ drive.1) : settled levels drives pin = levels pin := by
  induction drives generalizing levels with
  | nil => rfl
  | cons drive drives ih =>
      have first := other drive List.mem_cons_self
      have rest := ih (driven levels drive) (fun later member =>
        other later (List.mem_cons_of_mem drive member))
      exact rest.trans (driven_other levels first)

theorem seen_low (levels : Levels Pin) (pin : Pin) : seen wiring levels [(pin, false)] = [] := by
  unfold seen seenAt
  rw [if_pos (Or.inr rfl)]
  rfl

theorem seen_bit (levels : Levels Pin) (bit : Bool) :
    seen wiring levels (bitDrives wiring bit) =
      if levels wiring.clock then [] else [.shift bit] := by
  have other := wiring.data_clock
  have notLoad := wiring.data_load
  have kept : driven levels (wiring.data, bit) wiring.clock = levels wiring.clock :=
    driven_other levels other.symm
  have put := driven_self levels wiring.data bit
  have quiet : seenAt wiring levels (wiring.data, bit) = [] := by
    unfold seenAt
    rw [if_neg other, if_neg notLoad, ite_self]
  have falls := seen_low wiring
    (driven (driven levels (wiring.data, bit)) (wiring.clock, true)) wiring.clock
  rw [bitDrives, seen, quiet, seen, falls]
  unfold seenAt
  rw [kept, put, if_pos rfl]
  cases levels wiring.clock <;> rfl

theorem settled_bit_clock (levels : Levels Pin) (bit : Bool) :
    settled levels (bitDrives wiring bit) wiring.clock = false :=
  settled_low levels [(wiring.data, bit), (wiring.clock, true)] wiring.clock

/-- All bits are clocked in, but for the first one where the clock was high before it. -/
theorem seen_bits (levels : Levels Pin) (bits : List Bool) :
    seen wiring levels (bits.flatMap (bitDrives wiring)) =
      (if levels wiring.clock then bits.tail else bits).map .shift := by
  induction bits generalizing levels with
  | nil => cases levels wiring.clock <;> rfl
  | cons bit bits ih =>
      have low := settled_bit_clock wiring levels bit
      rw [List.flatMap_cons, seen_append, seen_bit, ih, low]
      cases levels wiring.clock <;> rfl

theorem settled_bits_load (levels : Levels Pin) (bits : List Bool) :
    settled levels (bits.flatMap (bitDrives wiring)) wiring.load = levels wiring.load := by
  apply settled_other
  intro drive member
  obtain ⟨bit, -, own⟩ := List.mem_flatMap.mp member
  have places : drive.1 = wiring.data ∨ drive.1 = wiring.clock := by
    simp only [bitDrives, List.mem_cons, List.not_mem_nil, or_false] at own
    rcases own with rfl | rfl | rfl <;> simp
  rcases places with data | clock
  · rw [data]
    exact wiring.data_load.symm
  · rw [clock]
    exact wiring.load_clock

theorem seen_pulse (levels : Levels Pin) (low : levels wiring.load = false) :
    seen wiring levels (pulseDrives wiring) = [.load] := by
  rw [pulseDrives, seen, seen_low, seenAt, low]
  simp [wiring.load_clock]

end Wires

end FpgaPcie.Serial
