import Mathlib.Data.Nat.Notation
import Mathlib.Data.Nat.ModEq
import Mathlib.Logic.Function.Basic
import Mathlib.Tactic.Common

/-!
# Rotating buffers

A buffer has slots of one size, and the blocks of a stream are written to the slots in
turn, a byte at a time. As long as no more blocks than slots are at work, none of them
overwrites another.
-/

namespace FpgaPcie.Rotation

set_option autoImplicit false

section Places

variable (slots size : ℕ)

def slotStart (block : ℕ) : ℕ := block % slots * size

def place (block index : ℕ) : ℕ := slotStart slots size block + index

variable {slots size}

theorem place_inside (some_ : 0 < slots) (block : ℕ) {index : ℕ} (inside : index < size) :
    place slots size block index < slots * size := by
  have slot : block % slots + 1 ≤ slots := Nat.mod_lt block some_
  calc
    place slots size block index < block % slots * size + size := Nat.add_lt_add_left inside _
    _ = (block % slots + 1) * size := by rw [Nat.add_mul, Nat.one_mul]
    _ ≤ slots * size := Nat.mul_le_mul_right size slot

theorem place_ne {first second : ℕ} (other : first % slots ≠ second % slots) {i j : ℕ}
    (inside : i < size) (also : j < size) :
    place slots size first i ≠ place slots size second j := by
  intro same
  have positive : 0 < size := Nat.zero_lt_of_lt inside
  have quotient : ∀ {slot index : ℕ}, index < size → (slot * size + index) / size = slot := by
    intro slot index bound
    rw [Nat.mul_comm, Nat.mul_add_div positive, Nat.div_eq_of_lt bound, Nat.add_zero]
  apply other
  rw [← @quotient (first % slots) i inside, ← @quotient (second % slots) j also]
  exact congrArg (· / size) same

theorem slots_differ {first second : ℕ} (later : first < second) (near : second < first + slots) :
    first % slots ≠ second % slots := by
  intro same
  have divides : slots ∣ second - first := (Nat.modEq_iff_dvd' later.le).mp same
  have large := Nat.le_of_dvd (Nat.sub_pos_of_lt later) divides
  omega

end Places

section Buffers

variable {Byte : Type*} (slots size : ℕ)

/-- Of each block `arrived` bytes have been written; `total` blocks have been begun, and of
the last ones, as many as there are slots, the bytes are in the buffer. -/
structure Rotates (memory : ℕ → Byte) (source : ℕ → ℕ → Byte) (arrived : ℕ → ℕ) (total : ℕ) :
    Prop where
  bounded : ∀ block, arrived block ≤ size
  holds : ∀ block < total, total ≤ block + slots → ∀ index < arrived block,
    memory (place slots size block index) = source block index

variable {slots size} {memory : ℕ → Byte} {source : ℕ → ℕ → Byte} {arrived later : ℕ → ℕ}
  {total : ℕ}

theorem Rotates.empty (memory : ℕ → Byte) (source : ℕ → ℕ → Byte)
    (bounded : ∀ block, arrived block ≤ size) : Rotates slots size memory source arrived 0 where
  bounded := bounded
  holds := by
    intro block none_
    cases none_

/-- A block is begun: the oldest one may be overwritten from now on. -/
theorem Rotates.begins (rotates : Rotates slots size memory source arrived total)
    (unwritten : arrived total = 0) : Rotates slots size memory source arrived (total + 1) where
  bounded := rotates.bounded
  holds := by
    intro block begun recent index inside
    rcases Nat.lt_succ_iff_lt_or_eq.mp begun with old | rfl
    · exact rotates.holds block old (by omega) index inside
    · rw [unwritten] at inside
      cases inside

theorem Rotates.arrives (rotates : Rotates slots size memory source arrived total) {block : ℕ}
    (begun : block < total) (recent : total ≤ block + slots) (room : arrived block < size)
    (own : later block = arrived block + 1)
    (others : ∀ other, other ≠ block → later other = arrived other) :
    Rotates slots size
      (Function.update memory (place slots size block (arrived block))
        (source block (arrived block)))
      source later total where
  bounded := by
    intro other
    by_cases same : other = block
    · rw [same, own]
      exact room
    · rw [others other same]
      exact rotates.bounded other
  holds := by
    intro other begun' recent' index inside
    by_cases same : other = block
    · subst same
      rw [own] at inside
      rcases Nat.lt_succ_iff_lt_or_eq.mp inside with old | rfl
      · rw [Function.update_of_ne]
        · exact rotates.holds other begun' recent' index old
        · intro place_
          exact Nat.ne_of_lt old (Nat.add_left_cancel place_)
      · rw [Function.update_self]
    · rw [others other same] at inside
      have bound : index < size := Nat.lt_of_lt_of_le inside (rotates.bounded other)
      rw [Function.update_of_ne]
      · exact rotates.holds other begun' recent' index inside
      · rcases Nat.lt_or_gt_of_ne same with earlier | newer
        · exact place_ne (slots_differ earlier (by omega)) bound room
        · exact (place_ne (slots_differ newer (by omega)) room bound).symm

end Buffers

end FpgaPcie.Rotation
