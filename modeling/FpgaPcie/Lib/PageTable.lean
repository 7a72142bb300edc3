import Mathlib.Data.Nat.Notation
import Mathlib.Logic.Basic
import Mathlib.Tactic.Common

/-!
# Page tables

Virtual pages lead to page frames of the same size. A range of consecutive pages is
entered and cleared at once; what lies outside of the range stays as it is.
-/

namespace FpgaPcie.PageTable

set_option autoImplicit false

abbrev Table := ℕ → Option ℕ

/-- The whole pages that `size` bytes take. -/
def pagesFor (page size : ℕ) : ℕ := (size + page - 1) / page

def roundUp (page size : ℕ) : ℕ := pagesFor page size * page

/-- `address` and the bytes behind it, in pages. -/
def pagesTouched (page address size : ℕ) : ℕ := pagesFor page (address % page + size)

def InRange (start count index : ℕ) : Prop := start ≤ index ∧ index < start + count

instance (start count index : ℕ) : Decidable (InRange start count index) := instDecidableAnd

def write (table : Table) (start frame count : ℕ) : Table := fun index =>
  if InRange start count index then some (frame + (index - start)) else table index

def clear (table : Table) (start count : ℕ) : Table := fun index =>
  if InRange start count index then none else table index

def Empty (table : Table) (start count : ℕ) : Prop :=
  ∀ offset < count, table (start + offset) = none

instance (table : Table) (start count : ℕ) : Decidable (Empty table start count) :=
  Nat.decidableBallLT _ _

def translate (table : Table) (page address : ℕ) : Option ℕ :=
  (table (address / page)).map fun frame => frame * page + address % page

section Sizes

variable {page size length : ℕ}

theorem size_le_round_up (positive : 0 < page) : size ≤ roundUp page size := by
  have parts := Nat.div_add_mod (size + page - 1) page
  have small := Nat.mod_lt (size + page - 1) positive
  rw [roundUp, pagesFor, Nat.mul_comm]
  omega

theorem round_up_le (positive : 0 < page) (pages : ℕ) (covers : size ≤ pages * page) :
    roundUp page size ≤ pages * page := by
  apply Nat.mul_le_mul_right
  rw [pagesFor, ← Nat.lt_succ_iff, Nat.div_lt_iff_lt_mul positive, Nat.succ_mul]
  omega

theorem pages_for_one (some_ : 0 < size) (short : size ≤ page) : pagesFor page size = 1 := by
  have positive : 0 < page := Nat.lt_of_lt_of_le some_ short
  rw [pagesFor, Nat.div_eq_of_lt_le] <;> omega

theorem pages_for_mono (larger : size ≤ length) : pagesFor page size ≤ pagesFor page length :=
  Nat.div_le_div_right (by omega)

end Sizes

section Tables

variable {table : Table} {start frame count index page : ℕ}

theorem write_inside (inside : InRange start count index) :
    write table start frame count index = some (frame + (index - start)) := if_pos inside

theorem write_outside (outside : ¬InRange start count index) :
    write table start frame count index = table index := if_neg outside

theorem clear_inside (inside : InRange start count index) :
    clear table start count index = none := if_pos inside

theorem clear_outside (outside : ¬InRange start count index) :
    clear table start count index = table index := if_neg outside

theorem Empty.at (empty : Empty table start count) (inside : InRange start count index) :
    table index = none := by
  have found := empty (index - start) (by have := inside.1; have := inside.2; omega)
  rwa [Nat.add_sub_cancel' inside.1] at found

theorem write_used (empty : Empty table start count) {entry : ℕ} (used : table index = some entry) :
    write table start frame count index = some entry := by
  rw [write_outside, used]
  intro inside
  rw [empty.at inside] at used
  cases used

theorem translate_eq {entry : ℕ} (found : table (index / page) = some entry) :
    translate table page index = some (entry * page + index % page) := by
  rw [translate, found]
  rfl

end Tables

end FpgaPcie.PageTable
