import FpgaPcie.Lib.Segments

/-!
# Paged address spaces

Pages of one size each start at an address of their own. A range of positions is
translated position by position, and a part of it that stays inside one page is a
single segment.
-/

namespace FpgaPcie.Paging

open FpgaPcie.Segments

set_option autoImplicit false

variable {Address : Type*} [AddMonoidWithOne Address] (page : ℕ) (base : ℕ → Address)

def translateAt (position : ℕ) : Address := base (position / page) + ((position % page : ℕ) : Address)

def translateRange (start count : ℕ) : List Address :=
  (List.range' start count).map (translateAt page base)

variable {page base}

@[simp] theorem translate_range_zero (start : ℕ) : translateRange page base start 0 = [] := rfl

theorem translate_range_append (start front back : ℕ) :
    translateRange page base start (front + back) =
      translateRange page base start front ++ translateRange page base (start + front) back := by
  have split := @List.range'_append start front back 1
  rw [Nat.one_mul] at split
  rw [translateRange, ← split, List.map_append]
  rfl

theorem translate_inside {start skipped : ℕ} (inside : start % page + skipped < page) :
    translateAt page base (start + skipped) = translateAt page base start + (skipped : Address) := by
  have positive : 0 < page := by omega
  have samePage : (start + skipped) / page = start / page := by
    rw [Nat.add_div positive, Nat.div_eq_of_lt (by omega : skipped < page),
      Nat.mod_eq_of_lt (by omega : skipped < page), if_neg (by omega)]
    rfl
  have further : (start + skipped) % page = start % page + skipped := by
    rw [Nat.add_mod, Nat.mod_eq_of_lt (by omega : skipped < page), Nat.mod_eq_of_lt inside]
  rw [translateAt, translateAt, samePage, further, Nat.cast_add, add_assoc]

theorem translate_range_inside {start count : ℕ} (inside : start % page + count ≤ page) :
    translateRange page base start count = expand ⟨translateAt page base start, count⟩ := by
  rw [translateRange, expand, List.range'_eq_map_range, List.map_map]
  apply List.map_congr_left
  intro index member
  have bound := List.mem_range.mp member
  exact translate_inside (by omega)

theorem translate_range_from (start count : ℕ) :
    translateRange page (fun index => base (index - start / page)) start count =
      translateRange page base (start % page) count := by
  rw [translateRange, translateRange, List.range'_eq_map_range, List.range'_eq_map_range,
    List.map_map, List.map_map]
  apply List.map_congr_left
  intro index _
  have quotient : (start + index) / page - start / page = (start % page + index) / page := by
    rcases Nat.eq_zero_or_pos page with rfl | positive
    · simp
    · conv_lhs => rw [← Nat.div_add_mod start page, Nat.add_assoc, Nat.mul_add_div positive]
      simp [Nat.mul_add_div positive, Nat.div_eq_of_lt (Nat.mod_lt start positive)]
  have remainder : (start + index) % page = (start % page + index) % page := by
    rw [Nat.mod_add_mod]
  simp only [Function.comp, translateAt, quotient, remainder]

end FpgaPcie.Paging
