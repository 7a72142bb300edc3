import Mathlib.Data.Nat.Cast.Basic
import Mathlib.Algebra.BigOperators.Group.List.Basic

/-!
# Segment lists

A scatter/gather list, a descriptor chain and a page table all name memory the
same way: as a list of (start address, length) segments. `expandAll` is the
sequence of single addresses such a list stands for, and the lemmas below say
how cutting a list at a byte position cuts that sequence. Addresses live in any
additive monoid with one, so that modular (wrapping) address types are covered.
-/

namespace FpgaPcie.Segments

set_option autoImplicit false

structure Segment (Address : Type*) where
  address : Address
  length : ℕ
  deriving DecidableEq, Repr

variable {Address : Type*}

def totalLength (segments : List (Segment Address)) : ℕ := (segments.map Segment.length).sum

@[simp] theorem total_length_nil : totalLength ([] : List (Segment Address)) = 0 := rfl

@[simp] theorem total_length_cons (segment : Segment Address) (rest : List (Segment Address)) :
    totalLength (segment :: rest) = segment.length + totalLength rest := by
  simp [totalLength]

@[simp] theorem total_length_append (left right : List (Segment Address)) :
    totalLength (left ++ right) = totalLength left + totalLength right := by
  simp [totalLength]

variable [AddMonoidWithOne Address]

def expand (segment : Segment Address) : List Address :=
  (List.range segment.length).map fun index : ℕ => segment.address + (index : Address)

def expandAll (segments : List (Segment Address)) : List Address := segments.flatMap expand

@[simp] theorem expand_length (segment : Segment Address) :
    (expand segment).length = segment.length := by
  simp [expand]

@[simp] theorem expand_all_nil : expandAll ([] : List (Segment Address)) = [] := rfl

@[simp] theorem expand_all_cons (segment : Segment Address) (rest : List (Segment Address)) :
    expandAll (segment :: rest) = expand segment ++ expandAll rest := by
  simp [expandAll]

@[simp] theorem expand_all_append (left right : List (Segment Address)) :
    expandAll (left ++ right) = expandAll left ++ expandAll right := by
  simp [expandAll]

@[simp] theorem expand_all_length (segments : List (Segment Address)) :
    (expandAll segments).length = totalLength segments := by
  induction segments with
  | nil => rfl
  | cons segment rest ih => simp [ih]

/-- A segment splits at any inner position into two adjoining ones. -/
theorem expand_split (address : Address) (front back : ℕ) :
    expand ⟨address, front + back⟩ =
      expand ⟨address, front⟩ ++ expand ⟨address + (front : Address), back⟩ := by
  simp only [expand, List.range_add, List.map_append, List.map_map]
  congr 1
  apply List.map_congr_left
  intro index _
  simp [add_assoc]

theorem expand_drop (segment : Segment Address) (skipped : ℕ) (inside : skipped ≤ segment.length) :
    (expand segment).drop skipped =
      expand ⟨segment.address + (skipped : Address), segment.length - skipped⟩ := by
  have split := expand_split segment.address skipped (segment.length - skipped)
  rw [Nat.add_sub_cancel' inside] at split
  rw [show segment = ⟨segment.address, segment.length⟩ from rfl, split]
  simp

theorem expand_take (segment : Segment Address) (kept : ℕ) (inside : kept ≤ segment.length) :
    (expand segment).take kept = expand ⟨segment.address, kept⟩ := by
  have split := expand_split segment.address kept (segment.length - kept)
  rw [Nat.add_sub_cancel' inside] at split
  rw [show segment = ⟨segment.address, segment.length⟩ from rfl, split]
  simp

/-- Skipping to a position inside the segment that follows `before`. -/
theorem expand_all_drop (before after : List (Segment Address)) (segment : Segment Address)
    (skipped : ℕ) (inside : skipped ≤ segment.length) :
    (expandAll (before ++ segment :: after)).drop (totalLength before + skipped) =
      expand ⟨segment.address + (skipped : Address), segment.length - skipped⟩ ++
        expandAll after := by
  rw [expand_all_append, expand_all_cons, ← List.drop_drop,
    List.drop_left' (expand_all_length before), List.drop_append_of_le_length (by simpa using inside),
    expand_drop segment skipped inside]

/-- Keeping everything up to a position inside the segment that follows `before`. -/
theorem expand_all_take (before after : List (Segment Address)) (segment : Segment Address)
    (kept : ℕ) (inside : kept ≤ segment.length) :
    (expandAll (before ++ segment :: after)).take (totalLength before + kept) =
      expandAll before ++ expand ⟨segment.address, kept⟩ := by
  rw [expand_all_append, expand_all_cons, List.take_add, List.take_left' (expand_all_length before),
    List.drop_left' (expand_all_length before), List.take_append_of_le_length (by simpa using inside),
    expand_take segment kept inside]

theorem expand_inside (address : Address) {skipped kept length : ℕ}
    (fits : skipped + kept ≤ length) :
    ∀ item ∈ expand ⟨address + (skipped : Address), kept⟩, item ∈ expand ⟨address, length⟩ := by
  intro item member
  simp only [expand, List.mem_map, List.mem_range] at member ⊢
  obtain ⟨index, bound, rfl⟩ := member
  refine ⟨skipped + index, by omega, ?_⟩
  rw [Nat.cast_add, add_assoc]

end FpgaPcie.Segments
