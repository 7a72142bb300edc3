import FpgaPcie.Lib.PageTable
import Mathlib.Order.Basic

/-!
# Mappings in an address space

Every mapping has a number and a range of virtual pages of its own. Frames are entered from
some page on, not always as many as the mapping has pages, and only where nothing is entered
yet. Taking one mapping away leaves the others as they are.
-/

namespace FpgaPcie.AddressSpace

open FpgaPcie.PageTable

set_option autoImplicit false

structure Space where
  owner : Table
  table : Table
  created : ℕ

structure Placement where
  number : ℕ
  start : ℕ
  pages : ℕ
  deriving DecidableEq, Repr

namespace Placement

def Has (placement : Placement) (index : ℕ) : Prop := InRange placement.start placement.pages index

instance (placement : Placement) (index : ℕ) : Decidable (placement.Has index) := instDecidableAnd

end Placement

namespace Space

/-- A new mapping, with `count` frames entered from the page `first` on. -/
def map (space : Space) (start pages first frame count : ℕ) : Option Space :=
  if Empty space.table first count then
    some {
      owner := fun index => if InRange start pages index then some space.created else space.owner index
      table := write space.table first frame count
      created := space.created + 1 }
  else none

/-- A mapping that is given up again after `count` frames. Its own pages are cleared. -/
def abandon (space : Space) (start pages first frame count : ℕ) : Option Space :=
  if Empty space.table first count then
    some { space with table := clear (write space.table first frame count) start pages }
  else none

def unmap (space : Space) (start pages : ℕ) : Space :=
  { space with
    owner := clear space.owner start pages
    table := fun index =>
      if (space.owner index).isSome then clear space.table start pages index
      else space.table index }

structure Owns (space : Space) (placement : Placement) : Prop where
  made : placement.number < space.created
  owned : ∀ index, space.owner index = some placement.number ↔ placement.Has index

def Shows (space : Space) (placement : Placement) (frame : ℕ) : Prop :=
  ∀ index, placement.Has index → space.table index = some (frame + (index - placement.start))

def Numbered (space : Space) : Prop :=
  ∀ index number, space.owner index = some number → number < space.created

structure Removes (number : ℕ) (before after : Space) : Prop where
  gone : ∀ index, before.owner index = some number →
    after.owner index = none ∧ after.table index = none
  kept : ∀ index, before.owner index ≠ some number →
    after.owner index = before.owner index ∧ after.table index = before.table index

end Space

section Laws

variable {space after : Space} {placement other : Placement}
  {start pages first frame count shown : ℕ}

theorem map_cases (mapped : space.map start pages first frame count = some after) :
    Empty space.table first count ∧ after =
      ⟨fun index => if InRange start pages index then some space.created else space.owner index,
        write space.table first frame count, space.created + 1⟩ := by
  rw [Space.map] at mapped
  split at mapped
  · rename_i empty
    exact ⟨empty, (Option.some.inj mapped).symm⟩
  · cases mapped

theorem abandon_cases (given : space.abandon start pages first frame count = some after) :
    Empty space.table first count ∧ after =
      { space with table := clear (write space.table first frame count) start pages } := by
  rw [Space.abandon] at given
  split at given
  · rename_i empty
    exact ⟨empty, (Option.some.inj given).symm⟩
  · cases given

theorem map_numbered (numbered : space.Numbered)
    (mapped : space.map start pages first frame count = some after) : after.Numbered := by
  obtain ⟨-, rfl⟩ := map_cases mapped
  intro index number owned
  simp only at owned ⊢
  split at owned
  · rw [← Option.some.inj owned]
    exact Nat.lt_succ_self _
  · exact Nat.lt_succ_of_lt (numbered index number owned)

theorem map_owns_new (numbered : space.Numbered)
    (mapped : space.map start pages first frame count = some after) :
    after.Owns ⟨space.created, start, pages⟩ := by
  obtain ⟨-, rfl⟩ := map_cases mapped
  constructor
  · exact Nat.lt_succ_self _
  · intro index
    simp only
    split
    · rename_i inside
      exact iff_of_true rfl inside
    · rename_i outside
      apply iff_of_false _ outside
      intro owned
      exact absurd (numbered index _ owned) (Nat.lt_irrefl _)

theorem map_owns (free : Empty space.owner start pages) (owns : space.Owns other)
    (mapped : space.map start pages first frame count = some after) : after.Owns other := by
  obtain ⟨-, rfl⟩ := map_cases mapped
  constructor
  · exact Nat.lt_succ_of_lt owns.made
  · intro index
    rw [← owns.owned index]
    simp only
    split
    · rename_i inside
      rw [free.at inside]
      apply iff_of_false _ nofun
      intro new
      exact absurd (Option.some.inj new) (Nat.ne_of_gt owns.made)
    · exact Iff.rfl

theorem map_shows_new (enough : pages ≤ count)
    (mapped : space.map start pages start frame count = some after) :
    after.Shows ⟨space.created, start, pages⟩ frame := by
  obtain ⟨-, rfl⟩ := map_cases mapped
  intro index inside
  apply write_inside
  exact ⟨inside.1, Nat.lt_of_lt_of_le inside.2 (Nat.add_le_add_left enough _)⟩

theorem map_shows (shows : space.Shows other shown)
    (mapped : space.map start pages first frame count = some after) : after.Shows other shown := by
  obtain ⟨empty, rfl⟩ := map_cases mapped
  intro index inside
  exact write_used empty (shows index inside)

theorem abandon_numbered (numbered : space.Numbered)
    (given : space.abandon start pages first frame count = some after) : after.Numbered := by
  obtain ⟨-, rfl⟩ := abandon_cases given
  exact numbered

theorem abandon_owns (owns : space.Owns other)
    (given : space.abandon start pages first frame count = some after) : after.Owns other := by
  obtain ⟨-, rfl⟩ := abandon_cases given
  exact ⟨owns.made, owns.owned⟩

theorem abandon_shows (free : Empty space.owner start pages) (owns : space.Owns other)
    (shows : space.Shows other shown)
    (given : space.abandon start pages first frame count = some after) :
    after.Shows other shown := by
  obtain ⟨empty, rfl⟩ := abandon_cases given
  intro index inside
  have apart : ¬InRange start pages index := by
    intro cleared
    have owned := (owns.owned index).mpr inside
    rw [free.at cleared] at owned
    cases owned
  show clear _ start pages index = _
  rw [clear_outside apart]
  exact write_used empty (shows index inside)

theorem unmap_numbered (numbered : space.Numbered) (start pages : ℕ) :
    (space.unmap start pages).Numbered := by
  intro index number owned
  have left : clear space.owner start pages index = some number := owned
  by_cases inside : InRange start pages index
  · rw [clear_inside inside] at left
    cases left
  · rw [clear_outside inside] at left
    exact numbered index number left

theorem unmap_removes (owns : space.Owns placement) :
    Space.Removes placement.number space (space.unmap placement.start placement.pages) := by
  constructor
  · intro index owned
    have inside : InRange placement.start placement.pages index := (owns.owned index).mp owned
    constructor
    · exact clear_inside inside
    · rw [Space.unmap]
      simp only [owned, Option.isSome_some, if_true]
      exact clear_inside inside
  · intro index foreign
    have outside : ¬InRange placement.start placement.pages index :=
      fun inside => foreign ((owns.owned index).mpr inside)
    constructor
    · exact clear_outside outside
    · rw [Space.unmap]
      simp only [clear_outside outside, ite_self]

theorem removes_owns {number : ℕ} (removes : Space.Removes number space after)
    (same : after.created = space.created) (owns : space.Owns other) (apart : other.number ≠ number) :
    after.Owns other := by
  constructor
  · exact same ▸ owns.made
  · intro index
    rw [← owns.owned index]
    by_cases here : space.owner index = some number
    · rw [(removes.gone index here).1, here]
      apply iff_of_false nofun
      intro equal
      exact apart (Option.some.inj equal).symm
    · rw [(removes.kept index here).1]

theorem removes_shows {number : ℕ} (removes : Space.Removes number space after)
    (owns : space.Owns other) (apart : other.number ≠ number) (shows : space.Shows other shown) :
    after.Shows other shown := by
  intro index inside
  have owned := (owns.owned index).mpr inside
  have foreign : space.owner index ≠ some number := by
    rw [owned]
    exact fun equal => apart (Option.some.inj equal)
  rw [(removes.kept index foreign).2]
  exact shows index inside

end Laws

end FpgaPcie.AddressSpace
