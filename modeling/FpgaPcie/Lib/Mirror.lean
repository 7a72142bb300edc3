import FpgaPcie.Lib.Keyed
import Mathlib.Data.List.Perm.Basic

/-!
# One side's items on the other side's list

Owners keep what they were told of their items: the number under which the other side made
each, and the key by which it is asked for. The list mirrors the owners if it has an item for
each of them and no others.
-/

namespace FpgaPcie.Mirror

open FpgaPcie.Keyed

set_option autoImplicit false

section Mirrors

variable {Owner Item Key : Type}

structure Mirrors (owners : List Owner) (numbers : Owner → ℕ) (keys : Owner → Option Key)
    (items : List Item) (number : Item → ℕ) (key : Item → Key) : Prop where
  numbered : (owners.map numbers).Perm (items.map number)
  keyed : ∀ owner ∈ owners, ∀ item ∈ items, number item = numbers owner →
    keys owner = some (key item)

variable {owners others : List Owner} {owner : Owner} {numbers : Owner → ℕ}
  {keys : Owner → Option Key} {items : List Item} {item : Item} {number : Item → ℕ}
  {key : Item → Key}

namespace Mirrors

theorem empty : Mirrors ([] : List Owner) numbers keys ([] : List Item) number key :=
  ⟨.nil, fun _ member => nomatch member⟩

theorem perm (mirrors : Mirrors owners numbers keys items number key)
    (perm : owners.Perm others) : Mirrors others numbers keys items number key :=
  ⟨(perm.map numbers).symm.trans mirrors.numbered,
    fun owner member => mirrors.keyed owner (perm.mem_iff.mpr member)⟩

theorem found (mirrors : Mirrors (owner :: owners) numbers keys items number key) :
    ∃ item ∈ items, number item = numbers owner ∧ keys owner = some (key item) := by
  have listed : numbers owner ∈ items.map number :=
    mirrors.numbered.mem_iff.mp List.mem_cons_self
  obtain ⟨item, inside, same⟩ := List.mem_map.mp listed
  exact ⟨item, inside, same, mirrors.keyed owner List.mem_cons_self item inside same⟩

theorem removed (mirrors : Mirrors (owner :: owners) numbers keys items number key)
    (distinct : Distinct number items) (inside : item ∈ items)
    (own : number item = numbers owner) :
    Mirrors owners numbers keys (items.eraseP fun other => number other = number item) number
      key := by
  constructor
  · have split := (distinct.perm_erase inside).map number
    rw [List.map_cons, own] at split
    have whole := mirrors.numbered.trans split
    rw [own]
    exact whole.cons_inv
  · intro other member asked there equal
    exact mirrors.keyed other (List.mem_cons_of_mem _ member) asked
      (List.mem_of_mem_eraseP there) equal

variable [DecidableEq Owner]

theorem told (mirrors : Mirrors owners numbers keys items number key) (absent : owner ∉ owners)
    (told : ℕ) : Mirrors owners (Function.update numbers owner told) keys items number key := by
  have same : ∀ other ∈ owners, Function.update numbers owner told other = numbers other := by
    intro other member
    apply Function.update_of_ne
    intro equal
    exact absent (equal ▸ member)
  constructor
  · rw [List.map_congr_left same]
    exact mirrors.numbered
  · intro other member item inside equal
    rw [same other member] at equal
    exact mirrors.keyed other member item inside equal

theorem added (mirrors : Mirrors owners numbers keys items number key) (absent : owner ∉ owners)
    (fresh : ∀ other ∈ items, number other ≠ number item) :
    Mirrors (owner :: owners) (Function.update numbers owner (number item))
      (Function.update keys owner (some (key item))) (items ++ [item]) number key := by
  have old := mirrors.told absent (number item)
  constructor
  · rw [List.map_cons, List.map_append, Function.update_self, List.map_singleton]
    exact (old.numbered.cons _).trans (List.perm_append_singleton _ _).symm
  · intro other member asked inside equal
    rcases List.mem_cons.mp member with rfl | before
    · rw [Function.update_self] at equal ⊢
      rcases List.mem_append.mp inside with there | new
      · exact absurd equal (fresh asked there)
      · rw [List.mem_singleton.mp new]
    · have differs : other ≠ owner := fun same => absent (same ▸ before)
      rw [Function.update_of_ne differs]
      rcases List.mem_append.mp inside with there | new
      · exact old.keyed other before asked there equal
      · rw [Function.update_of_ne differs, List.mem_singleton.mp new] at equal
        have taken : numbers other ∈ items.map number :=
          mirrors.numbered.mem_iff.mp (List.mem_map_of_mem before)
        obtain ⟨found, there, same⟩ := List.mem_map.mp taken
        exact absurd (same.trans equal.symm) (fresh found there)

end Mirrors

end Mirrors

end FpgaPcie.Mirror
