import Mathlib.Logic.Function.Basic
import Mathlib.Data.List.Induction
import Mathlib.Data.List.Nodup

/-!
# Stores into a memory

A memory is a function of the address, and what a program leaves in it depends on the list of
its stores: each address holds the value stored there last, or what it held before.
-/

namespace FpgaPcie.Ram

set_option autoImplicit false

variable {Address Value : Type*} [DecidableEq Address]

abbrev Store (Address Value : Type*) := Address × Value

def contents : List (Store Address Value) → (Address → Value) → Address → Value
  | [], memory => memory
  | (address, value) :: rest, memory => contents rest (Function.update memory address value)

@[simp] theorem contents_nil (memory : Address → Value) : contents [] memory = memory := rfl

@[simp] theorem contents_cons (address : Address) (value : Value)
    (rest : List (Store Address Value)) (memory : Address → Value) :
    contents ((address, value) :: rest) memory =
      contents rest (Function.update memory address value) := rfl

theorem contents_append (front back : List (Store Address Value)) (memory : Address → Value) :
    contents (front ++ back) memory = contents back (contents front memory) := by
  induction front generalizing memory with
  | nil => rfl
  | cons store rest ih => exact ih _

theorem contents_elsewhere {stores : List (Store Address Value)} {address : Address}
    (outside : address ∉ stores.map Prod.fst) (memory : Address → Value) :
    contents stores memory address = memory address := by
  induction stores generalizing memory with
  | nil => rfl
  | cons store rest ih =>
      simp only [List.map_cons, List.mem_cons, not_or] at outside
      rw [contents_cons, ih outside.2, Function.update_of_ne outside.1]

/-- What was there before makes no difference where something is stored. -/
theorem contents_stored {stores : List (Store Address Value)} {address : Address}
    (inside : address ∈ stores.map Prod.fst) (memory other : Address → Value) :
    contents stores memory address = contents stores other address := by
  induction stores generalizing memory other with
  | nil => cases inside
  | cons store rest ih =>
      rw [contents_cons, contents_cons]
      by_cases later : address ∈ rest.map Prod.fst
      · exact ih later _ _
      · have here : address = store.1 := by
          simp only [List.map_cons, List.mem_cons] at inside
          exact inside.resolve_right later
        rw [contents_elsewhere later, contents_elsewhere later, here, Function.update_self,
          Function.update_self]

theorem contents_overwritten {front back : List (Store Address Value)}
    (covered : ∀ store ∈ front, store.1 ∈ back.map Prod.fst) (memory : Address → Value) :
    contents (front ++ back) memory = contents back memory := by
  funext address
  rw [contents_append]
  by_cases inside : address ∈ back.map Prod.fst
  · exact contents_stored inside _ _
  · rw [contents_elsewhere inside, contents_elsewhere inside, contents_elsewhere]
    intro stored
    obtain ⟨store, member, rfl⟩ := List.mem_map.mp stored
    exact inside (covered store member)

/-- Where no address is stored to twice, each holds the one value stored there. -/
theorem contents_distinct {stores : List (Store Address Value)}
    (distinct : (stores.map Prod.fst).Nodup) {address : Address} {value : Value}
    (member : (address, value) ∈ stores) (memory : Address → Value) :
    contents stores memory address = value := by
  induction stores generalizing memory with
  | nil => cases member
  | cons store rest ih =>
      rw [List.map_cons, List.nodup_cons] at distinct
      rw [contents_cons]
      rcases List.mem_cons.mp member with rfl | later
      · rw [contents_elsewhere distinct.1, Function.update_self]
      · exact ih distinct.2 later _

def lastStored (address : Address) (stores : List (Store Address Value)) : Option Value :=
  (stores.filterMap fun store => if store.1 = address then some store.2 else none).getLast?

theorem contents_last (stores : List (Store Address Value)) (memory : Address → Value)
    (address : Address) :
    contents stores memory address = (lastStored address stores).getD (memory address) := by
  induction stores using List.reverseRecOn with
  | nil => rfl
  | append_singleton front store ih =>
      unfold lastStored at ih ⊢
      rw [contents_append, contents_cons, contents_nil, List.filterMap_append]
      by_cases here : store.1 = address
      · simp [here]
      · rw [Function.update_of_ne (Ne.symm here), ih]
        simp [here]

end FpgaPcie.Ram
