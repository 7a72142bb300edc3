import Mathlib.Data.List.Nodup
import Mathlib.Data.List.Induction

/-!
# Values placed at addresses

A list of values lies in memory at a list of addresses, one for each. An agent that knows the
addresses only picks values and puts new ones there. Where no address occurs twice, a stretch of
the addresses stands for the same stretch of the values.
-/

namespace FpgaPcie.Scatter

set_option autoImplicit false

variable {Address Value : Type*}

def splice (values : List Value) (start : ℕ) (fresh : List Value) : List Value :=
  values.take start ++ (fresh ++ values.drop (start + fresh.length))

@[simp] theorem splice_nil (values : List Value) (start : ℕ) : splice values start [] = values := by
  simp [splice]

theorem splice_length {values fresh : List Value} {start : ℕ}
    (inside : start + fresh.length ≤ values.length) :
    (splice values start fresh).length = values.length := by
  simp only [splice, List.length_append, List.length_take, List.length_drop]
  omega

theorem splice_getElem? {values fresh : List Value} {start : ℕ}
    (inside : start + fresh.length ≤ values.length) (index : ℕ) :
    (splice values start fresh)[index]? =
      if start ≤ index ∧ index < start + fresh.length then fresh[index - start]?
      else values[index]? := by
  have front : (values.take start).length = start := by
    rw [List.length_take]
    omega
  by_cases before : index < start
  · have notIn : ¬(start ≤ index ∧ index < start + fresh.length) := by omega
    rw [splice, if_neg notIn, List.getElem?_append_left (by omega), List.getElem?_take_of_lt before]
  · rw [splice, List.getElem?_append_right (by omega), front]
    by_cases within : index < start + fresh.length
    · rw [if_pos ⟨by omega, within⟩, List.getElem?_append_left (by omega)]
    · rw [if_neg (by omega), List.getElem?_append_right (by omega), List.getElem?_drop]
      congr 1
      omega

theorem splice_reads {values fresh : List Value} {start : ℕ}
    (inside : start + fresh.length ≤ values.length) :
    ((splice values start fresh).drop start).take fresh.length = fresh := by
  have front : (values.take start).length = start := by
    rw [List.length_take]
    omega
  rw [splice, List.drop_left' front, List.take_left' rfl]

theorem splice_append {values front back : List Value} {start : ℕ}
    (inside : start + front.length ≤ values.length) :
    splice (splice values start front) (start + front.length) back =
      splice values start (front ++ back) := by
  have length : (values.take start ++ front).length = start + front.length := by
    rw [List.length_append, List.length_take]
    omega
  have regroup : splice values start front =
      (values.take start ++ front) ++ values.drop (start + front.length) := by
    rw [splice, List.append_assoc]
  have skip : start + front.length + back.length =
      (values.take start ++ front).length + back.length := by rw [length]
  rw [splice, regroup, List.take_left' length, skip, ← List.drop_drop, List.drop_left,
    List.drop_drop]
  simp only [splice, List.length_append, List.append_assoc, Nat.add_assoc]

variable [DecidableEq Address]

/-- What is read at an address; `missing` where nothing lies there. -/
def pick (addresses : List Address) (values : List Value) (missing : Value)
    (targets : List Address) : List Value :=
  targets.map fun address => values.getD (addresses.idxOf address) missing

/-- Stores one after the other; `List.set` leaves the list alone where nothing lies. -/
def put (addresses : List Address) : List (Address × Value) → List Value → List Value
  | [], values => values
  | (address, value) :: rest, values =>
      put addresses rest (values.set (addresses.idxOf address) value)

theorem pick_stretch {addresses : List Address} (distinct : addresses.Nodup) {values : List Value}
    (paired : values.length = addresses.length) (missing : Value) (start count : ℕ) :
    pick addresses values missing ((addresses.drop start).take count) =
      (values.drop start).take count := by
  apply List.ext_getElem?
  intro index
  simp only [pick, List.getElem?_map, List.getElem?_take, List.getElem?_drop]
  by_cases early : index < count
  · simp only [if_pos early]
    by_cases bound : start + index < addresses.length
    · have here := distinct.idxOf_getElem (start + index) bound
      rw [List.getElem?_eq_getElem bound, Option.map_some, here, List.getD_eq_getElem?_getD,
        List.getElem?_eq_getElem (paired ▸ bound)]
      rfl
    · rw [List.getElem?_eq_none (by omega), List.getElem?_eq_none (by omega), Option.map_none]
  · simp only [if_neg early, Option.map_none]

theorem put_stretch {addresses : List Address} (distinct : addresses.Nodup)
    (fresh : List Value) {values : List Value} (paired : values.length = addresses.length)
    (start count : ℕ) (inside : start + count ≤ addresses.length) (few : fresh.length ≤ count) :
    put addresses (((addresses.drop start).take count).zip fresh) values =
      splice values start fresh := by
  induction fresh generalizing values start count with
  | nil => simp [put]
  | cons value rest ih =>
      obtain ⟨count, rfl⟩ : ∃ fewer, count = fewer + 1 := ⟨count - 1, by simp at few; omega⟩
      have bound : start < addresses.length := by omega
      have here : addresses.idxOf addresses[start] = start := distinct.idxOf_getElem start bound
      have one : values.set start value = splice values start [value] := by
        rw [splice, List.set_eq_take_append_cons_drop, if_pos (by omega)]
        rfl
      rw [List.drop_eq_getElem_cons bound, List.take_succ_cons, List.zip_cons_cons, put, here,
        ih (by simpa using paired) (start + 1) count (by omega) (by simpa using few), one]
      exact splice_append (by simp; omega)

end FpgaPcie.Scatter
