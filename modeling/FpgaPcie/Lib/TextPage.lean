import Mathlib.Algebra.Group.Nat.Defs
import Mathlib.Data.List.GetD
import Mathlib.Data.Int.Basic
import Mathlib.Tactic.Common

/-!
# Formatted text in a buffer

Text is printed piece by piece behind what a buffer holds already, each piece with the room
that is left. A piece is stored as far as the room goes, with a terminator behind it, and is
counted in full. The positions are integers, so that nothing is said away about what lies in
front of the buffer.
-/

namespace FpgaPcie.TextPage

set_option autoImplicit false

abbrev Memory := ℤ → Char

def nul : Char := Char.ofNat 0

def put (memory : Memory) (start : ℤ) (text : List Char) : Memory := fun position =>
  if start ≤ position then text.getD (position - start).toNat (memory position)
  else memory position

def snprintf (memory : Memory) (start : ℤ) (room : ℕ) (text : List Char) : Memory :=
  if room = 0 then memory else put memory start (text.take (room - 1) ++ [nul])

def decimal (value : ℕ) : List Char := Nat.toDigits 10 value

def padded (width : ℕ) (fill : Char) (text : List Char) : List Char :=
  List.replicate (width - text.length) fill ++ text

def signedDecimal (width : ℕ) (value : ℤ) : List Char :=
  padded width ' ' (if value < 0 then '-' :: decimal value.natAbs else decimal value.natAbs)

/-- A `%lx` with a width and leading zeros. -/
def zeroedHex (width value : ℕ) : List Char := padded width '0' (Nat.toDigits 16 value)

theorem decimal_length {value digits : ℕ} (positive : 0 < digits) (small : value < 10 ^ digits) :
    (decimal value).length ≤ digits :=
  (Nat.length_toDigits_le_iff (by decide) positive).mpr small

theorem padded_length (width : ℕ) (fill : Char) (text : List Char) :
    (padded width fill text).length = max width text.length := by
  rw [padded, List.length_append, List.length_replicate]
  omega

theorem zeroed_hex_length {width value digits : ℕ} (positive : 0 < digits)
    (small : value < 16 ^ digits) : (zeroedHex width value).length ≤ max width digits := by
  have own := (Nat.length_toDigits_le_iff (by decide) positive).mpr small
  rw [zeroedHex, padded_length]
  omega

theorem signed_decimal_length {width digits : ℕ} {value : ℤ} (positive : 0 < digits)
    (small : value.natAbs < 10 ^ digits) :
    (signedDecimal width value).length ≤ max width (digits + 1) := by
  have own := decimal_length positive small
  rw [signedDecimal, padded_length]
  split
  · rw [List.length_cons]
    omega
  · omega

theorem put_outside {memory : Memory} {start position : ℤ} {text : List Char}
    (outside : position < start ∨ start + text.length ≤ position) :
    put memory start text position = memory position := by
  unfold put
  split
  · rw [List.getD_eq_default]
    omega
  · rfl

theorem put_inside {memory : Memory} {start : ℤ} {text : List Char} {index : ℕ}
    (inside : index < text.length) :
    put memory start text (start + index) = text[index] := by
  unfold put
  rw [if_pos (by omega), List.getD_eq_getElem]
  · congr 1
    omega
  · omega

section Snprintf

variable {memory : Memory} {start : ℤ} {room : ℕ} {text : List Char}

theorem snprintf_outside {position : ℤ}
    (outside : position < start ∨ start + room ≤ position) :
    snprintf memory start room text position = memory position := by
  unfold snprintf
  split
  · rfl
  · apply put_outside
    rw [List.length_append, List.length_take, List.length_singleton]
    omega

theorem snprintf_inside {index : ℕ} (inside : index < text.length) (fits : index < room - 1) :
    snprintf memory start room text (start + index) = text[index] := by
  have stored : index < (text.take (room - 1) ++ [nul]).length := by
    rw [List.length_append, List.length_take]
    omega
  have front : index < (text.take (room - 1)).length := by
    rw [List.length_take]
    omega
  unfold snprintf
  rw [if_neg (by omega), put_inside stored, List.getElem_append_left front, List.getElem_take]

theorem snprintf_end (some_ : 0 < room) :
    snprintf memory start room text (start + (min text.length (room - 1) : ℕ)) = nul := by
  have front : (text.take (room - 1)).length = min text.length (room - 1) := by
    rw [List.length_take, Nat.min_comm]
  have stored : min text.length (room - 1) < (text.take (room - 1) ++ [nul]).length := by
    rw [List.length_append, front]
    exact Nat.lt_succ_self _
  unfold snprintf
  rw [if_neg (by omega), put_inside stored, List.getElem_append_right (by omega)]
  exact List.getElem_singleton _

end Snprintf

/-- The buffer holds as much of a text as goes into the page, terminated; nothing was stored
outside of the page. -/
structure Holds (page : ℕ) (before after : Memory) (text : List Char) : Prop where
  shown : ∀ (index : ℕ) (inside : index < text.length), index < page - 1 →
    after index = text[index]
  ended : after (min text.length (page - 1) : ℕ) = nul
  frame : ∀ position : ℤ, position < 0 ∨ page ≤ position → after position = before position

section Print

variable {page : ℕ} {before after : Memory} {text more : List Char}

theorem holds_first (room : 0 < page) (before : Memory) (text : List Char) :
    Holds page before (snprintf before 0 page text) text := by
  constructor
  · intro index inside fits
    have own := @snprintf_inside before 0 page text index inside fits
    rwa [Int.zero_add] at own
  · have own := @snprintf_end before 0 page text room
    rwa [Int.zero_add] at own
  · intro position outside
    exact snprintf_outside (by omega)

/-- Printing behind the text: with no room left nothing is stored, and nothing is missing, as
the page was full. -/
theorem Holds.print (holds : Holds page before after text) (room : 0 < page)
    (inside : text.length ≤ page) :
    Holds page before (snprintf after text.length (page - text.length) more) (text ++ more) := by
  have frame : ∀ position : ℤ, position < 0 ∨ page ≤ position →
      snprintf after text.length (page - text.length) more position = before position := by
    intro position outside
    rw [snprintf_outside (by omega), holds.frame position outside]
  have earlier : ∀ index : ℕ, index < text.length →
      snprintf after text.length (page - text.length) more index = after index :=
    fun index before_ => snprintf_outside (by omega)
  constructor
  · intro index below fits
    by_cases old : index < text.length
    · rw [earlier index old, List.getElem_append_left old]
      exact holds.shown index old fits
    · rw [List.length_append] at below
      have own := @snprintf_inside after text.length (page - text.length) more
        (index - text.length) (by omega) (by omega)
      have position : (text.length : ℤ) + (index - text.length : ℕ) = index := by omega
      rw [position] at own
      rw [own, List.getElem_append_right (by omega)]
  · by_cases full : text.length = page
    · have last : min (text ++ more).length (page - 1) = min text.length (page - 1) := by
        rw [List.length_append]
        omega
      rw [last, earlier _ (by omega)]
      exact holds.ended
    · have own := @snprintf_end after text.length (page - text.length) more (by omega)
      have position : (min (text ++ more).length (page - 1) : ℕ) =
          (text.length : ℤ) + (min more.length (page - text.length - 1) : ℕ) := by
        rw [List.length_append]
        omega
      rw [position, own]
  · exact frame

theorem Holds.longer (holds : Holds page before after text) (full : page ≤ text.length)
    (more : List Char) : Holds page before after (text ++ more) := by
  constructor
  · intro index below fits
    rw [List.getElem_append_left (by omega)]
    exact holds.shown index (by omega) fits
  · have last : min (text ++ more).length (page - 1) = min text.length (page - 1) := by
      rw [List.length_append]
      omega
    rw [last]
    exact holds.ended
  · exact holds.frame

end Print

end FpgaPcie.TextPage
