import Mathlib.Data.BitVec
import Mathlib.Data.Int.Notation

/-!
# Machine counters

A signed machine counter follows an integer modulo its range. It shows the integer
itself, and its sign, while that stays in range.
-/

namespace FpgaPcie.WrapCounter

set_option autoImplicit false

variable {width : ℕ} {counter : BitVec width} {value : ℤ}

def Follows (counter : BitVec width) (value : ℤ) : Prop := counter = BitVec.ofInt width value

theorem Follows.increment (follows : Follows counter value) :
    Follows (counter + BitVec.ofNat width 1) (value + 1) := by
  rw [Follows, follows, BitVec.ofInt_add]
  rfl

theorem Follows.decrement (follows : Follows counter value) :
    Follows (counter - BitVec.ofNat width 1) (value - 1) := by
  rw [Follows, follows, Int.sub_eq_add_neg, BitVec.ofInt_add, BitVec.ofInt_neg, BitVec.sub_eq_add_neg]
  rfl

theorem Follows.shows (follows : Follows counter value) (wide : 0 < width)
    (lower : -2 ^ (width - 1) ≤ value) (upper : value < 2 ^ (width - 1)) :
    counter.toInt = value := by
  rw [follows]
  exact BitVec.toInt_ofInt_eq_self wide lower upper

end FpgaPcie.WrapCounter
