import Mathlib.Data.BitVec

/-!
# Data shared by the driver and its users

The machine words of an x86_64 host (`unsigned int` 32 bits, `unsigned long` 64)
and the structures of `driver/pciDriver.h` that both sides of the ioctl
interface read.
-/

namespace FpgaPcie

set_option autoImplicit false

abbrev U8 := BitVec 8
abbrev U32 := BitVec 32
abbrev U64 := BitVec 64

structure UmemSgEntry where
  addr : U64
  size : U64
  deriving DecidableEq, Repr

end FpgaPcie
