import FpgaPcie.Driver.Interface
import FpgaPcie.Lib.Keyed

/-!
# Kernel memory of the driver

The list `kmem_list` of one device and two ways its entries are looked up: by bus
address for the ioctls, and the newest one for `mmap`.
-/

namespace FpgaPcie.Driver

set_option autoImplicit false

structure KmemHandle where
  pa : U64
  size : U64
  handleId : U32
  deriving DecidableEq, Repr

/-- `pcidriver_kmem_entry_t`. The two addresses name one area of memory, as the CPU
and as the device see it. -/
structure KmemEntry where
  id : U32
  dmaHandle : U64
  cpua : U64
  size : U64
  deriving DecidableEq, Repr

def kmemFindEntry (kmemList : List KmemEntry) (handle : KmemHandle) : Option KmemEntry :=
  kmemList.find? fun entry => entry.dmaHandle = handle.pa

/-- `kmem_list.prev`: entries are added at the tail. -/
def latestEntry (kmemList : List KmemEntry) : Option KmemEntry := kmemList.getLast?

end FpgaPcie.Driver
