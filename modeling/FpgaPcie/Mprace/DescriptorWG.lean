import FpgaPcie.Driver.Interface
import FpgaPcie.Lib.Segments

/-!
# Native DMA descriptors

`DMADescriptorWG` wraps the eight 32-bit words the engine expects in memory.
Addresses are kept as a high and a low word (`HIGH`, `LOW`) and put together
again by the accessors. The bus address `pa` of the native words belongs to the
descriptor object and is not one of the words.
-/

namespace FpgaPcie.Mprace

open FpgaPcie.Segments

set_option autoImplicit false

def high (x : U64) : U32 := (x >>> 32).setWidth 32

def low (x : U64) : U32 := (x &&& 0x00000000FFFFFFFF#64).setWidth 32

def join (highWord lowWord : U32) : U64 := (highWord.setWidth 64 <<< 32) + lowWord.setWidth 64

theorem high_low_join (x : U64) : join (high x) (low x) = x := by
  apply BitVec.eq_of_toNat_eq
  have bound := x.isLt
  simp only [join, high, low, BitVec.toNat_add, BitVec.toNat_shiftLeft, BitVec.toNat_setWidth,
    BitVec.toNat_ushiftRight, BitVec.toNat_and, BitVec.toNat_ofNat, Nat.shiftLeft_eq,
    Nat.shiftRight_eq_div_pow]
  rw [show 4294967295 % 2 ^ 64 = 2 ^ 32 - 1 by decide, Nat.and_two_pow_sub_one_eq_mod]
  omega

theorem join_toNat (highWord lowWord : U32) :
    (join highWord lowWord).toNat = highWord.toNat * 2 ^ 32 + lowWord.toNat := by
  have highBound := highWord.isLt
  have lowBound := lowWord.isLt
  simp only [join, BitVec.toNat_add, BitVec.toNat_shiftLeft, BitVec.toNat_setWidth,
    Nat.shiftLeft_eq]
  omega

theorem high_join (highWord lowWord : U32) : high (join highWord lowWord) = highWord := by
  apply BitVec.eq_of_toNat_eq
  have highBound := highWord.isLt
  have lowBound := lowWord.isLt
  simp only [high, BitVec.toNat_setWidth, BitVec.toNat_ushiftRight, join_toNat,
    Nat.shiftRight_eq_div_pow]
  omega

theorem low_join (highWord lowWord : U32) : low (join highWord lowWord) = lowWord := by
  apply BitVec.eq_of_toNat_eq
  have lowBound := lowWord.isLt
  simp only [low, BitVec.toNat_setWidth, BitVec.toNat_and, join_toNat, BitVec.toNat_ofNat]
  rw [show 4294967295 % 2 ^ 64 = 2 ^ 32 - 1 by decide, Nat.and_two_pow_sub_one_eq_mod]
  omega

/-- `descriptor_s`: what the engine reads from memory, or receives in the first
eight channel registers. -/
structure Descriptor where
  perAddrH : U32
  perAddrL : U32
  hostAddrH : U32
  hostAddrL : U32
  nextBdaH : U32
  nextBdaL : U32
  length : U32
  control : U32
  deriving DecidableEq, Repr

namespace Descriptor

def segment (d : Descriptor) : Segment U64 := ⟨join d.hostAddrH d.hostAddrL, d.length.toNat⟩

def nextBda (d : Descriptor) : U64 := join d.nextBdaH d.nextBdaL

end Descriptor

structure DMADescriptorWG where
  native : Descriptor
  pa : U64
  deriving DecidableEq, Repr

namespace DMADescriptorWG

def getPhysicalAddress (d : DMADescriptorWG) : U64 := d.pa

def getHostAddress (d : DMADescriptorWG) : U64 :=
  join d.native.hostAddrH d.native.hostAddrL

def getPeripheralAddress (d : DMADescriptorWG) : U64 :=
  join d.native.perAddrH d.native.perAddrL

def getNextDescriptorAddress (d : DMADescriptorWG) : U64 :=
  join d.native.nextBdaH d.native.nextBdaL

def getLength (d : DMADescriptorWG) : U64 := d.native.length.setWidth 64

def setPeripheralAddress (d : DMADescriptorWG) (addr : U64) : DMADescriptorWG :=
  { d with native := { d.native with perAddrH := high addr, perAddrL := low addr } }

def setHostAddress (d : DMADescriptorWG) (addr : U64) : DMADescriptorWG :=
  { d with native := { d.native with hostAddrH := high addr, hostAddrL := low addr } }

def setNextDescriptorAddress (d : DMADescriptorWG) (addr : U64) : DMADescriptorWG :=
  { d with native := { d.native with nextBdaH := high addr, nextBdaL := low addr } }

def setLength (d : DMADescriptorWG) (l : U64) : DMADescriptorWG :=
  { d with native := { d.native with length := l.setWidth 32 } }

def setControl (d : DMADescriptorWG) (ctrl : U64) : DMADescriptorWG :=
  { d with native := { d.native with control := ctrl.setWidth 32 } }

/-- `operator=` copies the eight native words and leaves the bus address of the
target alone. -/
def assign (d src : DMADescriptorWG) : DMADescriptorWG := { d with native := src.native }

/-- A descriptor object on the stack. Its words are unset until written; every
caller writes all eight. -/
def unset : DMADescriptorWG := ⟨⟨0, 0, 0, 0, 0, 0, 0, 0⟩, 0⟩

section Accessors

variable (d : DMADescriptorWG) (value : U64)

@[simp] theorem physical_address : d.getPhysicalAddress = d.pa := rfl

@[simp] theorem host_address_set : (d.setHostAddress value).getHostAddress = value :=
  high_low_join value

@[simp] theorem peripheral_address_set :
    (d.setPeripheralAddress value).getPeripheralAddress = value :=
  high_low_join value

@[simp] theorem next_descriptor_address_set :
    (d.setNextDescriptorAddress value).getNextDescriptorAddress = value :=
  high_low_join value

theorem set_host_address_same : d.setHostAddress d.getHostAddress = d := by
  simp only [setHostAddress, getHostAddress, high_join, low_join]

theorem set_next_descriptor_address_same :
    d.setNextDescriptorAddress d.getNextDescriptorAddress = d := by
  simp only [setNextDescriptorAddress, getNextDescriptorAddress, high_join, low_join]

theorem set_length_same : d.setLength (d.native.length.setWidth 64) = d := by
  simp [setLength]

@[simp] theorem pa_set_host_address : (d.setHostAddress value).pa = d.pa := rfl
@[simp] theorem pa_set_length : (d.setLength value).pa = d.pa := rfl
@[simp] theorem pa_set_control : (d.setControl value).pa = d.pa := rfl
@[simp] theorem pa_set_next : (d.setNextDescriptorAddress value).pa = d.pa := rfl
@[simp] theorem pa_set_peripheral : (d.setPeripheralAddress value).pa = d.pa := rfl

@[simp] theorem host_address_set_length :
    (d.setLength value).getHostAddress = d.getHostAddress := rfl
@[simp] theorem host_address_set_control :
    (d.setControl value).getHostAddress = d.getHostAddress := rfl
@[simp] theorem host_address_set_next :
    (d.setNextDescriptorAddress value).getHostAddress = d.getHostAddress := rfl
@[simp] theorem host_address_set_peripheral :
    (d.setPeripheralAddress value).getHostAddress = d.getHostAddress := rfl

@[simp] theorem length_set_host_address :
    (d.setHostAddress value).native.length = d.native.length := rfl
@[simp] theorem length_set_control : (d.setControl value).native.length = d.native.length := rfl
@[simp] theorem length_set_next :
    (d.setNextDescriptorAddress value).native.length = d.native.length := rfl
@[simp] theorem length_set_peripheral :
    (d.setPeripheralAddress value).native.length = d.native.length := rfl
@[simp] theorem length_set_length :
    (d.setLength value).native.length = value.setWidth 32 := rfl

@[simp] theorem control_set_host_address :
    (d.setHostAddress value).native.control = d.native.control := rfl
@[simp] theorem control_set_length : (d.setLength value).native.control = d.native.control := rfl
@[simp] theorem control_set_next :
    (d.setNextDescriptorAddress value).native.control = d.native.control := rfl
@[simp] theorem control_set_peripheral :
    (d.setPeripheralAddress value).native.control = d.native.control := rfl
@[simp] theorem control_set_control :
    (d.setControl value).native.control = value.setWidth 32 := rfl

@[simp] theorem next_set_host_address :
    (d.setHostAddress value).getNextDescriptorAddress = d.getNextDescriptorAddress := rfl
@[simp] theorem next_set_length :
    (d.setLength value).getNextDescriptorAddress = d.getNextDescriptorAddress := rfl
@[simp] theorem next_set_control :
    (d.setControl value).getNextDescriptorAddress = d.getNextDescriptorAddress := rfl
@[simp] theorem next_set_peripheral :
    (d.setPeripheralAddress value).getNextDescriptorAddress = d.getNextDescriptorAddress := rfl

end Accessors

end DMADescriptorWG

def ctrlReset : U32 := 0x0000000A#32
def ctrlInc : U32 := 0x00008000#32
def ctrlUpa : U32 := 0x00100000#32
def ctrlLast : U32 := 0x01000000#32
def ctrlV : U32 := 0x02000000#32
def ctrlEdi : U32 := 0x10000000#32

/-- `CTRL_BAR`, computed from the `bar` argument of each request. -/
def ctrlBar (bar : U32) : U32 := (bar &&& 0x00000007#32) <<< 16

def hasLast (control : U32) : Bool := control &&& ctrlLast != 0

theorem flag_or (left right flag : U32) (plainLeft : left &&& flag = 0)
    (plainRight : right &&& flag = 0) : (left ||| right) &&& flag = 0 := by
  rw [BitVec.and_or_distrib_right, plainLeft, plainRight]
  decide

theorem ctrl_bar_outside (bar flag : U32) (outside : 0x00070000#32 &&& flag = 0) :
    ctrlBar bar &&& flag = 0 := by
  have shifted : ctrlBar bar = (bar <<< 16) &&& 0x00070000#32 := by
    rw [ctrlBar, BitVec.shiftLeft_and_distrib]
    congr 1
  rw [shifted, BitVec.and_assoc, outside]
  exact BitVec.and_zero

end FpgaPcie.Mprace
