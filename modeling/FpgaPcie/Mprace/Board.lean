import FpgaPcie.Driver.Interface
import FpgaPcie.Lib.Bus

/-!
# Programmed access to the boards

`ABB` and `ML605` map three areas of the board and reach a word through the pointer of its
area. The pointers are of 64 bits, so that adding 32-bit indices to one never wraps, and an
index past the end of the area is an access outside of it.
-/

namespace FpgaPcie.Mprace

set_option autoImplicit false

inductive Window where
  | mem
  | fifo
  | regs
  deriving DecidableEq, Repr

structure Place where
  window : Window
  index : ℕ
  deriving DecidableEq, Repr

structure Windows where
  memSize : U32
  fifoSize : U32
  regsSize : U32
  deriving DecidableEq, Repr

abbrev History := Bus.History Place U32

abbrev Device := Bus.Device Place U32

inductive BoardException where
  | addressOutOfRange
  | oversizedTransfer
  deriving DecidableEq, Repr

abbrev BoardCall := Bus.Call History BoardException

abbrev Fetch := Bus.Fetch Place U32 BoardException

abbrev Reading := Bus.Reading Place U32

abbrev ReadCall := Bus.Call Reading BoardException

/-- `write`, `writeFIFO` and `setReg` are this for one area each. -/
def storeWord (window : Window) (size address value : U32) : BoardCall := fun history =>
  if size ≤ address then (some .addressOutOfRange, history)
  else (none, Bus.store ⟨window, address.toNat⟩ value history)

def loadWord (device : Device) (window : Window) (size address : U32) : Fetch := fun history =>
  if size ≤ address then (.error .addressOutOfRange, history)
  else
    let fetched := Bus.load device ⟨window, address.toNat⟩ history
    (.ok fetched.1, fetched.2)

/-- The loops of both branches of a block write, for a start behind the pointer `mem`. -/
def storeBlock (start : ℕ) (data : ℕ → U32) (count : U32) (inc : Bool) (history : History) :
    History :=
  if inc then Bus.loop (fun i => Bus.storeAt data ⟨.mem, start + i⟩ i) count.toNat 0 history
  else Bus.loop (fun i => Bus.storeAt data ⟨.mem, start⟩ i) count.toNat 0 history

def loadBlock (device : Device) (start : ℕ) (count : U32) (inc : Bool) (reading : Reading) :
    Reading :=
  if inc then Bus.loop (fun i => Bus.loadAt device ⟨.mem, start + i⟩ i) count.toNat 0 reading
  else Bus.loop (fun i => Bus.loadAt device ⟨.mem, start⟩ i) count.toNat 0 reading

def addrEnd (address count : U32) (inc : Bool) : U32 := if inc then address + count else address

/-- The body of `writeBlock`. The branch for the FIFO uses the pointer `mem` as well. -/
def writeBlockBody (windows : Windows) (address : U32) (data : ℕ → U32) (count : U32)
    (inc : Bool) : BoardCall := fun history =>
  if address < windows.memSize ∧ addrEnd address count inc < windows.memSize then
    (none, storeBlock address.toNat data count inc history)
  else if address < windows.memSize + windows.fifoSize ∧
      addrEnd address count inc < windows.memSize + windows.fifoSize then
    let fifoAddress := address - windows.memSize
    (none, storeBlock fifoAddress.toNat data count inc history)
  else (some .addressOutOfRange, history)

def readBlockBody (windows : Windows) (device : Device) (address count : U32)
    (inc : Bool) : ReadCall := fun reading =>
  if address < windows.memSize ∧ addrEnd address count inc < windows.memSize then
    (none, loadBlock device address.toNat count inc reading)
  else if address < windows.memSize + windows.fifoSize ∧
      addrEnd address count inc < windows.memSize + windows.fifoSize then
    let fifoAddress := address - windows.memSize
    (none, loadBlock device fifoAddress.toNat count inc reading)
  else (some .addressOutOfRange, reading)

section Functions

variable (windows : Windows) (device : Device)

namespace ABB

def setReg : U32 → U32 → BoardCall := storeWord .regs windows.regsSize
def getReg : U32 → Fetch := loadWord device .regs windows.regsSize
def write : U32 → U32 → BoardCall := storeWord .mem windows.memSize
def writeFIFO : U32 → U32 → BoardCall := storeWord .fifo windows.fifoSize
def read : U32 → Fetch := loadWord device .mem windows.memSize
def readFIFO : U32 → Fetch := loadWord device .fifo windows.fifoSize
def writeBlock : U32 → (ℕ → U32) → U32 → Bool → BoardCall := writeBlockBody windows
def readBlock : U32 → U32 → Bool → ReadCall := readBlockBody windows device

end ABB

namespace ML605

def setReg : U32 → U32 → BoardCall := storeWord .regs windows.regsSize
def getReg : U32 → Fetch := loadWord device .regs windows.regsSize
def write : U32 → U32 → BoardCall := storeWord .mem windows.memSize
def writeFIFO : U32 → U32 → BoardCall := storeWord .fifo windows.fifoSize
def read : U32 → Fetch := loadWord device .mem windows.memSize
def readFIFO : U32 → Fetch := loadWord device .fifo windows.fifoSize
def writeBlock : U32 → (ℕ → U32) → U32 → Bool → BoardCall := writeBlockBody windows
def readBlock : U32 → U32 → Bool → ReadCall := readBlockBody windows device

end ML605

inductive BoardClass where
  | abb
  | ml605
  deriving DecidableEq, Repr

namespace BoardClass

def setReg : BoardClass → U32 → U32 → BoardCall
  | .abb => ABB.setReg windows
  | .ml605 => ML605.setReg windows

def write : BoardClass → U32 → U32 → BoardCall
  | .abb => ABB.write windows
  | .ml605 => ML605.write windows

def writeFIFO : BoardClass → U32 → U32 → BoardCall
  | .abb => ABB.writeFIFO windows
  | .ml605 => ML605.writeFIFO windows

def read : BoardClass → U32 → Fetch
  | .abb => ABB.read windows device
  | .ml605 => ML605.read windows device

def readFIFO : BoardClass → U32 → Fetch
  | .abb => ABB.readFIFO windows device
  | .ml605 => ML605.readFIFO windows device

def writeBlock : BoardClass → U32 → (ℕ → U32) → U32 → Bool → BoardCall
  | .abb => ABB.writeBlock windows
  | .ml605 => ML605.writeBlock windows

def readBlock : BoardClass → U32 → U32 → Bool → ReadCall
  | .abb => ABB.readBlock windows device
  | .ml605 => ML605.readBlock windows device

end BoardClass

end Functions

/-- `Board::writeBlock`, for boards without one of their own. It takes no notice of `inc`. -/
def Board.writeBlock (write : U32 → U32 → BoardCall) (address : U32) (data : ℕ → U32) (count : U32)
    (_inc : Bool) : BoardCall :=
  Bus.repeatCall (fun i => write (address + BitVec.ofNat 32 i) (data i)) count.toNat 0

def Board.readBlock (read : U32 → Fetch) (address count : U32) (_inc : Bool) : ReadCall :=
  Bus.repeatCall (fun i => Bus.readInto i (read (address + BitVec.ofNat 32 i))) count.toNat 0

section Single

variable {size address : U32}

theorem store_word_inside (window : Window) (inside : address < size) (value : U32)
    (history : History) : storeWord window size address value history =
      (none, Bus.store ⟨window, address.toNat⟩ value history) :=
  if_neg (BitVec.not_le.mpr inside)

theorem read_into_inside (device : Device) (window : Window) (inside : address < size) (i : ℕ)
    (reading : Reading) : Bus.readInto i (loadWord device window size address) reading =
      (none, Bus.loadAt device ⟨window, address.toNat⟩ i reading) := by
  unfold Bus.readInto loadWord
  rw [if_neg (BitVec.not_le.mpr inside)]
  rfl

end Single

end FpgaPcie.Mprace
