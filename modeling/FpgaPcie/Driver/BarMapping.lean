import FpgaPcie.Driver.Mmap
import FpgaPcie.Lib.AddressSpace

/-!
# Mapping BARs from several threads

`mapBAR` and `unmapBAR` next to the constructor and destructor of `KernelMemory`, and their
counterparts in C, as threads of one process on one opened device. Each ioctl, each `mmap` or
`munmap` and each operation on `mmap_mutex` is one step. An `mmap` gets pages where the
process has no mapping, and the driver has the frames entered in the page table.
-/

namespace FpgaPcie.Driver.BarMapping

open FpgaPcie.AddressSpace FpgaPcie.PageTable FpgaPcie.Transition
open FpgaPcie.Driver.Resources (Bar Bars)

set_option autoImplicit false

/-- `PciDevice` and the functions on a `pd_device_t`. -/
inductive Api where
  | cpp
  | c
  deriving DecidableEq, Repr

/-- The loop that makes `pagemask`; `temp` is halved until it is 1. -/
def pagemaskLoop (halve : U32 → U32) : ℕ → U32 → U32 → U32
  | 0, _, pagemask => pagemask
  | fuel + 1, temp, pagemask =>
      if temp ≠ 1#32 then pagemaskLoop halve fuel (halve temp) (pagemask <<< 1 + 1#32)
      else pagemask

/-- In the constructor of `PciDevice`, where `temp` is unsigned. -/
def pagemask (pagesize : U32) : U32 := pagemaskLoop (fun temp => temp >>> 1) 32 pagesize 0#32

/-- `pd_getpagemask`, where `temp` is signed. -/
def pdGetpagemask (pagesize : U32) : U32 :=
  pagemaskLoop (fun temp => temp.sshiftRight 1) 32 pagesize 0#32

/-- A process on a device: which library it uses, the page size, what `PCI_INFO` tells of the
BARs, and the page frames of the kernel's memory. -/
structure Setup where
  api : Api
  pageShift : ℕ
  bars : Bars
  virtToPfn : U64 → U64

namespace Setup

def page (setup : Setup) : ℕ := 2 ^ setup.pageShift

/-- What `getpagesize()` returns, as an `int`. -/
def getpagesize (setup : Setup) : U32 := 1#32 <<< setup.pageShift

/-- `offset`, the position of a BAR in its first page. A signed mask is extended with its
sign. -/
def offset (setup : Setup) (bar : Fin 6) : U32 :=
  match setup.api with
  | .cpp => ((setup.bars bar).start &&& (pagemask setup.getpagesize).setWidth 64).setWidth 32
  | .c => ((setup.bars bar).start &&& (pdGetpagemask setup.getpagesize).signExtend 64).setWidth 32

/-- The pointer that `mapBAR` makes of what `mmap` returned. -/
def adjust (setup : Setup) (bar : Fin 6) (mem : U64) : U64 :=
  if setup.offset bar ≠ 0#32 then mem + (setup.offset bar).setWidth 64 else mem

/-- What `unmapBAR` makes of that pointer. -/
def readjust (setup : Setup) (bar : Fin 6) (ptr : U64) : U64 :=
  if setup.offset bar ≠ 0#32 then ptr - (setup.offset bar).setWidth 64 else ptr

def address (setup : Setup) (index : ℕ) : U64 := BitVec.ofNat 64 (index * setup.page)

/-- The pages that `length` bytes take. -/
def pages (setup : Setup) (length : U64) : ℕ := pagesFor setup.page length.toNat

def vma (setup : Setup) (start pages : ℕ) : Vma :=
  ⟨setup.address start, setup.address (start + pages)⟩

end Setup

/-- The kernel has no place for a mapping, or it has one from the page `start` on.
`stopsAfter` counts the pages that were entered where the remapping fails. -/
inductive MmapAnswer where
  | refused
  | found (start : ℕ) (stopsAfter : Option ℕ)
  deriving DecidableEq, Repr

namespace Setup

/-- Where the kernel may put a mapping: on pages that no mapping has, the first not at
address zero. -/
def Available (setup : Setup) (space : Space) (start pages : ℕ) : Prop :=
  0 < pages ∧ 0 < start ∧ (start + pages) * setup.page < 2 ^ 64 ∧ Empty space.owner start pages

instance (setup : Setup) (space : Space) (start pages : ℕ) :
    Decidable (setup.Available space start pages) := inferInstanceAs (Decidable (_ ∧ _))

/-- `mmap` of `length` bytes at offset zero. A remapping may go on past the vma; `none` where
it meets an entry, which the kernel takes for a bug. When the driver refuses, the kernel
clears the pages of the vma. -/
def mmap (setup : Setup) (driver : Privdata) (space : Space) (length : U64) :
    MmapAnswer → Option (Space × Option Placement)
  | .refused => some (space, none)
  | .found start stopsAfter =>
      let pages := setup.pages length
      if setup.Available space start pages then
        match (pcidriverMmap setup.pageShift setup.bars setup.virtToPfn driver
            (setup.vma start pages) stopsAfter.isNone).remap with
        | none => (space.abandon start pages start 0 0).map fun after => (after, none)
        | some call =>
            let first := call.vmStart.toNat / setup.page
            let count := setup.pages call.size
            match stopsAfter with
            | none =>
                (space.map start pages first call.pfn.toNat count).map fun after =>
                  (after, some ⟨space.created, start, pages⟩)
            | some entered =>
                if entered < count then
                  (space.abandon start pages first call.pfn.toNat entered).map fun after =>
                    (after, none)
                else none
      else none

/-- `munmap`, which refuses an address inside of a page and a length of zero. -/
def munmap (setup : Setup) (space : Space) (ptr length : U64) : Space :=
  if ptr.toNat % setup.page = 0 ∧ length ≠ 0#64 then
    space.unmap (ptr.toNat / setup.page) (setup.pages length)
  else space

end Setup

/-- Where a thread is. `mem` is the mapping that the thread made or is to take away. -/
inductive Phase where
  | idle
  | barWaiting (bar : Fin 6)
  | barLocked (bar : Fin 6)
  | barModeSet (bar : Fin 6)
  | barAreaSet (bar : Fin 6)
  | barMapped (bar : Fin 6) (mem : Placement)
  | barMapFailed
  | unmapping (bar : Fin 6) (ptr : U64) (mem : Placement)
  | allocated (handle : KmemHandle)
  | locked (handle : KmemHandle)
  | modeSet (handle : KmemHandle)
  | mapped (handle : KmemHandle) (mem : Placement)
  | mapFailed (handle : KmemHandle)
  | releasing (handle : KmemHandle)
  deriving DecidableEq, Repr

/-- What calls return: the pointer of a `mapBAR`, or a `KernelMemory` object. -/
inductive Returned where
  | bar (bar : Fin 6) (ptr : U64) (mem : Placement)
  | memory (handle : KmemHandle) (mem : Placement)
  deriving DecidableEq, Repr

structure Process where
  driver : Privdata
  /-- who holds `mmap_mutex` -/
  holder : Option ThreadId
  phase : ThreadId → Phase
  space : Space
  objects : ObjectId → Option Returned

/-- What a thread does next, with the answers it gets. A pointer that is passed to
`unmapBAR` is one that a `mapBAR` returned. -/
inductive Action where
  | mapBAR (bar : U32) (pciInfo : Bool)
  | unmapBAR (object : ObjectId) (pciInfo : Bool)
  | construct (size : U32) (outcome : AllocOutcome)
  | delete (object : ObjectId)
  | lock
  | mmapMode (accepted : Bool)
  | mmapArea (accepted : Bool)
  | mmap (answer : MmapAnswer)
  | unlock (object : ObjectId)
  | munmap
  | kmemFree
  deriving DecidableEq, Repr

structure Step where
  thread : ThreadId
  action : Action
  deriving DecidableEq, Repr

namespace Process

def setPhase (process : Process) (thread : ThreadId) (phase : Phase) : Process :=
  { process with phase := Function.update process.phase thread phase }

def setObject (process : Process) (object : ObjectId) (entry : Option Returned) : Process :=
  { process with objects := Function.update process.objects object entry }

/-- The first step of each operation. `mapBAR` and `unmapBAR` check the number of the BAR and
ask for its address and length. -/
def begin (setup : Setup) (process : Process) (thread : ThreadId) : Action → Option Process
  | .mapBAR bar pciInfo =>
      if inside : bar.toNat < 6 then
        if pciInfo then some (process.setPhase thread (.barWaiting ⟨bar.toNat, inside⟩))
        else some process
      else some process
  | .unmapBAR object pciInfo =>
      match process.objects object with
      | some (.bar bar ptr mem) =>
          if pciInfo then
            some ((process.setObject object none).setPhase thread (.unmapping bar ptr mem))
          else some process
      | _ => none
  | .construct size outcome =>
      let (driver, handle) := process.driver.kmemAlloc (size.setWidth 64) outcome
      some ({ process with driver := driver }.setPhase thread
        (match handle with
          | some handle => .allocated handle
          | none => .idle))
  | .delete object =>
      match process.objects object with
      | some (.memory handle mem) =>
          let space := setup.munmap process.space (setup.address mem.start) handle.size
          some (({ process with space := space }.setObject object none).setPhase thread
            (.releasing handle))
      | _ => none
  | _ => none

def acquire (process : Process) (thread : ThreadId) (phase : Phase) : Option Process :=
  if process.holder = none then
    some ({ process with holder := some thread }.setPhase thread phase)
  else none

def release (process : Process) (thread : ThreadId) (phase : Phase) : Process :=
  { process with holder := none }.setPhase thread phase

/-- The end of a call, with what it returns; the caller has a place for that. -/
def deliver (process : Process) (thread : ThreadId) (object : ObjectId) (value : Returned) :
    Option Process :=
  match process.objects object with
  | some _ => none
  | none => some ((process.setObject object (some value)).release thread .idle)

/-- One step of a thread. `mapBAR` leaves the mutex locked when an ioctl is refused. -/
def step (setup : Setup) (process : Process) (label : Step) : Option Process :=
  let thread := label.thread
  match process.phase thread, label.action with
  | .idle, action => process.begin setup thread action
  | .barWaiting bar, .lock => process.acquire thread (.barLocked bar)
  | .barLocked bar, .mmapMode accepted =>
      if accepted then
        some ({ process with driver := { process.driver with mmapMode := .pci } }.setPhase thread
          (.barModeSet bar))
      else some (process.setPhase thread .idle)
  | .barModeSet bar, .mmapArea accepted =>
      if accepted then
        some ({ process with driver := { process.driver with mmapArea := bar } }.setPhase thread
          (.barAreaSet bar))
      else some (process.setPhase thread .idle)
  | .barAreaSet bar, .mmap answer =>
      (setup.mmap process.driver process.space (setup.bars bar).length answer).map
        fun (space, mem) =>
          { process with space := space }.setPhase thread
            (match mem with
              | some mem => .barMapped bar mem
              | none => .barMapFailed)
  | .barMapped bar mem, .unlock object =>
      process.deliver thread object (.bar bar (setup.adjust bar (setup.address mem.start)) mem)
  | .barMapFailed, .unlock _ => some (process.release thread .idle)
  | .unmapping bar ptr _, .munmap =>
      let space := setup.munmap process.space (setup.readjust bar ptr) (setup.bars bar).length
      some ({ process with space := space }.setPhase thread .idle)
  | .allocated handle, .lock => process.acquire thread (.locked handle)
  | .locked handle, .mmapMode accepted =>
      if accepted then
        some ({ process with driver := { process.driver with mmapMode := .kmem } }.setPhase thread
          (.modeSet handle))
      else some (process.setPhase thread (.mapFailed handle))
  | .modeSet handle, .mmap answer =>
      (setup.mmap process.driver process.space handle.size answer).map fun (space, mem) =>
        { process with space := space }.setPhase thread
          (match mem with
            | some mem => .mapped handle mem
            | none => .mapFailed handle)
  | .mapped handle mem, .unlock object => process.deliver thread object (.memory handle mem)
  | .mapFailed handle, .unlock _ => some (process.release thread (.releasing handle))
  | .releasing handle, .kmemFree =>
      some ({ process with driver := (process.driver.kmemFree handle).getD process.driver }.setPhase
        thread .idle)
  | _, _ => none

end Process

def barSystem (setup : Setup) : System Process Step where
  initial process := process.driver.kmemList = [] ∧ process.holder = none ∧
    (∀ thread, process.phase thread = .idle) ∧ (∀ object, process.objects object = none) ∧
    ∀ index, process.space.owner index = none
  step := Process.step setup

/-- The length of a BAR is a power of two, and its address a multiple of that. -/
def NaturallyAligned (bar : Bar) : Prop :=
  ∃ order, bar.length.toNat = 2 ^ order ∧ 2 ^ order ∣ bar.start.toNat

/-- The bytes from `ptr` on are those of the BAR, in pages of the mapping `mem`. -/
structure Lands (setup : Setup) (space : Space) (bar : Bar) (ptr : U64) (mem : Placement) :
    Prop where
  places : ∀ i < bar.length.toNat,
    translate space.table setup.page (ptr.toNat + i) = some (bar.start.toNat + i)
  own : ∀ i < bar.length.toNat,
    space.owner ((ptr.toNat + i) / setup.page) = some mem.number

/-- Every pointer that a `mapBAR` of a memory BAR returned lands on its BAR, and whoever is
about to unmap one takes exactly the mapping away that was made for it. -/
structure BarsLand (setup : Setup) (process : Process) : Prop where
  lands : ∀ object bar ptr mem, process.objects object = some (.bar bar ptr mem) →
    (setup.bars bar).io = false → Lands setup process.space (setup.bars bar) ptr mem
  unmaps : ∀ thread bar ptr mem, process.phase thread = .unmapping bar ptr mem →
    ∃ after, process.step setup ⟨thread, .munmap⟩ = some after ∧
      after.objects = process.objects ∧ Space.Removes mem.number process.space after.space

end FpgaPcie.Driver.BarMapping
