import FpgaPcie.Driver.Kmem
import FpgaPcie.Lib.Transition
import Mathlib.Logic.Function.Basic

/-!
# Mapping kernel memory from several threads

The constructors of `KernelMemory` and `pd_allocKernelMemory`, the BAR mappings and
the frees, as threads of one process on one opened device. Each ioctl, each `mmap`
and each operation on `mmap_mutex` is one step. Allocation comes before the mutex
is taken, and `mmap` maps whatever entry is newest then.
-/

namespace FpgaPcie.Driver

open FpgaPcie.Transition

set_option autoImplicit false

inductive MmapMode where
  | pci
  | kmem
  deriving DecidableEq, Repr

/-- What a successful `mmap` maps: a BAR, or the memory behind a CPU address. -/
inductive Mapping where
  | bar (number : Fin 6)
  | kernel (cpua : U64)
  deriving DecidableEq, Repr

structure Privdata where
  kmemList : List KmemEntry
  kmemCount : U32
  mmapMode : MmapMode
  mmapArea : Fin 6
  deriving DecidableEq, Repr

/-- Where an allocation can end: without an entry, without DMA memory or its sysfs
file, or with memory that no listed entry has. -/
inductive AllocOutcome where
  | noEntry
  | noMemory
  | granted (cpua dmaHandle : U64)
  deriving DecidableEq, Repr

namespace Privdata

/-- `pcidriver_kmem_alloc`, with the handle that goes back to the caller. -/
def kmemAlloc (driver : Privdata) (size : U64) : AllocOutcome → Privdata × Option KmemHandle
  | .noEntry => (driver, none)
  | .noMemory => ({ driver with kmemCount := driver.kmemCount + 1 }, none)
  | .granted cpua dmaHandle =>
      ({ driver with
          kmemCount := driver.kmemCount + 1
          kmemList := driver.kmemList ++ [⟨driver.kmemCount, dmaHandle, cpua, size⟩] },
        some ⟨dmaHandle, size, driver.kmemCount⟩)

/-- `pcidriver_kmem_free` in one step; `none` is `-EINVAL`. -/
def kmemFree (driver : Privdata) (handle : KmemHandle) : Option Privdata :=
  (kmemFindEntry driver.kmemList handle).map fun _ =>
    { driver with
      kmemList := driver.kmemList.eraseP fun entry => entry.dmaHandle = handle.pa }

def vmaSize (pageSize : ℕ) (size : U64) : ℕ := (size.toNat + pageSize - 1) / pageSize * pageSize

/-- The size check of `pcidriver_mmap_kmem`, as it is written: it refuses only entries
below a page. -/
def sizesMatch (pageSize : ℕ) (size : U64) (entry : KmemEntry) : Bool :=
  !(vmaSize pageSize size != entry.size.toNat &&
    (entry.size.toNat < pageSize && vmaSize pageSize size != pageSize))

/-- `pcidriver_mmap`, for `size` bytes; `remapped` tells whether the kernel can build
the page tables. -/
def mmap (driver : Privdata) (pageSize : ℕ) (size : U64) (remapped : Bool) : Option Mapping :=
  match driver.mmapMode with
  | .pci => if remapped then some (.bar driver.mmapArea) else none
  | .kmem =>
      match latestEntry driver.kmemList with
      | none => none
      | some entry =>
          if sizesMatch pageSize size entry && remapped then some (.kernel entry.cpua) else none

end Privdata

/-- Where a thread is. A construction holds the handle that `KMEM_ALLOC` returned;
`releasing` is the last step of a destructor or of a construction that failed. -/
inductive Phase where
  | idle
  | allocated (handle : KmemHandle)
  | locked (handle : KmemHandle)
  | modeSet (handle : KmemHandle)
  | mapped (handle : KmemHandle) (mem : Mapping)
  | mapFailed (handle : KmemHandle)
  | releasing (handle : KmemHandle)
  | barWaiting (bar : Fin 6)
  | barLocked (bar : Fin 6)
  | barModeSet (bar : Fin 6)
  | barAreaSet (bar : Fin 6)
  | barMapped
  deriving DecidableEq, Repr

structure KernelMemory where
  handle : KmemHandle
  mem : Mapping
  deriving DecidableEq, Repr

abbrev ThreadId := ℕ

abbrev ObjectId := ℕ

structure Process where
  driver : Privdata
  /-- who holds `mmap_mutex` -/
  holder : Option ThreadId
  phase : ThreadId → Phase
  objects : ObjectId → Option KernelMemory

inductive Action where
  | construct (size : U32) (outcome : AllocOutcome)
  | mapBAR (bar : Fin 6)
  | delete (object : ObjectId)
  | lock
  | mmapMode (accepted : Bool)
  | mmapArea (accepted : Bool)
  | mmap (remapped : Bool)
  | unlock (object : ObjectId)
  | kmemFree
  deriving DecidableEq, Repr

structure Step where
  thread : ThreadId
  action : Action
  deriving DecidableEq, Repr

namespace Process

def setPhase (process : Process) (thread : ThreadId) (phase : Phase) : Process :=
  { process with phase := Function.update process.phase thread phase }

def setObject (process : Process) (object : ObjectId) (entry : Option KernelMemory) : Process :=
  { process with objects := Function.update process.objects object entry }

/-- The allocator hands out memory disjoint from all that is in use. -/
def Fresh (driver : Privdata) : AllocOutcome → Prop
  | .granted cpua dmaHandle => ∀ entry ∈ driver.kmemList,
      entry.cpua ≠ cpua ∧ entry.dmaHandle ≠ dmaHandle
  | _ => True

instance (driver : Privdata) (outcome : AllocOutcome) : Decidable (Fresh driver outcome) :=
  match outcome with
  | .granted _ _ => List.decidableBAll _ _
  | .noEntry => instDecidableTrue
  | .noMemory => instDecidableTrue

def begin (process : Process) (thread : ThreadId) : Action → Option Process
  | .construct size outcome =>
      if Fresh process.driver outcome then
        let (driver, handle) := process.driver.kmemAlloc (size.setWidth 64) outcome
        some ({ process with driver := driver }.setPhase thread
          (match handle with
            | some handle => .allocated handle
            | none => .idle))
      else none
  | .mapBAR bar => some (process.setPhase thread (.barWaiting bar))
  | .delete object =>
      match process.objects object with
      | none => none
      | some memory =>
          some ((process.setObject object none).setPhase thread (.releasing memory.handle))
  | _ => none

def acquire (process : Process) (thread : ThreadId) (phase : Phase) : Option Process :=
  if process.holder = none then
    some ({ process with holder := some thread }.setPhase thread phase)
  else none

def release (process : Process) (thread : ThreadId) (phase : Phase) : Process :=
  { process with holder := none }.setPhase thread phase

/-- One step of a thread. `mapBAR` leaves the mutex locked when an ioctl is refused. -/
def step (pageSize : ℕ) (process : Process) (label : Step) : Option Process :=
  let thread := label.thread
  match process.phase thread, label.action with
  | .idle, action => process.begin thread action
  | .allocated handle, .lock => process.acquire thread (.locked handle)
  | .locked handle, .mmapMode accepted =>
      if accepted then
        some ({ process with driver := { process.driver with mmapMode := .kmem } }.setPhase thread
          (.modeSet handle))
      else some (process.setPhase thread (.mapFailed handle))
  | .modeSet handle, .mmap remapped =>
      match process.driver.mmap pageSize handle.size remapped with
      | some mem => some (process.setPhase thread (.mapped handle mem))
      | none => some (process.setPhase thread (.mapFailed handle))
  | .mapped handle mem, .unlock object =>
      match process.objects object with
      | some _ => none
      | none => some ((process.setObject object (some ⟨handle, mem⟩)).release thread .idle)
  | .mapFailed handle, .unlock _ => some (process.release thread (.releasing handle))
  | .releasing handle, .kmemFree =>
      match process.driver.kmemFree handle with
      | some driver => some ({ process with driver := driver }.setPhase thread .idle)
      | none => some (process.setPhase thread .idle)
  | .barWaiting bar, .lock => process.acquire thread (.barLocked bar)
  | .barLocked bar, .mmapMode accepted =>
      if accepted then
        some ({ process with driver := { process.driver with mmapMode := .pci } }.setPhase thread
          (.barModeSet bar))
      else some (process.setPhase thread .idle)
  | .barModeSet bar, .mmapArea accepted =>
      if accepted then
        some ({ process with driver := { process.driver with mmapArea := bar } }.setPhase thread
          (.barAreaSet bar))
      else some (process.setPhase thread .idle)
  | .barAreaSet _, .mmap _ => some (process.setPhase thread .barMapped)
  | .barMapped, .unlock _ => some (process.release thread .idle)
  | _, _ => none

end Process

def mappingSystem (pageSize : ℕ) : System Process Step where
  initial process := process.driver.kmemList = [] ∧ process.holder = none ∧
    (∀ thread, process.phase thread = .idle) ∧ ∀ object, process.objects object = none
  step := Process.step pageSize

end FpgaPcie.Driver
