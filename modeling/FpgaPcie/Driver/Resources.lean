import FpgaPcie.Driver.EntryStore
import FpgaPcie.Driver.Kmem
import FpgaPcie.Driver.Umem
import FpgaPcie.Lib.Holdings

/-!
# What the driver holds for a device

The lists of one device, with every resource that the driver takes and gives back on
record. A call that allocates draws a serial number; it names the allocations of that call
where the source has a pointer, also when memory is used again.
-/

namespace FpgaPcie.Driver.Resources

open FpgaPcie.Holdings
open FpgaPcie.Driver.Entries (EntryKind Direction)
open FpgaPcie.Driver.Umem (Page Errno)

set_option autoImplicit false

/-- The `sysfs_attr` of an entry. Its name is `kbuf%d` or `umem%d` with the id. -/
structure EntryAttribute where
  kind : EntryKind
  id : U32
  serial : ℕ
  deriving DecidableEq, Repr

/-- The files that `pcidriver_probe` makes for the class device. -/
inductive DeviceAttribute where
  | irqCount
  | irqQueues
  | mmapMode
  | mmapArea
  | kmemCount
  | kmemAlloc
  | kmemFree
  | kbuffers
  | umappings
  | umemUnmap
  deriving DecidableEq, Repr

/-- `sgList` is the list that `UMEM_SGGET` copies; a mapping is named with the count of
entries it was made for. From `pciDevice` on the resources are those of the whole device. -/
inductive Resource where
  | entryStruct (serial : ℕ)
  | sysfsName (attr : EntryAttribute)
  | sysfsFile (attr : EntryAttribute)
  | dmaMemory (serial : ℕ)
  | pageArray (serial : ℕ)
  | sgTable (serial : ℕ)
  | pageRef (page : Page)
  | sgMapping (serial : ℕ) (nrPages : U32)
  | sgList (serial : ℕ)
  | pciDevice
  | privdata
  | classDevice
  | region (bar : Fin 6)
  | barMapping (bar : Fin 6)
  | irqHandler
  | attributeFile (attr : DeviceAttribute)
  | charDevice
  deriving DecidableEq, Repr

namespace Resource

/-- Whether the resource is one that the calls on a bound device take. -/
def ofCall : Resource → Bool
  | .entryStruct _ | .sysfsName _ | .sysfsFile _ | .dmaMemory _ | .pageArray _ | .sgTable _
  | .pageRef _ | .sgMapping _ _ | .sgList _ => true
  | _ => false

end Resource

structure KmemBuffer extends KmemEntry where
  serial : ℕ
  deriving DecidableEq, Repr

/-- `pcidriver_umem_entry_t`; `nr_pages` counts the pages. -/
structure UmemBuffer extends Umem.UmemEntry where
  nrPages : U32
  serial : ℕ
  counted : pages.length = nrPages.toNat

/-- What an entry of `kmem_list` stands for, what is taken first in the last place. -/
def kmemHolds (serial : ℕ) (id : U32) : List Resource :=
  [.dmaMemory serial, .sysfsFile ⟨.kmem, id, serial⟩, .sysfsName ⟨.kmem, id, serial⟩,
    .entryStruct serial]

def umemHolds (serial : ℕ) (id nrPages : U32) (pages : List Page) : List Resource :=
  .sysfsFile ⟨.umem, id, serial⟩ :: .sysfsName ⟨.umem, id, serial⟩ :: .entryStruct serial ::
    .sgMapping serial nrPages :: (pages.map .pageRef ++ [.sgTable serial, .pageArray serial])

namespace KmemBuffer

def sysfsAttr (entry : KmemBuffer) : EntryAttribute := ⟨.kmem, entry.id, entry.serial⟩

def holds (entry : KmemBuffer) : List Resource := kmemHolds entry.serial entry.id

end KmemBuffer

namespace UmemBuffer

def sysfsAttr (entry : UmemBuffer) : EntryAttribute := ⟨.umem, entry.id, entry.serial⟩

def holds (entry : UmemBuffer) : List Resource :=
  umemHolds entry.serial entry.id entry.nrPages entry.pages

end UmemBuffer

inductive SyncCall where
  | forDevice
  | forCpu
  deriving DecidableEq, Repr

/-- The private data, the lock bits of the pages, and the record. The device number, the
mapped BARs and `irqEnabled` are set by the probe and stay. -/
structure Device where
  devno : U32
  kmemList : List KmemBuffer
  kmemCount : U32
  umemList : List UmemBuffer
  umemCount : U32
  barsKmapped : Fin 6 → Bool
  irqEnabled : Bool
  locked : Page → Bool
  nextSerial : ℕ
  record : List (Event Resource)
  synced : List (ℕ × SyncCall)

namespace Device

def take (device : Device) (resource : Resource) : Device :=
  { device with record := .taken resource :: device.record }

def give (device : Device) (resource : Resource) : Device :=
  { device with record := .given resource :: device.record }

/-- The serial number drawn is `nextSerial` before. -/
def drawSerial (device : Device) : Device := { device with nextSerial := device.nextSerial + 1 }

/-- `kstrdup` and `class_device_create_file` in `_pcidriver_sysfs_initialize`. -/
structure SysfsAnswers where
  kstrdupName : Bool
  createFile : Bool
  deriving DecidableEq, Repr

/-- `_pcidriver_sysfs_initialize`, with `true` where it returns zero. The name stays
when the file cannot be made. -/
def sysfsInitialize (device : Device) (attr : EntryAttribute) (answers : SysfsAnswers) :
    Device × Bool :=
  if ¬answers.kstrdupName then (device, false)
  else
    let device := device.take (.sysfsName attr)
    if ¬answers.createFile then (device, false)
    else (device.take (.sysfsFile attr), true)

def sysfsRemove (device : Device) (attr : EntryAttribute) : Device :=
  (device.give (.sysfsFile attr)).give (.sysfsName attr)

end Device

/-- How the calls go that `KMEM_ALLOC` makes. Memory is handed out with its bus address
and its address for the CPU. -/
structure KmemAnswers where
  readFromUser : Bool
  kcallocEntry : Bool
  sysfs : Device.SysfsAnswers
  pciAllocConsistent : Option (U64 × U64)
  writeToUser : Bool
  deriving DecidableEq, Repr

namespace Device

/-- `pcidriver_kmem_alloc`. One label serves a sysfs file that cannot be made and memory
that is refused: it frees the entry only. -/
def kmemAlloc (device : Device) (size : U64) (answers : KmemAnswers) :
    Device × Except Errno KmemHandle :=
  let serial := device.nextSerial
  let device := device.drawSerial
  if ¬answers.kcallocEntry then (device, .error .enomem)
  else
    let device := device.take (.entryStruct serial)
    let id := device.kmemCount
    let device := { device with kmemCount := device.kmemCount + 1#32 }
    match device.sysfsInitialize ⟨.kmem, id, serial⟩ answers.sysfs with
    | (device, false) => (device.give (.entryStruct serial), .error .enomem)
    | (device, true) =>
        match answers.pciAllocConsistent with
        | none => (device.give (.entryStruct serial), .error .enomem)
        | some (dmaHandle, cpua) =>
            let device := device.take (.dmaMemory serial)
            ({ device with kmemList := device.kmemList ++ [⟨⟨id, dmaHandle, cpua, size⟩, serial⟩] },
              .ok ⟨dmaHandle, size, id⟩)

def kmemFindEntry (device : Device) (handle : KmemHandle) : Option KmemBuffer :=
  device.kmemList.find? fun entry => entry.dmaHandle = handle.pa

def kmemFindEntryId (device : Device) (id : U32) : Option KmemBuffer :=
  device.kmemList.find? fun entry => entry.id = id

def kmemFreeEntry (device : Device) (entry : KmemBuffer) : Device :=
  let device := (device.sysfsRemove entry.sysfsAttr).give (.dmaMemory entry.serial)
  { device with kmemList := device.kmemList.eraseP fun other => other.serial = entry.serial }.give
    (.entryStruct entry.serial)

def kmemFree (device : Device) (handle : KmemHandle) : Device × Except Errno Unit :=
  match device.kmemFindEntry handle with
  | none => (device, .error .einval)
  | some entry => (device.kmemFreeEntry entry, .ok ())

def kmemFreeAll (device : Device) : Device := device.kmemList.foldl kmemFreeEntry device

end Device

def syncCalls : Direction → List SyncCall
  | .toDevice => [.forDevice]
  | .fromDevice => [.forCpu]
  | .bidirectional => [.forDevice, .forCpu]
  | .invalid => []

namespace Device

def kmemSync (device : Device) (handle : KmemHandle) (direction : Direction) :
    Device × Except Errno Unit :=
  match device.kmemFindEntry handle with
  | none => (device, .error .einval)
  | some entry =>
      if direction = .invalid then (device, .error .einval)
      else
        let calls := (syncCalls direction).map fun call => (entry.serial, call)
        ({ device with synced := device.synced ++ calls }, .ok ())

end Device

end FpgaPcie.Driver.Resources
