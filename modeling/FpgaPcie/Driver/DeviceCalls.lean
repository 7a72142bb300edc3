import FpgaPcie.Driver.Resources
import FpgaPcie.Lib.Transition

/-!
# The calls on a device

Mapping and unmapping user memory with the cleanup of each failing exit, and the calls of
users: the ioctls that allocate, free or look up, and the sysfs files that are written.
One call is served after the other. Whether a page is reserved is given by `reserved`.
-/

namespace FpgaPcie.Driver.Resources

open FpgaPcie.Holdings
open FpgaPcie.Segments (Segment)
open FpgaPcie.Transition
open FpgaPcie.Driver.Entries (EntryKind Direction)
open FpgaPcie.Driver.Umem (Page Errno pageCount scatterlist UmemSgList)

set_option autoImplicit false

structure SgmapAnswers where
  readFromUser : Bool
  vmallocPages : Bool
  vmallocSg : Bool
  kernel : Umem.Kernel
  kmallocEntry : Bool
  sysfs : Device.SysfsAnswers
  writeToUser : Bool

/-- The pages that `get_user_pages` returns, at most as many as asked for. An error is no
page at all. -/
def SgmapAnswers.userPages (answers : SgmapAnswers) (vma size : U64) : List Page :=
  (answers.kernel.getUserPages vma (pageCount vma size)).take (pageCount vma size).toNat

theorem SgmapAnswers.all_pages {answers : SgmapAnswers} {vma size : U64}
    (enough : ¬(answers.userPages vma size).length < (pageCount vma size).toNat) :
    (answers.userPages vma size).length = (pageCount vma size).toNat :=
  le_antisymm (List.length_take_le _ _) (not_lt.mp enough)

namespace Device

def lockPage (device : Device) (page : Page) : Device :=
  { device with locked := Function.update device.locked page true }

def unlockPage (device : Device) (page : Page) : Device :=
  { device with locked := Function.update device.locked page false }

/-- What the cleanup of `pcidriver_umem_sgmap` does with a page. -/
def releasePage (device : Device) (page : Page) : Device :=
  (if device.locked page then device.unlockPage page else device).give (.pageRef page)

section Reserved

variable (reserved : Page → Bool)

def lockUserPage (device : Device) (page : Page) : Device :=
  if !reserved page then device.lockPage page else device

/-- What `pcidriver_umem_sgunmap` does with a page. -/
def unmapPage (device : Device) (page : Page) : Device :=
  (if !reserved page then device.unlockPage page else device).give (.pageRef page)

-- The labels of `pcidriver_umem_sgmap`, the last one first: each falls through to the
-- one before.

def umemSgmapPages (device : Device) (serial : ℕ) : Device := device.give (.pageArray serial)

def umemSgmapUnmap (device : Device) (serial : ℕ) (pages : List Page) : Device :=
  ((pages.foldl releasePage device).give (.sgTable serial)).umemSgmapPages serial

def umemSgmapEntry (device : Device) (serial : ℕ) (nrPages : U32) (pages : List Page) : Device :=
  (device.give (.sgMapping serial nrPages)).umemSgmapUnmap serial pages

def umemSgmapNameFail (device : Device) (serial : ℕ) (nrPages : U32) (pages : List Page) :
    Device :=
  (device.give (.entryStruct serial)).umemSgmapEntry serial nrPages pages

/-- The end of `pcidriver_umem_sgmap`: an entry for what is mapped. -/
def umemSgmapAddEntry (answers : SgmapAnswers) (device : Device) (serial : ℕ) (nrPages : U32)
    (pages : List Page) (counted : pages.length = nrPages.toNat) (sg : List (Segment U64))
    (mapped : sg ≠ []) : Device × Except Errno U32 :=
  if ¬answers.kmallocEntry then (device.umemSgmapEntry serial nrPages pages, .error .enomem)
  else
    let device := device.take (.entryStruct serial)
    let id := device.umemCount
    let device := { device with umemCount := device.umemCount + 1#32 }
    match device.sysfsInitialize ⟨.umem, id, serial⟩ answers.sysfs with
    | (device, false) => (device.umemSgmapNameFail serial nrPages pages, .error .enomem)
    | (device, true) =>
        let entry : UmemBuffer := ⟨⟨id, pages, sg, mapped⟩, nrPages, serial, counted⟩
        ({ device with umemList := device.umemList ++ [entry] }, .ok id)

/-- `pcidriver_umem_sgmap`. `nr_pages` is signed, and `vmalloc` refuses an array of no or of
fewer pages. -/
def umemSgmap (answers : SgmapAnswers) (device : Device) (vma size : U64) :
    Device × Except Errno U32 :=
  let serial := device.nextSerial
  let device := device.drawSerial
  if size = 0#64 then (device, .error .einval)
  else
    let nrPages := pageCount vma size
    if ¬(answers.vmallocPages ∧ 0 < nrPages.toInt) then (device, .error .enomem)
    else
      let device := device.take (.pageArray serial)
      if ¬answers.vmallocSg then (device.umemSgmapPages serial, .error .enomem)
      else
        let device := device.take (.sgTable serial)
        let pages := answers.userPages vma size
        let device := (pages.map .pageRef).foldl take device
        if short : pages.length < nrPages.toNat then
          (device.umemSgmapUnmap serial pages, .error .enomem)
        else
          let device := pages.foldl (lockUserPage reserved) device
          let sg := (answers.kernel.pciMapSg (scatterlist vma size pages)).dma
          if empty : sg = [] then (device.umemSgmapUnmap serial pages, .error .enomem)
          else
            umemSgmapAddEntry answers (device.take (.sgMapping serial nrPages)) serial nrPages pages
              (answers.all_pages short) sg empty

def umemSgunmap (device : Device) (entry : UmemBuffer) : Device :=
  let device := (device.sysfsRemove entry.sysfsAttr).give
    (.sgMapping entry.serial entry.nrPages)
  let device := entry.pages.foldl (unmapPage reserved) device
  let unlinked := device.umemList.eraseP fun other => other.serial = entry.serial
  (({ device with umemList := unlinked }.give (.pageArray entry.serial)).give
    (.sgTable entry.serial)).give (.entryStruct entry.serial)

def umemSgunmapAll (device : Device) : Device :=
  device.umemList.foldl (umemSgunmap reserved) device

end Reserved

def umem (device : Device) : Umem.Privdata :=
  ⟨device.umemList.map UmemBuffer.toUmemEntry, device.umemCount⟩

def umemFindEntryId (device : Device) (id : U32) : Option UmemBuffer :=
  device.umemList.find? fun entry => entry.id = id

end Device

inductive Ioctl where
  | kmemAlloc (size : U64) (answers : KmemAnswers)
  | kmemFree (handle : KmemHandle) (readFromUser : Bool)
  | kmemSync (handle : KmemHandle) (direction : Direction) (readFromUser : Bool)
  | umemSgmap (vma size : U64) (answers : SgmapAnswers)
  | umemSgunmap (handleId : U32) (readFromUser : Bool)
  | umemSgget (list : UmemSgList) (answers : Umem.SggetOutcome)

inductive Reply where
  | done
  | kmemHandle (handle : KmemHandle)
  | handleId (id : U32)
  | sgEntries (entries : List UmemSgEntry)
  deriving DecidableEq, Repr

inductive SysfsWrite where
  | kmemAlloc (size : Option U64) (answers : KmemAnswers)
  | kmemFree (id : Option U32)
  | umemUnmap (id : Option U32)

namespace Device

def ioctlKmemAlloc (device : Device) (size : U64) (answers : KmemAnswers) :
    Device × Except Errno Reply :=
  if ¬answers.readFromUser then (device, .error .efault)
  else
    match device.kmemAlloc size answers with
    | (device, .error errno) => (device, .error errno)
    | (device, .ok handle) =>
        (device, if answers.writeToUser then .ok (.kmemHandle handle) else .error .efault)

def ioctlKmemFree (device : Device) (handle : KmemHandle) (readFromUser : Bool) :
    Device × Except Errno Reply :=
  if ¬readFromUser then (device, .error .efault)
  else
    match device.kmemFree handle with
    | (device, .error errno) => (device, .error errno)
    | (device, .ok ()) => (device, .ok .done)

def ioctlKmemSync (device : Device) (handle : KmemHandle) (direction : Direction)
    (readFromUser : Bool) : Device × Except Errno Reply :=
  if ¬readFromUser then (device, .error .efault)
  else
    match device.kmemSync handle direction with
    | (device, .error errno) => (device, .error errno)
    | (device, .ok ()) => (device, .ok .done)

def ioctlUmemSgget (device : Device) (list : UmemSgList) (answers : Umem.SggetOutcome) :
    Device × Except Errno Reply :=
  let serial := device.nextSerial
  let device := device.drawSerial
  if ¬answers.readList then (device, .error .efault)
  else if ¬answers.vmallocSg then (device, .error .enomem)
  else
    let device := device.take (.sgList serial)
    if ¬answers.readEntries then (device, .error .efault)
    else
      match Umem.umemSgget device.umem list with
      | .error errno => (device, .error errno)
      | .ok entries =>
          if ¬answers.writeEntries then (device, .error .efault)
          else
            let device := device.give (.sgList serial)
            (device, if answers.writeList then .ok (.sgEntries entries) else .error .efault)

section Reserved

variable (reserved : Page → Bool)

def ioctlUmemSgmap (device : Device) (vma size : U64) (answers : SgmapAnswers) :
    Device × Except Errno Reply :=
  if ¬answers.readFromUser then (device, .error .efault)
  else
    match umemSgmap reserved answers device vma size with
    | (device, .error errno) => (device, .error errno)
    | (device, .ok id) =>
        (device, if answers.writeToUser then .ok (.handleId id) else .error .efault)

def ioctlUmemSgunmap (device : Device) (handleId : U32) (readFromUser : Bool) :
    Device × Except Errno Reply :=
  if ¬readFromUser then (device, .error .efault)
  else
    match device.umemFindEntryId handleId with
    | none => (device, .error .einval)
    | some entry => (umemSgunmap reserved device entry, .ok .done)

def ioctl (device : Device) : Ioctl → Device × Except Errno Reply
  | .kmemAlloc size answers => device.ioctlKmemAlloc size answers
  | .kmemFree handle readFromUser => device.ioctlKmemFree handle readFromUser
  | .kmemSync handle direction readFromUser => device.ioctlKmemSync handle direction readFromUser
  | .umemSgmap vma size answers => ioctlUmemSgmap reserved device vma size answers
  | .umemSgunmap handleId readFromUser => ioctlUmemSgunmap reserved device handleId readFromUser
  | .umemSgget list answers => device.ioctlUmemSgget list answers

/-- `pcidriver_store_kmem_alloc`, `pcidriver_store_kmem_free` and
`pcidriver_store_umem_unmap`: a written id is compared with the counter before the lookup. -/
def store (device : Device) : SysfsWrite → Device
  | .kmemAlloc none _ | .kmemFree none | .umemUnmap none => device
  | .kmemAlloc (some size) answers => (device.kmemAlloc size answers).1
  | .kmemFree (some id) =>
      if id ≥ device.kmemCount then device
      else ((device.kmemFindEntryId id).map device.kmemFreeEntry).getD device
  | .umemUnmap (some id) =>
      if id ≥ device.umemCount then device
      else ((device.umemFindEntryId id).map (umemSgunmap reserved device)).getD device

end Reserved

end Device

/-- Besides the calls of users there are `pcidriver_umem_sgunmap`, of any live entry, and
`pcidriver_umem_sgunmap_all`. -/
inductive DriverCall where
  | ioctl (call : Ioctl)
  | store (write : SysfsWrite)
  | umemSgunmap (serial : ℕ)
  | umemSgunmapAll

namespace Device

/-- DMA memory is handed out apart from what is in use; also an empty area has an address
of its own. -/
def HandsOut (device : Device) (size : U64) (answers : KmemAnswers) : Prop :=
  match answers.pciAllocConsistent with
  | none => True
  | some (dmaHandle, _) => ∀ entry ∈ device.kmemList,
      entry.dmaHandle.toNat + max entry.size.toNat 1 ≤ dmaHandle.toNat ∨
        dmaHandle.toNat + max size.toNat 1 ≤ entry.dmaHandle.toNat

instance (device : Device) (size : U64) (answers : KmemAnswers) :
    Decidable (device.HandsOut size answers) :=
  match memory : answers.pciAllocConsistent with
  | none => isTrue (by rw [HandsOut, memory]; trivial)
  | some (dmaHandle, _) =>
      decidable_of_iff (∀ entry ∈ device.kmemList,
        entry.dmaHandle.toNat + max entry.size.toNat 1 ≤ dmaHandle.toNat ∨
          dmaHandle.toNat + max size.toNat 1 ≤ entry.dmaHandle.toNat)
        (by rw [HandsOut, memory])

def Possible (device : Device) : DriverCall → Prop
  | .ioctl (.kmemAlloc size answers) => device.HandsOut size answers
  | .store (.kmemAlloc (some size) answers) => device.HandsOut size answers
  | _ => True

instance (device : Device) (call : DriverCall) : Decidable (device.Possible call) :=
  match call with
  | .ioctl (.kmemAlloc size answers) | .store (.kmemAlloc (some size) answers) =>
      inferInstanceAs (Decidable (device.HandsOut size answers))
  | .ioctl (.kmemFree _ _) | .ioctl (.kmemSync _ _ _) | .ioctl (.umemSgmap _ _ _)
  | .ioctl (.umemSgunmap _ _) | .ioctl (.umemSgget _ _) | .store (.kmemAlloc none _)
  | .store (.kmemFree _) | .store (.umemUnmap _) | .umemSgunmap _ | .umemSgunmapAll =>
      instDecidableTrue

def after (reserved : Page → Bool) (device : Device) : DriverCall → Device
  | .ioctl call => (ioctl reserved device call).1
  | .store write => store reserved device write
  | .umemSgunmap serial =>
      ((device.umemList.find? fun entry => entry.serial = serial).map
        (umemSgunmap reserved device)).getD device
  | .umemSgunmapAll => umemSgunmapAll reserved device

structure New (device : Device) : Prop where
  kmemList : device.kmemList = []
  umemList : device.umemList = []
  untaken : ∀ resource : Resource, resource.ofCall → takenCount device.record resource = 0
  ungiven : ∀ resource : Resource, resource.ofCall → givenCount device.record resource = 0

end Device

def deviceSystem (reserved : Page → Bool) : System Device DriverCall where
  initial := Device.New
  step device call := if device.Possible call then some (device.after reserved call) else none

def emptyDevice : Device where
  devno := 0#32
  kmemList := []
  kmemCount := 0#32
  umemList := []
  umemCount := 0#32
  barsKmapped := fun _ => false
  irqEnabled := false
  locked := fun _ => false
  nextSerial := 0
  record := []
  synced := []

theorem empty_device_new : emptyDevice.New := ⟨rfl, rfl, fun _ _ => rfl, fun _ _ => rfl⟩

/-- Answers to a mapping of one page, in which every call goes well. -/
def onePageMapped (page : Page) : SgmapAnswers where
  readFromUser := true
  vmallocPages := true
  vmallocSg := true
  kernel := ⟨fun _ _ => [page], fun _ => ⟨[⟨0x1000#64, 4096⟩], fun _ => 0x1000#64⟩⟩
  kmallocEntry := true
  sysfs := ⟨true, true⟩
  writeToUser := true

def allocatePage : DriverCall :=
  .ioctl (.kmemAlloc 4096#64 ⟨true, true, ⟨true, true⟩, some (0x1000#64, 0x8000#64), true⟩)

end FpgaPcie.Driver.Resources
