import FpgaPcie.Driver.Interface
import FpgaPcie.Lib.Segments
import Mathlib.Data.BitVec

/-!
# Mapping user memory

`PCIDRIVER_IOC_UMEM_SGMAP` makes a scatterlist of the pages of a user buffer and has it
mapped to the bus, `PCIDRIVER_IOC_UMEM_SGGET` copies the result to the user, and the
constructor of `UserMemory` calls one after the other. What the kernel's functions
answer comes as `Kernel` and as the outcomes of a call.
-/

namespace FpgaPcie.Driver.Umem

open FpgaPcie.Segments

set_option autoImplicit false

def pageSize : ℕ := 4096
def pageShift : ℕ := 12
def pageMask : U64 := ~~~(4095#64)

abbrev Page := ℕ

/-- `struct scatterlist` as `sg_set_page` fills it. -/
structure ScatterEntry where
  page : Page
  length : ℕ
  offset : ℕ
  deriving DecidableEq, Repr

/-- What `pci_map_sg` made of a scatterlist: the entries to be given to the device, and
where on the bus it put the page of each entry. -/
structure SgMapping where
  dma : List (Segment U64)
  bus : ℕ → U64

structure Kernel where
  getUserPages : U64 → U32 → List Page
  pciMapSg : List ScatterEntry → SgMapping

/-- `pcidriver_umem_entry_t`. An entry is made of a mapping that is not empty. -/
structure UmemEntry where
  id : U32
  pages : List Page
  sg : List (Segment U64)
  mapped : sg ≠ []

structure Privdata where
  umemList : List UmemEntry
  umemCount : U32

inductive Errno where
  | einval
  | enomem
  | efault
  deriving DecidableEq, Repr

/-- How the calls that can fail go in `UMEM_SGMAP`. -/
structure SgmapOutcome where
  readFromUser : Bool
  vmallocPages : Bool
  vmallocSg : Bool
  kmallocEntry : Bool
  sysfsInitialize : Bool
  writeToUser : Bool
  deriving DecidableEq, Repr

def pageCount (vma size : U64) : U32 :=
  (((vma &&& ~~~pageMask) + size + ~~~pageMask) >>> pageShift).setWidth 32

/-- The loop behind the first page; `count` is what remains of the buffer. -/
def fillPages : U64 → List Page → List ScatterEntry
  | _, [] => []
  | count, page :: rest =>
      let length := if BitVec.ofNat 64 pageSize < count then BitVec.ofNat 64 pageSize else count
      ⟨page, length.toNat, 0⟩ :: fillPages (count - length) rest

def scatterlist (vma size : U64) : List Page → List ScatterEntry
  | [] => []
  | first :: rest =>
      let offset := vma &&& ~~~pageMask
      let room := BitVec.ofNat 64 pageSize - offset
      let length := if room < size then room else size
      ⟨first, length.toNat, offset.toNat⟩ :: fillPages (size - length) rest

/-- `pcidriver_umem_sgmap`; the result is the handle id. The id is drawn also where the
sysfs file cannot be made. -/
def umemSgmap (kernel : Kernel) (outcome : SgmapOutcome) (privdata : Privdata) (vma size : U64) :
    Privdata × Except Errno U32 :=
  if size = 0#64 then (privdata, .error .einval)
  else if ¬(outcome.vmallocPages ∧ outcome.vmallocSg) then (privdata, .error .enomem)
  else
    let nrPages := pageCount vma size
    let pages := kernel.getUserPages vma nrPages
    if pages.length < nrPages.toNat then (privdata, .error .enomem)
    else
      let sg := (kernel.pciMapSg (scatterlist vma size pages)).dma
      if empty : sg = [] then (privdata, .error .enomem)
      else if ¬outcome.kmallocEntry then (privdata, .error .enomem)
      else
        let id := privdata.umemCount
        let counted := { privdata with umemCount := privdata.umemCount + 1#32 }
        if ¬outcome.sysfsInitialize then (counted, .error .enomem)
        else ({ counted with umemList := counted.umemList ++ [⟨id, pages, sg, empty⟩] }, .ok id)

def ioctlUmemSgmap (kernel : Kernel) (outcome : SgmapOutcome) (privdata : Privdata)
    (vma size : U64) : Privdata × Except Errno U32 :=
  if ¬outcome.readFromUser then (privdata, .error .efault)
  else
    match umemSgmap kernel outcome privdata vma size with
    | (after, .error errno) => (after, .error errno)
    | (after, .ok id) => (after, if outcome.writeToUser then .ok id else .error .efault)

namespace Privdata

def umemFindEntryId (privdata : Privdata) (id : U32) : Option UmemEntry :=
  privdata.umemList.find? fun entry => entry.id = id

def umemSgunmap (privdata : Privdata) (id : U32) : Privdata :=
  { privdata with umemList := privdata.umemList.eraseP fun entry => entry.id = id }

end Privdata

structure UmemSgList where
  handleId : U32
  merged : Bool
  nents : U32
  deriving DecidableEq, Repr

def sgEntry (entry : Segment U64) : UmemSgEntry := ⟨entry.address, BitVec.ofNat 64 entry.length⟩

/-- The merging loop: `front` are the entries before `idx`, `last` is `sg[idx]`. -/
def mergeSg (front : List UmemSgEntry) (last : UmemSgEntry) : List (Segment U64) → List UmemSgEntry
  | [] => front ++ [last]
  | entry :: rest =>
      if entry.address = last.addr + last.size then
        mergeSg front { last with size := last.size + BitVec.ofNat 64 entry.length } rest
      else if entry.length = 0 then mergeSg front last rest
      else mergeSg (front ++ [last]) (sgEntry entry) rest

def copySg (sg : List (Segment U64)) (nonempty : sg ≠ []) : List UmemSgEntry :=
  if (sg.getLast nonempty).length = 0 then sg.dropLast.map sgEntry else sg.map sgEntry

/-- `pcidriver_umem_sgget`: the entries that `nents` counts afterwards. -/
def umemSgget (privdata : Privdata) (list : UmemSgList) : Except Errno (List UmemSgEntry) :=
  match privdata.umemFindEntryId list.handleId with
  | none => .error .einval
  | some entry =>
      if list.nents < BitVec.ofNat 32 entry.sg.length then .error .einval
      else if list.merged then
        .ok (mergeSg [] (sgEntry (entry.sg.head entry.mapped)) entry.sg.tail)
      else .ok (copySg entry.sg entry.mapped)

/-- How the calls that can fail go in `UMEM_SGGET`. -/
structure SggetOutcome where
  readList : Bool
  vmallocSg : Bool
  readEntries : Bool
  writeEntries : Bool
  writeList : Bool
  deriving DecidableEq, Repr

def ioctlUmemSgget (outcome : SggetOutcome) (privdata : Privdata) (list : UmemSgList) :
    Except Errno (List UmemSgEntry) :=
  if ¬outcome.readList then .error .efault
  else if ¬outcome.vmallocSg then .error .enomem
  else if ¬outcome.readEntries then .error .efault
  else
    match umemSgget privdata list with
    | .error errno => .error errno
    | .ok entries =>
        if outcome.writeEntries ∧ outcome.writeList then .ok entries else .error .efault

inductive Exception where
  | sgmapFailed
  deriving DecidableEq, Repr

structure UserMemory where
  vma : U64
  size : U32
  handleId : U32
  sg : List UmemSgEntry
  deriving DecidableEq, Repr

/-- Room for one entry a page touched, wherever in a page the buffer starts. -/
def requestedNents (size : U32) : U32 := size / BitVec.ofNat 32 pageSize + 2#32

/-- `UserMemory::UserMemory`. When the list cannot be had the memory is unmapped again. -/
def UserMemory.construct (kernel : Kernel) (sgmap : SgmapOutcome) (sgget : SggetOutcome)
    (privdata : Privdata) (mem : U64) (size : U32) (merged : Bool) :
    Privdata × Except Exception UserMemory :=
  match ioctlUmemSgmap kernel sgmap privdata mem (size.setWidth 64) with
  | (after, .error _) => (after, .error .sgmapFailed)
  | (after, .ok handleId) =>
      match ioctlUmemSgget sgget after ⟨handleId, merged, requestedNents size⟩ with
      | .error _ => (after.umemSgunmap handleId, .error .sgmapFailed)
      | .ok sg => (after, .ok ⟨mem, size, handleId, sg⟩)

end FpgaPcie.Driver.Umem
