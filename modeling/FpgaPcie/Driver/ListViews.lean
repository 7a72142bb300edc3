import FpgaPcie.Driver.DeviceBooks
import FpgaPcie.Driver.KmemMapping

/-!
# The lists as their users see them

User memory and kernel memory are modelled a second time by their lists alone, for what
the library makes of them. A device shows such a list with its count; each call that
allocates, frees or looks up does to what is shown what it does there, and returns the
same.
-/

namespace FpgaPcie.Driver.Resources

open FpgaPcie.Transition
open FpgaPcie.Segments (Segment)
open FpgaPcie.Driver.Umem (Page Errno pageCount UmemSgList)

set_option autoImplicit false

section Views

variable {reserved : Page → Bool} {device : Device}

namespace SgmapAnswers

/-- The pages asked for are all that `get_user_pages` can return. -/
def userKernel (answers : SgmapAnswers) : Umem.Kernel where
  getUserPages vma nrPages := (answers.kernel.getUserPages vma nrPages).take nrPages.toNat
  pciMapSg := answers.kernel.pciMapSg

def outcome (answers : SgmapAnswers) (vma size : U64) : Umem.SgmapOutcome where
  readFromUser := answers.readFromUser
  vmallocPages := answers.vmallocPages && 0 < (pageCount vma size).toInt
  vmallocSg := answers.vmallocSg
  kmallocEntry := answers.kmallocEntry
  sysfsInitialize := answers.sysfs.kstrdupName && answers.sysfs.createFile
  writeToUser := answers.writeToUser

end SgmapAnswers

theorem umem_sgmap_unmap_umem (device : Device) (serial : ℕ) (pages : List Page) :
    (device.umemSgmapUnmap serial pages).umem = device.umem := by
  rw [umem_sgmap_unmap_eq]
  rfl

theorem add_entry_view (answers : SgmapAnswers) (vma size : U64) (device : Device) (serial : ℕ)
    (nrPages : U32) (pages : List Page) (counted : pages.length = nrPages.toNat)
    (sg : List (Segment U64)) (mapped : sg ≠ []) :
    Prod.map Device.umem id
        (Device.umemSgmapAddEntry answers device serial nrPages pages counted sg mapped) =
      if ¬(answers.outcome vma size).kmallocEntry then (device.umem, .error .enomem)
      else if ¬(answers.outcome vma size).sysfsInitialize then
        ({ device.umem with umemCount := device.umemCount + 1#32 }, .error .enomem)
      else
        (⟨device.umem.umemList ++ [⟨device.umemCount, pages, sg, mapped⟩],
          device.umemCount + 1#32⟩, .ok device.umemCount) := by
  by_cases entry : answers.kmallocEntry
  · have entryOutcome : (answers.outcome vma size).kmallocEntry := entry
    by_cases name : answers.sysfs.kstrdupName
    · by_cases file : answers.sysfs.createFile
      · have named : (answers.outcome vma size).sysfsInitialize := by
          simp [SgmapAnswers.outcome, name, file]
        simp only [Device.umemSgmapAddEntry, Device.sysfsInitialize, entry, entryOutcome, name,
          file, named, not_true_eq_false, if_false]
        simp [Device.umem, Device.take]
      · have unnamed : ¬(answers.outcome vma size).sysfsInitialize := by
          simp [SgmapAnswers.outcome, file]
        simp only [Device.umemSgmapAddEntry, Device.sysfsInitialize, entry, entryOutcome, name,
          file, unnamed, not_true_eq_false, if_false]
        exact Prod.ext (umem_sgmap_unmap_umem _ _ _) rfl
    · have unnamed : ¬(answers.outcome vma size).sysfsInitialize := by
        simp [SgmapAnswers.outcome, name]
      simp only [Device.umemSgmapAddEntry, Device.sysfsInitialize, entry, entryOutcome, name,
        unnamed, not_true_eq_false, if_false]
      exact Prod.ext (umem_sgmap_unmap_umem _ _ _) rfl
  · have noEntry : ¬(answers.outcome vma size).kmallocEntry := entry
    simp only [Device.umemSgmapAddEntry, entry, noEntry]
    exact Prod.ext (umem_sgmap_unmap_umem _ _ _) rfl

theorem umem_sgmap_view (reserved : Page → Bool) (answers : SgmapAnswers) (device : Device)
    (vma size : U64) :
    Prod.map Device.umem id (Device.umemSgmap reserved answers device vma size) =
      Umem.umemSgmap answers.userKernel (answers.outcome vma size) device.umem vma size := by
  have pages : answers.userKernel.getUserPages vma (pageCount vma size) =
      answers.userPages vma size := rfl
  have sg : answers.userKernel.pciMapSg = answers.kernel.pciMapSg := rfl
  by_cases zero : size = 0#64
  · simp only [Device.umemSgmap, Umem.umemSgmap, zero, if_true]
    rfl
  by_cases array : answers.vmallocPages ∧ 0 < (pageCount vma size).toInt
  · have arrayOutcome : (answers.outcome vma size).vmallocPages := by
      simpa [SgmapAnswers.outcome] using array
    by_cases table : answers.vmallocSg
    · have tableOutcome : (answers.outcome vma size).vmallocSg := table
      simp only [Device.umemSgmap, Umem.umemSgmap, zero, if_false, array, table, arrayOutcome,
        tableOutcome, and_self, not_true_eq_false, foldl_take, foldl_lock_user_page, pages, sg]
      by_cases short : (answers.userPages vma size).length < (pageCount vma size).toNat
      · rw [dif_pos short, if_pos short]
        exact Prod.ext (umem_sgmap_unmap_umem _ _ _) rfl
      rw [dif_neg short, if_neg short]
      by_cases empty : (answers.kernel.pciMapSg
          (Umem.scatterlist vma size (answers.userPages vma size))).dma = []
      · rw [dif_pos empty, dif_pos empty]
        exact Prod.ext (umem_sgmap_unmap_umem _ _ _) rfl
      · rw [dif_neg empty, dif_neg empty, add_entry_view answers vma size]
        rfl
    · have tableOutcome : ¬(answers.outcome vma size).vmallocSg := table
      simp only [Device.umemSgmap, Umem.umemSgmap, zero, if_false, array, table, tableOutcome,
        Bool.false_eq_true, and_self, and_false, not_true_eq_false, not_false_eq_true, if_true]
      rfl
  · have arrayOutcome : ¬(answers.outcome vma size).vmallocPages := by
      simpa [SgmapAnswers.outcome] using array
    simp only [Device.umemSgmap, Umem.umemSgmap, zero, if_false, array, arrayOutcome, false_and,
      Bool.false_eq_true, not_false_eq_true, if_true]
    rfl

theorem ioctl_umem_sgmap_view (reserved : Page → Bool) (device : Device) (vma size : U64)
    (answers : SgmapAnswers) :
    Prod.map Device.umem id (Device.ioctlUmemSgmap reserved device vma size answers) =
      Prod.map id (Except.map Reply.handleId)
        (Umem.ioctlUmemSgmap answers.userKernel (answers.outcome vma size) device.umem vma size) := by
  have view := umem_sgmap_view reserved answers device vma size
  have read : (answers.outcome vma size).readFromUser = answers.readFromUser := rfl
  have write : (answers.outcome vma size).writeToUser = answers.writeToUser := rfl
  rw [Device.ioctlUmemSgmap, Umem.ioctlUmemSgmap, read, write, ← view]
  by_cases reads : answers.readFromUser
  · rw [if_neg (not_not.mpr reads), if_neg (not_not.mpr reads)]
    rcases Device.umemSgmap reserved answers device vma size with ⟨after, errno | handleId⟩
    · rfl
    · by_cases writes : answers.writeToUser <;> simp [writes, Except.map]
  · rw [if_pos reads, if_pos reads]
    rfl

theorem ioctl_umem_sgget_view (device : Device) (list : UmemSgList) (answers : Umem.SggetOutcome) :
    Prod.map Device.umem id (device.ioctlUmemSgget list answers) =
      (device.umem, (Umem.ioctlUmemSgget answers device.umem list).map .sgEntries) := by
  have same : (device.drawSerial.take (.sgList device.nextSerial)).umem = device.umem := rfl
  have given : ((device.drawSerial.take (.sgList device.nextSerial)).give
      (.sgList device.nextSerial)).umem = device.umem := rfl
  have drawn : device.drawSerial.umem = device.umem := rfl
  by_cases read : answers.readList
  · by_cases room : answers.vmallocSg
    · by_cases entries : answers.readEntries
      · cases got : Umem.umemSgget device.umem list with
        | error errno =>
            simp [Device.ioctlUmemSgget, Umem.ioctlUmemSgget, read, room, entries, same, got,
              Except.map]
        | ok copied =>
            by_cases write : answers.writeEntries <;> by_cases back : answers.writeList <;>
              simp [Device.ioctlUmemSgget, Umem.ioctlUmemSgget, read, room, entries, same, given,
                got, write, back, Except.map]
      · simp [Device.ioctlUmemSgget, Umem.ioctlUmemSgget, read, room, entries, same, Except.map]
    · simp [Device.ioctlUmemSgget, Umem.ioctlUmemSgget, read, room, drawn, Except.map]
  · simp [Device.ioctlUmemSgget, Umem.ioctlUmemSgget, read, drawn, Except.map]

/-- Also where two entries have drawn one id, the entry found is the one taken out. -/
theorem umem_sgunmap_view (reached : (deviceSystem reserved).Reachable device) (handleId : U32) :
    (Device.ioctlUmemSgunmap reserved device handleId true).1.umem =
      device.umem.umemSgunmap handleId := by
  obtain ⟨leaked, books, -⟩ := reachable_books reached
  have erased : device.umem.umemSgunmap handleId =
      ⟨(device.umemList.eraseP fun entry => entry.id = handleId).map UmemBuffer.toUmemEntry,
        device.umemCount⟩ := by
    rw [Umem.Privdata.umemSgunmap, Device.umem, List.eraseP_map]
    rfl
  have unmapped : ∀ entry, (Device.umemSgunmap reserved device entry).umemCount =
      device.umemCount := by
    intro entry
    simp only [Device.umemSgunmap, foldl_unmap_page]
    rfl
  rw [erased, Device.ioctlUmemSgunmap]
  cases found : device.umemFindEntryId handleId with
  | none =>
      have absent := List.find?_eq_none.mp found
      rw [List.eraseP_of_forall_not absent]
      rfl
  | some entry =>
      have freed := umem_sgunmap_frees reserved device entry
      rw [← books.umemDistinct.erase_found found]
      simp only [not_true_eq_false, if_false, Device.umem]
      rw [freed.umemList, unmapped]

def Device.kmem (mmapMode : MmapMode) (mmapArea : Fin 6) (device : Device) : Privdata :=
  ⟨device.kmemList.map KmemBuffer.toKmemEntry, device.kmemCount, mmapMode, mmapArea⟩

def KmemAnswers.outcome (answers : KmemAnswers) : AllocOutcome :=
  if ¬answers.kcallocEntry then .noEntry
  else if ¬(answers.sysfs.kstrdupName ∧ answers.sysfs.createFile) then .noMemory
  else
    match answers.pciAllocConsistent with
    | none => .noMemory
    | some (dmaHandle, cpua) => .granted cpua dmaHandle

theorem kmem_alloc_view (device : Device) (mmapMode : MmapMode) (mmapArea : Fin 6) (size : U64)
    (answers : KmemAnswers) :
    Prod.map (Device.kmem mmapMode mmapArea) Except.toOption (device.kmemAlloc size answers) =
      (device.kmem mmapMode mmapArea).kmemAlloc size answers.outcome := by
  by_cases entry : answers.kcallocEntry
  · by_cases name : answers.sysfs.kstrdupName
    · by_cases file : answers.sysfs.createFile
      · cases memory : answers.pciAllocConsistent with
        | none =>
            have outcome : answers.outcome = .noMemory := by
              simp [KmemAnswers.outcome, entry, name, file, memory]
            simp only [Device.kmemAlloc, Device.sysfsInitialize, entry, name, file, memory,
              not_true_eq_false, if_false, outcome]
            rfl
        | some area =>
            obtain ⟨dmaHandle, cpua⟩ := area
            have outcome : answers.outcome = .granted cpua dmaHandle := by
              simp [KmemAnswers.outcome, entry, name, file, memory]
            simp only [Device.kmemAlloc, Device.sysfsInitialize, entry, name, file, memory,
              not_true_eq_false, if_false, outcome]
            simp [Device.kmem, Privdata.kmemAlloc, Device.take, Device.drawSerial,
              Except.toOption]
      · have outcome : answers.outcome = .noMemory := by
          simp [KmemAnswers.outcome, entry, file]
        simp only [Device.kmemAlloc, Device.sysfsInitialize, entry, name, file,
          not_true_eq_false, if_false, outcome]
        rfl
    · have outcome : answers.outcome = .noMemory := by
        simp [KmemAnswers.outcome, entry, name]
      simp only [Device.kmemAlloc, Device.sysfsInitialize, entry, name, not_true_eq_false,
        if_false, outcome]
      rfl
  · have outcome : answers.outcome = .noEntry := by
      simp [KmemAnswers.outcome, entry]
    simp only [Device.kmemAlloc, entry, outcome]
    rfl

theorem kmem_free_view (reached : (deviceSystem reserved).Reachable device)
    (mmapMode : MmapMode) (mmapArea : Fin 6) (handle : KmemHandle) :
    (device.kmem mmapMode mmapArea).kmemFree handle =
      (device.kmemFree handle).2.toOption.map fun _ =>
        (device.kmemFree handle).1.kmem mmapMode mmapArea := by
  obtain ⟨leaked, books, -⟩ := reachable_books reached
  have search : kmemFindEntry (device.kmem mmapMode mmapArea).kmemList handle =
      (device.kmemFindEntry handle).map KmemBuffer.toKmemEntry := by
    rw [kmemFindEntry, Device.kmem, List.find?_map]
    rfl
  rw [Privdata.kmemFree, search, Device.kmemFree]
  cases found : device.kmemFindEntry handle with
  | none => rfl
  | some entry =>
      have erased := books.kmemDistinct.erase_found found
      have mapped : (device.kmem mmapMode mmapArea).kmemList.eraseP
          (fun other => other.dmaHandle = handle.pa) = (device.kmemList.eraseP
            fun other => other.serial = entry.serial).map KmemBuffer.toKmemEntry := by
        rw [erased, Device.kmem, List.eraseP_map]
        rfl
      rw [Option.map_some, Option.map_some, mapped]
      rfl

end Views

end FpgaPcie.Driver.Resources
