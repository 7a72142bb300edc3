import FpgaPcie.Driver.DeviceBooks

/-!
# Ids of entries

An allocation draws the id of its entry from a counter of its kind, also where it fails
later. As long as the counters do not come round no id is drawn twice, so an id means one
allocation for good.
-/

namespace FpgaPcie.Driver.Resources

open FpgaPcie.Holdings
open FpgaPcie.Keyed
open FpgaPcie.Transition
open FpgaPcie.Driver.Entries (EntryKind Direction)
open FpgaPcie.Driver.Umem (Page Errno pageCount scatterlist UmemSgList)

set_option autoImplicit false

namespace Device

def umemSync (device : Device) (handleId : U32) (direction : Direction) :
    Device × Except Errno Unit :=
  match device.umemFindEntryId handleId with
  | none => (device, .error .einval)
  | some entry =>
      if direction = .invalid then (device, .error .einval)
      else
        let calls := (syncCalls direction).map fun call => (entry.serial, call)
        ({ device with synced := device.synced ++ calls }, .ok ())

def ioctlUmemSync (device : Device) (handleId : U32) (direction : Direction)
    (readFromUser : Bool) : Device × Except Errno Reply :=
  if ¬readFromUser then (device, .error .efault)
  else
    match device.umemSync handleId direction with
    | (device, .error errno) => (device, .error errno)
    | (device, .ok ()) => (device, .ok .done)

end Device

inductive IdCall where
  | driver (call : DriverCall)
  | umemSync (handleId : U32) (direction : Direction) (readFromUser : Bool)

def IdCall.allocations : IdCall → ℕ
  | .driver (.ioctl (.kmemAlloc _ _)) | .driver (.ioctl (.umemSgmap _ _ _))
  | .driver (.store (.kmemAlloc _ _)) => 1
  | _ => 0

namespace Device

def afterId (reserved : Page → Bool) (device : Device) : IdCall → Device
  | .driver call => device.after reserved call
  | .umemSync handleId direction readFromUser =>
      (device.ioctlUmemSync handleId direction readFromUser).1

def count (device : Device) : EntryKind → U32
  | .kmem => device.kmemCount
  | .umem => device.umemCount

def drawn (before after : Device) : List EntryAttribute :=
  ([.kmem, .umem].filter fun kind => after.count kind ≠ before.count kind).map fun kind =>
    ⟨kind, before.count kind, before.nextSerial⟩

def listed (device : Device) : List EntryAttribute :=
  device.kmemList.map KmemBuffer.sysfsAttr ++ device.umemList.map UmemBuffer.sysfsAttr

def Registered (device : Device) (attr : EntryAttribute) : Prop :=
  0 < held device.record (.sysfsFile attr)

end Device

/-- The device, how many calls were to allocate, and every id that was handed out with the
number of the call it was handed out to. -/
structure NumberedEntries where
  device : Device
  allocations : ℕ
  handed : List EntryAttribute

def idSystem (reserved : Page → Bool) : System NumberedEntries IdCall where
  initial state := state.device.New ∧ (∀ kind, state.device.count kind = 0#32) ∧
    state.allocations = 0 ∧ state.handed = []
  step state call :=
    (match call with
      | .driver call => (deviceSystem reserved).step state.device call
      | .umemSync _ _ _ => some (state.device.afterId reserved call)).map fun after =>
        ⟨after, state.allocations + call.allocations,
          Device.drawn state.device after ++ state.handed⟩

/-- A call draws no id and makes no file and no entry, or it draws the next id of one kind,
and only the file and the entry with that id can be new. -/
inductive IdEffect (before after : Device) : Prop where
  | keeps (count : after.count = before.count) (next : before.nextSerial ≤ after.nextSerial)
      (listed : after.listed ⊆ before.listed)
      (files : ∀ attr, takenCount after.record (.sysfsFile attr) =
        takenCount before.record (.sysfsFile attr))
  | draws (kind : EntryKind)
      (count : after.count = Function.update before.count kind (before.count kind + 1#32))
      (next : after.nextSerial = before.nextSerial + 1)
      (listed : after.listed ⊆ ⟨kind, before.count kind, before.nextSerial⟩ :: before.listed)
      (files : ∀ attr, attr ≠ ⟨kind, before.count kind, before.nextSerial⟩ →
        takenCount after.record (.sysfsFile attr) = takenCount before.record (.sysfsFile attr))

section Effects

variable {reserved : Page → Bool} {device before after : Device}

theorem IdEffect.refl (device : Device) : IdEffect device device :=
  .keeps rfl le_rfl (List.Subset.refl _) fun _ => rfl

theorem listed_subset (kmemList : after.kmemList ⊆ before.kmemList)
    (umemList : after.umemList ⊆ before.umemList) : after.listed ⊆ before.listed := by
  apply List.append_subset.mpr
  constructor
  · exact List.Subset.trans (List.map_subset _ kmemList) (List.subset_append_left _ _)
  · exact List.Subset.trans (List.map_subset _ umemList) (List.subset_append_right _ _)

/-- What comes behind makes no file and no entry, and leaves the counters. -/
theorem IdEffect.congr {later : Device} (effect : IdEffect before after)
    (count : later.count = after.count) (next : later.nextSerial = after.nextSerial)
    (listed : later.listed ⊆ after.listed)
    (files : ∀ attr, takenCount later.record (.sysfsFile attr) =
      takenCount after.record (.sysfsFile attr)) : IdEffect before later := by
  cases effect with
  | keeps counted above inside made =>
      exact .keeps (count.trans counted) (above.trans next.ge) (List.Subset.trans listed inside)
        fun attr => (files attr).trans (made attr)
  | draws kind counted above inside made =>
      exact .draws kind (count.trans counted) (next.trans above) (List.Subset.trans listed inside)
        fun attr other => (files attr).trans (made attr other)

theorem IdEffect.take (effect : IdEffect before after) (resource : Resource)
    (notFile : ∀ attr, resource ≠ .sysfsFile attr) : IdEffect before (after.take resource) := by
  refine effect.congr rfl rfl (List.Subset.refl _) ?_
  intro attr
  rw [Device.take, taken_count_cons_taken, if_neg (notFile attr), Nat.add_zero]

theorem IdEffect.give (effect : IdEffect before after) (resource : Resource) :
    IdEffect before (after.give resource) := by
  refine effect.congr rfl rfl (List.Subset.refl _) ?_
  intro attr
  rw [Device.give, taken_count_cons_given]

theorem IdEffect.take_pages (effect : IdEffect before after) (pages : List Page) :
    IdEffect before ((pages.map .pageRef).foldl Device.take after) := by
  induction pages generalizing after with
  | nil => exact effect
  | cons first rest ih => exact ih (effect.take (.pageRef first) nofun)

theorem IdEffect.lock_pages (effect : IdEffect before after) (pages : List Page) :
    IdEffect before (pages.foldl (Device.lockUserPage reserved) after) := by
  rw [foldl_lock_user_page]
  exact effect.congr rfl rfl (List.Subset.refl _) fun _ => rfl

theorem IdEffect.unmap (effect : IdEffect before after) (serial : ℕ) (pages : List Page) :
    IdEffect before (after.umemSgmapUnmap serial pages) := by
  have released : IdEffect before (pages.foldl Device.releasePage after) := by
    induction pages generalizing after with
    | nil => exact effect
    | cons first rest ih =>
        apply ih
        apply IdEffect.give
        by_cases locked : after.locked first
        · rw [if_pos locked]
          exact effect.congr rfl rfl (List.Subset.refl _) fun _ => rfl
        · rw [if_neg locked]
          exact effect
  exact (released.give _).give _

theorem kmem_count_drawn (kmem : after.kmemCount = before.kmemCount + 1#32)
    (umem : after.umemCount = before.umemCount) :
    after.count = Function.update before.count .kmem (before.count .kmem + 1#32) := by
  funext kind
  cases kind with
  | kmem => exact kmem
  | umem => exact umem

theorem umem_count_drawn (kmem : after.kmemCount = before.kmemCount)
    (umem : after.umemCount = before.umemCount + 1#32) :
    after.count = Function.update before.count .umem (before.count .umem + 1#32) := by
  funext kind
  cases kind with
  | kmem => exact kmem
  | umem => exact umem

theorem IdEffect.kept (effect : IdEffect before after) (count : after.count = before.count) :
    after.listed ⊆ before.listed ∧ ∀ attr,
      takenCount after.record (.sysfsFile attr) = takenCount before.record (.sysfsFile attr) := by
  cases effect with
  | keeps _ _ listed files => exact ⟨listed, files⟩
  | draws kind counted _ _ _ =>
      have moved := congrFun (count.symm.trans counted) kind
      rw [Function.update_self] at moved
      exact absurd moved (by bv_omega)

/-- `pcidriver_kmem_alloc` draws its id as soon as it has memory for the entry. -/
theorem kmem_alloc_ids (device : Device) (size : U64) (answers : KmemAnswers) :
    IdEffect device (device.kmemAlloc size answers).1 := by
  by_cases entry : answers.kcallocEntry
  · have drawn : ∀ {after : Device},
        after.kmemCount = device.kmemCount + 1#32 → after.umemCount = device.umemCount →
        after.nextSerial = device.nextSerial + 1 →
        after.listed ⊆ ⟨.kmem, device.kmemCount, device.nextSerial⟩ :: device.listed →
        (∀ attr, attr ≠ ⟨.kmem, device.kmemCount, device.nextSerial⟩ →
          takenCount after.record (.sysfsFile attr) =
            takenCount device.record (.sysfsFile attr)) → IdEffect device after := by
      intro after kmem umem next listed files
      exact .draws .kmem (kmem_count_drawn kmem umem) next listed files
    by_cases name : answers.sysfs.kstrdupName
    · by_cases file : answers.sysfs.createFile
      · cases memory : answers.pciAllocConsistent with
        | none =>
            simp only [Device.kmemAlloc, Device.sysfsInitialize, entry, name, file, memory,
              not_true_eq_false, if_false]
            refine drawn rfl rfl rfl (List.subset_cons_self _ _) ?_
            intro attr other
            simp [Device.take, Device.give, Device.drawSerial, takenCount, Ne.symm other]
        | some area =>
            obtain ⟨dmaHandle, cpua⟩ := area
            simp only [Device.kmemAlloc, Device.sysfsInitialize, entry, name, file, memory,
              not_true_eq_false, if_false]
            refine drawn rfl rfl rfl ?_ ?_
            · intro attr member
              simp only [Device.listed, Device.take, Device.drawSerial, List.map_append,
                List.map_singleton, List.mem_append, List.mem_cons] at member ⊢
              tauto
            · intro attr other
              simp [Device.take, Device.drawSerial, takenCount, Ne.symm other]
      · simp only [Device.kmemAlloc, Device.sysfsInitialize, entry, name, file,
          not_true_eq_false, if_false]
        refine drawn rfl rfl rfl (List.subset_cons_self _ _) ?_
        intro attr other
        simp [Device.take, Device.give, Device.drawSerial, takenCount]
    · simp only [Device.kmemAlloc, Device.sysfsInitialize, entry, name, not_true_eq_false, if_false]
      refine drawn rfl rfl rfl (List.subset_cons_self _ _) ?_
      intro attr other
      simp [Device.take, Device.give, Device.drawSerial, takenCount]
  · simp only [Device.kmemAlloc, entry]
    exact .keeps rfl (Nat.le_succ _) (List.Subset.refl _) fun _ => rfl

theorem pages_had_draw_nothing (device : Device) (pages : List Page) :
    (pages.foldl (Device.lockUserPage reserved)
      ((pages.map .pageRef).foldl Device.take device)).count = device.count ∧
    (pages.foldl (Device.lockUserPage reserved)
      ((pages.map .pageRef).foldl Device.take device)).nextSerial = device.nextSerial := by
  rw [foldl_lock_user_page, foldl_take]
  exact ⟨rfl, rfl⟩

/-- From the mapping on, `pcidriver_umem_sgmap` draws the id with the memory for the
entry. -/
theorem add_entry_ids {mapped : Device} {answers : SgmapAnswers} {nrPages : U32}
    {pages : List Page} {counted : pages.length = nrPages.toNat} {sg : List (Segments.Segment U64)}
    {empty : sg ≠ []} (effect : IdEffect device mapped) (count : mapped.count = device.count)
    (next : mapped.nextSerial = device.nextSerial + 1) :
    IdEffect device (Device.umemSgmapAddEntry answers mapped device.nextSerial nrPages pages counted
      sg empty).1 := by
  have id : mapped.umemCount = device.umemCount := congrFun count .umem
  obtain ⟨inside, made⟩ := effect.kept count
  by_cases entry : answers.kmallocEntry
  · have drawn : ∀ {after : Device},
        after.kmemCount = mapped.kmemCount → after.umemCount = mapped.umemCount + 1#32 →
        after.nextSerial = mapped.nextSerial →
        after.listed ⊆ ⟨.umem, mapped.umemCount, device.nextSerial⟩ :: mapped.listed →
        (∀ attr, attr ≠ ⟨.umem, mapped.umemCount, device.nextSerial⟩ →
          takenCount after.record (.sysfsFile attr) =
            takenCount mapped.record (.sysfsFile attr)) → IdEffect device after := by
      intro after kmem umem serial fresh others
      rw [id] at fresh others umem
      apply IdEffect.draws .umem
      · exact umem_count_drawn (kmem.trans (congrFun count .kmem)) umem
      · exact serial.trans next
      · exact List.Subset.trans fresh (List.cons_subset_cons _ inside)
      · intro attr other
        rw [others attr other, made]
    by_cases name : answers.sysfs.kstrdupName
    · by_cases file : answers.sysfs.createFile
      · simp only [Device.umemSgmapAddEntry, Device.sysfsInitialize, entry, name, file,
          not_true_eq_false, if_false]
        refine drawn rfl rfl rfl ?_ ?_
        · intro attr member
          simp only [Device.listed, Device.take, List.map_append, List.map_singleton,
            List.mem_append, List.mem_cons] at member ⊢
          tauto
        · intro attr other
          simp [Device.take, takenCount, Ne.symm other]
      · simp only [Device.umemSgmapAddEntry, Device.sysfsInitialize, entry, name, file,
          not_true_eq_false, if_false]
        apply IdEffect.unmap
        apply IdEffect.give
        apply IdEffect.give
        refine drawn rfl rfl rfl (List.subset_cons_self _ _) ?_
        intro attr other
        simp [Device.take, takenCount]
    · simp only [Device.umemSgmapAddEntry, Device.sysfsInitialize, entry, name, not_true_eq_false,
        if_false]
      apply IdEffect.unmap
      apply IdEffect.give
      apply IdEffect.give
      refine drawn rfl rfl rfl (List.subset_cons_self _ _) ?_
      intro attr other
      simp [Device.take, takenCount]
  · rw [Device.umemSgmapAddEntry, if_pos entry]
    exact (effect.give _).unmap _ _

theorem umem_sgmap_ids (reserved : Page → Bool) (answers : SgmapAnswers) (device : Device)
    (vma size : U64) : IdEffect device (Device.umemSgmap reserved answers device vma size).1 := by
  have start : IdEffect device device.drawSerial :=
    .keeps rfl (Nat.le_succ _) (List.Subset.refl _) fun _ => rfl
  have arrayNoFile : ∀ attr, Resource.pageArray device.nextSerial ≠ .sysfsFile attr := by
    intro attr same
    cases same
  have tableNoFile : ∀ attr, Resource.sgTable device.nextSerial ≠ .sysfsFile attr := by
    intro attr same
    cases same
  by_cases zero : size = 0#64
  · simp only [Device.umemSgmap, zero, if_true]
    exact start
  by_cases array : answers.vmallocPages ∧ 0 < (pageCount vma size).toInt
  · have first := start.take (.pageArray device.nextSerial) arrayNoFile
    by_cases table : answers.vmallocSg
    · have taken := (first.take (.sgTable device.nextSerial) tableNoFile).take_pages
        (answers.userPages vma size)
      have had := @pages_had_draw_nothing reserved ((device.drawSerial.take (.pageArray
        device.nextSerial)).take (.sgTable device.nextSerial)) (answers.userPages vma size)
      simp only [Device.umemSgmap, zero, if_false, array, and_self, not_true_eq_false, table]
      by_cases short : (answers.userPages vma size).length < (pageCount vma size).toNat
      · rw [dif_pos short]
        exact taken.unmap _ _
      · rw [dif_neg short]
        by_cases empty :
            (answers.kernel.pciMapSg (scatterlist vma size (answers.userPages vma size))).dma = []
        · rw [dif_pos empty]
          exact (taken.lock_pages _).unmap _ _
        · rw [dif_neg empty]
          apply add_entry_ids ((taken.lock_pages _).take _ ?_) had.1 had.2
          intro attr same
          cases same
    · simp only [Device.umemSgmap, zero, if_false, array, table]
      exact first.give _
  · simp only [Device.umemSgmap, zero, if_false, array]
    exact start

theorem umem_sgunmap_count (device : Device) (entry : UmemBuffer) :
    (Device.umemSgunmap reserved device entry).count = device.count := by
  simp only [Device.umemSgunmap, foldl_unmap_page]
  rfl

theorem IdEffect.sgunmap (effect : IdEffect before after) (entry : UmemBuffer) :
    IdEffect before (Device.umemSgunmap reserved after entry) := by
  have freed := umem_sgunmap_frees reserved after entry
  apply effect.congr (umem_sgunmap_count after entry) freed.nextSerial
  · apply listed_subset
    · rw [freed.others.kmemList]
      exact List.Subset.refl _
    · rw [freed.umemList]
      exact List.eraseP_subset
  · intro attr
    exact freed.moves.taken _

theorem IdEffect.free_entry (effect : IdEffect before after) (entry : KmemBuffer) :
    IdEffect before (after.kmemFreeEntry entry) := by
  have freed := kmem_free_entry_frees after entry
  apply effect.congr _ freed.nextSerial
  · apply listed_subset
    · rw [freed.kmemList]
      exact List.eraseP_subset
    · rw [freed.others.umemList]
      exact List.Subset.refl _
  · intro attr
    exact freed.moves.taken _
  · rfl

structure ServesIds (before after : Device) (call : IdCall) : Prop where
  effect : IdEffect before after
  quiet : call.allocations = 0 → after.count = before.count

variable {call : IdCall}

theorem ServesIds.refl (device : Device) (call : IdCall) : ServesIds device device call :=
  ⟨.refl device, fun _ => rfl⟩

theorem IdEffect.serves (effect : IdEffect before after) (one : call.allocations = 1) :
    ServesIds before after call := by
  apply ServesIds.mk effect
  intro none_
  rw [one] at none_
  cases none_

theorem IdCall.allocations_cases (call : IdCall) : call.allocations = 0 ∨ call.allocations = 1 := by
  unfold IdCall.allocations
  split
  case h_4 => exact Or.inl rfl
  all_goals exact Or.inr rfl

theorem ServesIds.allocates (serves : ServesIds before after call) {kind : EntryKind}
    (drew : after.count = Function.update before.count kind (before.count kind + 1#32)) :
    call.allocations = 1 := by
  rcases call.allocations_cases with none_ | one
  · have kept := congrFun (drew.symm.trans (serves.quiet none_)) kind
    rw [Function.update_self] at kept
    exact absurd kept (by bv_omega)
  · exact one

theorem unmap_found_ids (device : Device) (found : Option UmemBuffer) :
    ServesIds device ((found.map (Device.umemSgunmap reserved device)).getD device) call := by
  cases found with
  | none => exact .refl device call
  | some entry =>
      constructor
      · exact (IdEffect.refl device).sgunmap entry
      · exact fun _ => umem_sgunmap_count device entry

theorem free_found_ids (device : Device) (found : Option KmemBuffer) :
    ServesIds device ((found.map device.kmemFreeEntry).getD device) call := by
  cases found with
  | none => exact .refl device call
  | some entry =>
      constructor
      · exact (IdEffect.refl device).free_entry entry
      · exact fun _ => rfl

theorem sgget_state (device : Device) (list : UmemSgList) (answers : Umem.SggetOutcome) :
    ∃ record, (device.ioctlUmemSgget list answers).1 =
        { device with nextSerial := device.nextSerial + 1, record := record } ∧
      ∀ resource, resource ≠ .sgList device.nextSerial →
        takenCount record resource = takenCount device.record resource ∧
          givenCount record resource = givenCount device.record resource := by
  have others : ∀ resource, resource ≠ .sgList device.nextSerial →
      takenCount (.taken (.sgList device.nextSerial) :: device.record) resource =
          takenCount device.record resource ∧
        givenCount (.taken (.sgList device.nextSerial) :: device.record) resource =
          givenCount device.record resource := by
    intro resource other
    rw [taken_count_cons_taken, given_count_cons_taken, if_neg (Ne.symm other)]
    exact ⟨rfl, rfl⟩
  by_cases read : answers.readList
  · by_cases room : answers.vmallocSg
    · by_cases entries : answers.readEntries
      · simp only [Device.ioctlUmemSgget, read, room, entries, not_true_eq_false, if_false]
        cases Umem.umemSgget _ list with
        | error errno => exact ⟨_, rfl, others⟩
        | ok copied =>
            by_cases write : answers.writeEntries
            · simp only [write, not_true_eq_false, if_false]
              refine ⟨_, rfl, ?_⟩
              intro resource other
              rw [taken_count_cons_given, given_count_cons_given, if_neg (Ne.symm other)]
              exact others resource other
            · simp only [write]
              exact ⟨_, rfl, others⟩
      · simp only [Device.ioctlUmemSgget, read, room, entries, not_true_eq_false, if_false]
        exact ⟨_, rfl, others⟩
    · simp only [Device.ioctlUmemSgget, read, room, not_true_eq_false, if_false]
      exact ⟨_, rfl, fun _ _ => ⟨rfl, rfl⟩⟩
  · simp only [Device.ioctlUmemSgget, read]
    exact ⟨_, rfl, fun _ _ => ⟨rfl, rfl⟩⟩

theorem sgget_ids (device : Device) (list : UmemSgList) (answers : Umem.SggetOutcome) :
    ServesIds device (device.ioctlUmemSgget list answers).1 call := by
  obtain ⟨record, same, others⟩ := sgget_state device list answers
  rw [same]
  constructor
  · exact .keeps rfl (Nat.le_succ _) (List.Subset.refl _) fun attr =>
      (others (.sysfsFile attr) nofun).1
  · exact fun _ => rfl

theorem synced_ids (device : Device) (synced : List (ℕ × SyncCall)) :
    ServesIds device { device with synced := synced } call := by
  constructor
  · exact (IdEffect.refl device).congr rfl rfl (List.Subset.refl _) fun _ => rfl
  · exact fun _ => rfl

theorem ioctl_ids (reserved : Page → Bool) (device : Device) (call : Ioctl) :
    ServesIds device (Device.ioctl reserved device call).1 (.driver (.ioctl call)) := by
  cases call with
  | kmemAlloc size answers =>
      rw [Device.ioctl, ioctl_kmem_alloc_device]
      split
      · exact (kmem_alloc_ids device size answers).serves rfl
      · exact .refl device _
  | kmemFree handle readFromUser =>
      rw [Device.ioctl, ioctl_kmem_free_device]
      split
      · exact free_found_ids device _
      · exact .refl device _
  | kmemSync handle direction readFromUser =>
      obtain ⟨synced, same⟩ := ioctl_kmem_sync_device device handle direction readFromUser
      rw [Device.ioctl, same]
      exact synced_ids device synced
  | umemSgmap vma size answers =>
      rw [Device.ioctl, ioctl_umem_sgmap_device]
      split
      · exact (umem_sgmap_ids reserved answers device vma size).serves rfl
      · exact .refl device _
  | umemSgunmap handleId readFromUser =>
      rw [Device.ioctl, ioctl_umem_sgunmap_device]
      split
      · exact unmap_found_ids device _
      · exact .refl device _
  | umemSgget list answers => exact sgget_ids device list answers

theorem store_ids (reserved : Page → Bool) (device : Device) (write : SysfsWrite) :
    ServesIds device (Device.store reserved device write) (.driver (.store write)) := by
  cases write with
  | kmemAlloc size answers =>
      cases size with
      | none => exact .refl device _
      | some size => exact (kmem_alloc_ids device size answers).serves rfl
  | kmemFree id =>
      cases id with
      | none => exact .refl device _
      | some id =>
          rw [Device.store]
          split
          · exact .refl device _
          · exact free_found_ids device _
  | umemUnmap id =>
      cases id with
      | none => exact .refl device _
      | some id =>
          rw [Device.store]
          split
          · exact .refl device _
          · exact unmap_found_ids device _

theorem umem_sync_synced (device : Device) (handleId : U32) (direction : Direction)
    (readFromUser : Bool) :
    ∃ calls, (device.ioctlUmemSync handleId direction readFromUser).1 =
        { device with synced := device.synced ++ calls } ∧
      ∀ call ∈ calls, ∃ entry ∈ device.umemList, entry.id = handleId ∧ call.1 = entry.serial := by
  have nothing : ∃ calls, device = { device with synced := device.synced ++ calls } ∧
      ∀ call ∈ calls, ∃ entry ∈ device.umemList, entry.id = handleId ∧ call.1 = entry.serial :=
    ⟨[], by simp, nofun⟩
  cases readFromUser with
  | false => exact nothing
  | true =>
      cases found : device.umemFindEntryId handleId with
      | none =>
          simp only [Device.ioctlUmemSync, Device.umemSync, found, not_true_eq_false, if_false]
          exact nothing
      | some entry =>
          by_cases invalid : direction = .invalid
          · simp only [Device.ioctlUmemSync, Device.umemSync, found, invalid, not_true_eq_false,
              if_false, if_true]
            exact nothing
          · simp only [Device.ioctlUmemSync, Device.umemSync, found, invalid, not_true_eq_false,
              if_false]
            refine ⟨_, rfl, ?_⟩
            intro call member
            obtain ⟨kind, -, rfl⟩ := List.mem_map.mp member
            refine ⟨entry, List.mem_of_find?_eq_some found, ?_, rfl⟩
            simpa using List.find?_some found

theorem after_serves_ids (reserved : Page → Bool) (device : Device) (call : IdCall) :
    ServesIds device (device.afterId reserved call) call := by
  cases call with
  | driver call =>
      cases call with
      | ioctl call => exact ioctl_ids reserved device call
      | store write => exact store_ids reserved device write
      | umemSgunmap serial => exact unmap_found_ids device _
      | umemSgunmapAll =>
          have all := @umem_sgunmap_all_keeps reserved
            (fun after => IdEffect device after ∧ after.count = device.count)
            (fun after entry _ kept =>
              ⟨kept.1.sgunmap entry, (umem_sgunmap_count after entry).trans kept.2⟩)
            device ⟨.refl device, rfl⟩
          exact ⟨all.1.1, fun _ => all.1.2⟩
  | umemSync handleId direction readFromUser =>
      obtain ⟨calls, same, -⟩ := umem_sync_synced device handleId direction readFromUser
      rw [Device.afterId, same]
      exact synced_ids device _

end Effects

/-- Every id handed out is below its counter and was handed out once, to one call; an entry
or a file has an id that was handed out to its call. -/
structure IdBooks (state : NumberedEntries) : Prop where
  counted : ∀ kind, (state.device.count kind).toNat ≤ state.allocations
  below : ∀ attr ∈ state.handed, attr.id.toNat < (state.device.count attr.kind).toNat ∧
    attr.serial < state.device.nextSerial
  ids : ∀ first ∈ state.handed, ∀ second ∈ state.handed, first.kind = second.kind →
    first.id = second.id → first = second
  serials : ∀ first ∈ state.handed, ∀ second ∈ state.handed, first.serial = second.serial →
    first = second
  listed : ∀ attr ∈ state.device.listed, attr ∈ state.handed
  files : ∀ attr, 0 < takenCount state.device.record (.sysfsFile attr) → attr ∈ state.handed

section Runs

variable {reserved : Page → Bool} {state after : NumberedEntries} {call : IdCall}

theorem id_step (step : (idSystem reserved).step state call = some after) :
    after = ⟨state.device.afterId reserved call, state.allocations + call.allocations,
      Device.drawn state.device (state.device.afterId reserved call) ++ state.handed⟩ := by
  cases call with
  | driver call =>
      obtain ⟨device, served, rfl⟩ := Option.map_eq_some_iff.mp step
      obtain ⟨-, rfl⟩ := step_device served
      rfl
  | umemSync handleId direction readFromUser => exact (Option.some.inj step).symm

theorem drawn_nothing {before after : Device} (count : after.count = before.count) :
    Device.drawn before after = [] := by
  simp [Device.drawn, count]

theorem drawn_one {before after : Device} (kind : EntryKind)
    (count : after.count = Function.update before.count kind (before.count kind + 1#32)) :
    Device.drawn before after = [⟨kind, before.count kind, before.nextSerial⟩] := by
  have moved : ∀ id : U32, id + 1#32 ≠ id := by
    intro id
    bv_omega
  cases kind <;> simp [Device.drawn, count, moved]

theorem IdBooks.keeps (books : IdBooks state) {after : Device} (more : ℕ)
    (count : after.count = state.device.count) (next : state.device.nextSerial ≤ after.nextSerial)
    (listed : after.listed ⊆ state.device.listed)
    (files : ∀ attr, takenCount after.record (.sysfsFile attr) =
      takenCount state.device.record (.sysfsFile attr)) :
    IdBooks ⟨after, state.allocations + more, state.handed⟩ := by
  constructor
  · intro kind
    rw [count]
    exact (books.counted kind).trans (Nat.le_add_right _ _)
  · intro attr member
    rw [count]
    exact ⟨(books.below attr member).1, (books.below attr member).2.trans_le next⟩
  · exact books.ids
  · exact books.serials
  · exact fun attr member => books.listed attr (listed member)
  · intro attr taken
    rw [files] at taken
    exact books.files attr taken

theorem IdBooks.draws (books : IdBooks state) {after : Device} (kind : EntryKind)
    (few : state.allocations + 1 < 2 ^ 31)
    (count : after.count =
      Function.update state.device.count kind (state.device.count kind + 1#32))
    (next : after.nextSerial = state.device.nextSerial + 1)
    (listed : after.listed ⊆
      ⟨kind, state.device.count kind, state.device.nextSerial⟩ :: state.device.listed)
    (files : ∀ attr, attr ≠ ⟨kind, state.device.count kind, state.device.nextSerial⟩ →
      takenCount after.record (.sysfsFile attr) =
        takenCount state.device.record (.sysfsFile attr)) :
    IdBooks ⟨after, state.allocations + 1,
      ⟨kind, state.device.count kind, state.device.nextSerial⟩ :: state.handed⟩ := by
  have before := books.counted kind
  have higher : (state.device.count kind + 1#32).toNat = (state.device.count kind).toNat + 1 := by
    rw [BitVec.toNat_add]
    exact Nat.mod_eq_of_lt (by simp only [BitVec.toNat_ofNat]; omega)
  have grows : ∀ other, (state.device.count other).toNat ≤ (after.count other).toNat := by
    intro other
    rw [count]
    by_cases here : other = kind
    · rw [here, Function.update_self, higher]
      exact Nat.le_succ _
    · rw [Function.update_of_ne here]
  have newId : ∀ attr ∈ state.handed,
      ¬(attr.kind = kind ∧ attr.id = state.device.count kind) := by
    intro attr member both
    rcases both with ⟨same, equal⟩
    have less := (books.below attr member).1
    rw [same, equal] at less
    exact lt_irrefl _ less
  constructor
  · intro other
    rw [count]
    by_cases here : other = kind
    · rw [here, Function.update_self, higher]
      exact Nat.succ_le_succ before
    · rw [Function.update_of_ne here]
      exact (books.counted other).trans (Nat.le_succ _)
  · intro attr member
    rcases List.mem_cons.mp member with rfl | earlier
    · show (state.device.count kind).toNat < (after.count kind).toNat ∧
        state.device.nextSerial < after.nextSerial
      rw [count, Function.update_self, higher, next]
      exact ⟨Nat.lt_succ_self _, Nat.lt_succ_self _⟩
    · obtain ⟨id, serial⟩ := books.below attr earlier
      exact ⟨id.trans_le (grows _), serial.trans_le (next.ge.trans' (Nat.le_succ _))⟩
  · intro first firstIn second secondIn sameKind sameId
    have one := @one_of_alike_cons EntryAttribute state.handed
      (fun left right => left.kind = right.kind ∧ left.id = right.id)
      (fun same => ⟨same.1.symm, same.2.symm⟩)
      ⟨kind, state.device.count kind, state.device.nextSerial⟩ newId
      (fun first firstOld second secondOld same =>
        books.ids first firstOld second secondOld same.1 same.2)
    exact one first firstIn second secondIn ⟨sameKind, sameId⟩
  · exact one_of_alike_cons (fun same => same.symm)
      (fun other old same => (books.below other old).2.ne same) books.serials
  · intro attr member
    rcases List.mem_cons.mp (listed member) with rfl | earlier
    · exact List.mem_cons_self
    · exact List.mem_cons_of_mem _ (books.listed attr earlier)
  · intro attr taken
    by_cases new : attr = ⟨kind, state.device.count kind, state.device.nextSerial⟩
    · rw [new]
      exact List.mem_cons_self
    · rw [files attr new] at taken
      exact List.mem_cons_of_mem _ (books.files attr taken)

theorem IdBooks.step (books : IdBooks state) (few : after.allocations < 2 ^ 31)
    (step : (idSystem reserved).step state call = some after) : IdBooks after := by
  have is := id_step step
  subst is
  have serves := after_serves_ids reserved state.device call
  cases serves.effect with
  | keeps count next listed files =>
      rw [drawn_nothing count]
      exact books.keeps _ count next listed files
  | draws kind count next listed files =>
      have one := serves.allocates count
      rw [drawn_one kind count, one]
      rw [one] at few
      exact books.draws kind few count next listed files

theorem IdBooks.of_initial (initial : (idSystem reserved).initial state) : IdBooks state := by
  obtain ⟨new, zero, -, none_⟩ := initial
  constructor
  · intro kind
    rw [zero]
    exact Nat.zero_le _
  · simp [none_]
  · simp [none_]
  · simp [none_]
  · intro attr member
    simp [Device.listed, new.kmemList, new.umemList] at member
  · intro attr taken
    rw [new.untaken _ rfl] at taken
    exact absurd taken (lt_irrefl 0)

theorem reachable_id_books (reached : (idSystem reserved).Reachable state)
    (few : state.allocations < 2 ^ 31) : IdBooks state := by
  induction reached with
  | start initial => exact .of_initial initial
  | next _ _ step ih =>
      have is := id_step step
      apply (ih _).step few step
      rw [is] at few
      exact (Nat.le_add_right _ _).trans_lt few

theorem reachable_id_resources (reached : (idSystem reserved).Reachable state) :
    ∃ leaked, Books state.device leaked := by
  induction reached with
  | start initial => exact ⟨[], Books.of_new initial.1⟩
  | @next state after call _ _ step ih =>
      obtain ⟨leaked, books⟩ := ih
      rw [id_step step]
      cases call with
      | driver call => exact ⟨_, books.after call⟩
      | umemSync handleId direction readFromUser =>
          obtain ⟨calls, same, -⟩ :=
            umem_sync_synced state.device handleId direction readFromUser
          refine ⟨[] ++ leaked, DeviceEffect.books ?_ books⟩
          rw [Device.afterId, same]
          exact .kept rfl rfl rfl rfl rfl rfl

end Runs

end FpgaPcie.Driver.Resources
