import FpgaPcie.Driver.CallEffects

/-!
# The books of a device over runs

Whatever the order of calls, what is held is what the live entries stand for and what
earlier failing calls left behind. Every allocation has a number of its own, so each is
taken once.
-/

namespace FpgaPcie.Driver.Resources

open FpgaPcie.Holdings
open FpgaPcie.Keyed
open FpgaPcie.Transition
open FpgaPcie.Driver.Umem (Page Errno pageCount)

set_option autoImplicit false

namespace Resource

def serial : Resource → Option ℕ
  | .entryStruct serial | .dmaMemory serial | .pageArray serial | .sgTable serial
  | .sgMapping serial _ | .sgList serial => some serial
  | .sysfsName attr | .sysfsFile attr => some attr.serial
  | _ => none

end Resource

/-- The resources are of the call with this number, none of the numbered ones is there
twice. -/
structure Named (serial : ℕ) (holds : List Resource) : Prop where
  ofCall : ∀ resource ∈ holds, resource.ofCall
  own : ∀ resource ∈ holds, ∀ number, resource.serial = some number → number = serial
  nodup : (holds.filter fun resource => resource.serial.isSome).Nodup

theorem Named.suffix {serial : ℕ} {holds acquired : List Resource} (named : Named serial holds)
    (part : acquired <:+ holds) : Named serial acquired where
  ofCall resource member := named.ofCall resource (part.subset member)
  own resource member := named.own resource (part.subset member)
  nodup := named.nodup.sublist (part.sublist.filter _)

theorem Named.count_le {serial number : ℕ} {holds : List Resource} (named : Named serial holds)
    {resource : Resource} (numbered : resource.serial = some number) :
    holds.count resource ≤ if number = serial then 1 else 0 := by
  by_cases own : number = serial
  · rw [if_pos own]
    have kept := List.nodup_iff_count_le_one.mp named.nodup resource
    rwa [List.count_filter (by simp [numbered])] at kept
  · have absent : resource ∉ holds := fun member => own (named.own resource member number numbered)
    rw [if_neg own, List.count_eq_zero_of_not_mem absent]

theorem kmem_holds_named (serial : ℕ) (id : U32) : Named serial (kmemHolds serial id) where
  ofCall resource member := by
    simp only [kmemHolds, List.mem_cons, List.not_mem_nil, or_false] at member
    rcases member with rfl | rfl | rfl | rfl <;> rfl
  own resource member number numbered := by
    simp only [kmemHolds, List.mem_cons, List.not_mem_nil, or_false] at member
    rcases member with rfl | rfl | rfl | rfl <;> exact (Option.some.inj numbered).symm
  nodup := by simp [kmemHolds, Resource.serial]

theorem mem_umem_holds {serial : ℕ} {id nrPages : U32} {pages : List Page} {resource : Resource} :
    resource ∈ umemHolds serial id nrPages pages ↔
      resource ∈ [.sysfsFile ⟨.umem, id, serial⟩, .sysfsName ⟨.umem, id, serial⟩,
        .entryStruct serial, .sgMapping serial nrPages, .sgTable serial, .pageArray serial] ∨
      ∃ page ∈ pages, resource = .pageRef page := by
  simp only [umemHolds, List.mem_cons, List.mem_append, List.mem_map, List.not_mem_nil, or_false,
    eq_comm]
  grind

theorem umem_holds_named (serial : ℕ) (id nrPages : U32) (pages : List Page) :
    Named serial (umemHolds serial id nrPages pages) where
  ofCall resource member := by
    rcases mem_umem_holds.mp member with fixed | ⟨page, -, rfl⟩
    · simp only [List.mem_cons, List.not_mem_nil, or_false] at fixed
      rcases fixed with rfl | rfl | rfl | rfl | rfl | rfl <;> rfl
    · rfl
  own resource member number numbered := by
    rcases mem_umem_holds.mp member with fixed | ⟨page, -, rfl⟩
    · simp only [List.mem_cons, List.not_mem_nil, or_false] at fixed
      rcases fixed with rfl | rfl | rfl | rfl | rfl | rfl <;>
        exact (Option.some.inj numbered).symm
    · cases numbered
  nodup := by
    have none_ : (pages.map Resource.pageRef).filter (fun resource => resource.serial.isSome) = [] := by
      simp [Resource.serial]
    rw [umemHolds]
    simp only [List.filter_cons, List.filter_append, none_]
    simp [Resource.serial]

theorem sg_list_named (serial : ℕ) : Named serial [.sgList serial] where
  ofCall resource member := by
    rw [List.mem_singleton] at member
    exact member ▸ rfl
  own resource member number numbered := by
    rw [List.mem_singleton] at member
    subst member
    exact (Option.some.inj numbered).symm
  nodup := by simp [Resource.serial]

inductive DeviceEffect (before after : Device) : List Resource → Prop where
  | kept (kmemList : after.kmemList = before.kmemList) (umemList : after.umemList = before.umemList)
      (barsKmapped : after.barsKmapped = before.barsKmapped)
      (irqEnabled : after.irqEnabled = before.irqEnabled)
      (nextSerial : after.nextSerial = before.nextSerial) (record : after.record = before.record) :
      DeviceEffect before after []
  | attempt {holds leaked : List Resource} (named : Named before.nextSerial holds)
      (attempt : Attempt before after holds leaked) : DeviceEffect before after leaked
  | kmemAdded (entry : KmemBuffer) (kmemList : after.kmemList = before.kmemList ++ [entry])
      (others : Kept { before with kmemList := after.kmemList } after)
      (serial : entry.serial = before.nextSerial) (nextSerial : after.nextSerial = before.nextSerial + 1)
      (moves : Moves before.record after.record entry.holds []) : DeviceEffect before after []
  | umemAdded (entry : UmemBuffer) (umemList : after.umemList = before.umemList ++ [entry])
      (others : Kept { before with umemList := after.umemList } after)
      (serial : entry.serial = before.nextSerial) (nextSerial : after.nextSerial = before.nextSerial + 1)
      (moves : Moves before.record after.record entry.holds []) : DeviceEffect before after []
  | kmemFreed (entry : KmemBuffer) (member : entry ∈ before.kmemList)
      (freed : KmemFreed entry before after) : DeviceEffect before after []
  | umemFreed (reserved : Page → Bool) (entry : UmemBuffer) (member : entry ∈ before.umemList)
      (freed : UmemFreed reserved entry before after) : DeviceEffect before after []

def Device.owned (device : Device) : List Resource :=
  device.kmemList.flatMap KmemBuffer.holds ++ device.umemList.flatMap UmemBuffer.holds

structure Books (device : Device) (leaked : List Resource) : Prop where
  kmemDistinct : Distinct KmemBuffer.serial device.kmemList
  umemDistinct : Distinct UmemBuffer.serial device.umemList
  kmemBelow : ∀ entry ∈ device.kmemList, entry.serial < device.nextSerial
  umemBelow : ∀ entry ∈ device.umemList, entry.serial < device.nextSerial
  once : ∀ resource number, resource.serial = some number →
    takenCount device.record resource ≤ if number < device.nextSerial then 1 else 0
  accounts : Accounts (fun resource => resource.ofCall) device.record (device.owned ++ leaked)

section Books

variable {before after : Device} {leaked leaks : List Resource}

theorem once_after {holds acquired released : List Resource} (books : Books before leaked)
    (named : Named before.nextSerial holds) (part : acquired <:+ holds)
    (serial : after.nextSerial = before.nextSerial + 1)
    (moves : Moves before.record after.record acquired released) (resource : Resource)
    (number : ℕ) (numbered : resource.serial = some number) :
    takenCount after.record resource ≤ if number < after.nextSerial then 1 else 0 := by
  have earlier := books.once resource number numbered
  have now := (named.suffix part).count_le numbered
  rw [moves.taken, serial]
  split_ifs at earlier now ⊢ <;> omega

theorem owned_congr (kmemList : after.kmemList = before.kmemList)
    (umemList : after.umemList = before.umemList) : after.owned = before.owned := by
  rw [Device.owned, Device.owned, kmemList, umemList]

theorem below_after {Entry : Type*} {serial : Entry → ℕ} {list : List Entry}
    (below : ∀ entry ∈ list, serial entry < before.nextSerial)
    (next : after.nextSerial = before.nextSerial + 1) :
    ∀ entry ∈ list, serial entry < after.nextSerial := by
  intro entry member
  have earlier := below entry member
  omega

theorem below_added {Entry : Type*} {serial : Entry → ℕ} {list : List Entry} {added : Entry}
    (below : ∀ entry ∈ list, serial entry < before.nextSerial)
    (drawn : serial added = before.nextSerial) (next : after.nextSerial = before.nextSerial + 1) :
    ∀ entry ∈ list ++ [added], serial entry < after.nextSerial := by
  intro entry member
  rcases List.mem_append.mp member with earlier | last
  · exact below_after below next entry earlier
  · rw [List.mem_singleton] at last
    rw [last, drawn, next]
    omega

theorem distinct_added {Entry : Type*} {serial : Entry → ℕ} {list : List Entry} {added : Entry}
    (distinct : Distinct serial list) (below : ∀ entry ∈ list, serial entry < before.nextSerial)
    (drawn : serial added = before.nextSerial) : Distinct serial (list ++ [added]) := by
  apply distinct.append_fresh
  intro other member same
  have earlier := below other member
  omega

-- What is owned gains or loses what one entry stands for.

theorem kmem_added_owned {entry : KmemBuffer} (kmemList : after.kmemList = before.kmemList ++ [entry])
    (umemList : after.umemList = before.umemList) :
    after.owned.Perm (entry.holds ++ before.owned) := by
  rw [Device.owned, Device.owned, kmemList, umemList, List.flatMap_append, List.flatMap_singleton,
    ← List.append_assoc]
  exact List.perm_append_comm.append_right _

theorem umem_added_owned {entry : UmemBuffer} (kmemList : after.kmemList = before.kmemList)
    (umemList : after.umemList = before.umemList ++ [entry]) :
    after.owned.Perm (entry.holds ++ before.owned) := by
  rw [Device.owned, Device.owned, kmemList, umemList, List.flatMap_append, List.flatMap_singleton,
    ← List.append_assoc]
  exact List.perm_append_comm

theorem kmem_freed_owned {entry : KmemBuffer} (distinct : Distinct KmemBuffer.serial before.kmemList)
    (member : entry ∈ before.kmemList)
    (kmemList : after.kmemList = before.kmemList.eraseP fun other => other.serial = entry.serial)
    (umemList : after.umemList = before.umemList) :
    before.owned.Perm (entry.holds ++ after.owned) := by
  have split := (distinct.perm_erase member).flatMap_right KmemBuffer.holds
  rw [List.flatMap_cons, ← kmemList] at split
  rw [Device.owned, Device.owned, umemList, ← List.append_assoc]
  exact split.append_right _

theorem umem_freed_owned {entry : UmemBuffer} (distinct : Distinct UmemBuffer.serial before.umemList)
    (member : entry ∈ before.umemList) (kmemList : after.kmemList = before.kmemList)
    (umemList : after.umemList = before.umemList.eraseP fun other => other.serial = entry.serial) :
    before.owned.Perm (entry.holds ++ after.owned) := by
  have split := (distinct.perm_erase member).flatMap_right UmemBuffer.holds
  rw [List.flatMap_cons, ← umemList] at split
  rw [Device.owned, Device.owned, kmemList]
  exact (split.append_left _).trans (List.perm_append_comm_assoc _ _ _)

section Accounts

variable {holds : List Resource}

theorem Books.accounts_gain (books : Books before leaked)
    (moves : Moves before.record after.record holds [])
    (gain : after.owned.Perm (holds ++ before.owned)) :
    Accounts (fun resource => resource.ofCall) after.record (after.owned ++ ([] ++ leaked)) := by
  apply books.accounts.moves moves
  rw [List.nil_append, List.nil_append, ← List.append_assoc]
  exact (gain.append_right leaked).symm

theorem Books.accounts_lose (books : Books before leaked)
    (moves : Moves before.record after.record [] holds)
    (lose : before.owned.Perm (holds ++ after.owned)) :
    Accounts (fun resource => resource.ofCall) after.record (after.owned ++ ([] ++ leaked)) := by
  apply books.accounts.moves moves
  rw [List.nil_append, List.nil_append, ← List.append_assoc]
  exact lose.append_right leaked

theorem Books.once_freed (books : Books before leaked)
    (moves : Moves before.record after.record [] holds)
    (nextSerial : after.nextSerial = before.nextSerial) (resource : Resource) (number : ℕ)
    (numbered : resource.serial = some number) :
    takenCount after.record resource ≤ if number < after.nextSerial then 1 else 0 := by
  rw [moves.taken, nextSerial, List.count_nil, Nat.add_zero]
  exact books.once resource number numbered

end Accounts

theorem Attempt.books {holds : List Resource} (attempt : Attempt before after holds leaks)
    (named : Named before.nextSerial holds) (books : Books before leaked) :
    Books after (leaks ++ leaked) := by
  obtain ⟨kept, serial, acquired, released, part, same, moves⟩ := attempt
  constructor
  · rw [kept.kmemList]
    exact books.kmemDistinct
  · rw [kept.umemList]
    exact books.umemDistinct
  · rw [kept.kmemList]
    exact below_after books.kmemBelow serial
  · rw [kept.umemList]
    exact below_after books.umemBelow serial
  · exact once_after books named part serial moves
  · apply books.accounts.moves moves
    rw [owned_congr kept.kmemList kept.umemList, List.perm_iff_count]
    intro resource
    have balance := same.count_eq resource
    simp only [List.count_append] at balance ⊢
    omega

theorem DeviceEffect.books (effect : DeviceEffect before after leaks) (books : Books before leaked) :
    Books after (leaks ++ leaked) := by
  cases effect with
  | kept kmemList umemList barsKmapped irqEnabled nextSerial record =>
      have ⟨kmemDistinct, umemDistinct, kmemBelow, umemBelow, once, accounts⟩ := books
      rw [List.nil_append]
      constructor
      · rwa [kmemList]
      · rwa [umemList]
      · rwa [kmemList, nextSerial]
      · rwa [umemList, nextSerial]
      · rwa [record, nextSerial]
      · rwa [record, owned_congr kmemList umemList]
  | attempt named attempt => exact attempt.books named books
  | kmemAdded entry kmemList others serial nextSerial moves =>
      have umemList : after.umemList = before.umemList := others.umemList
      have named : Named before.nextSerial entry.holds := serial ▸ kmem_holds_named _ _
      constructor
      · rw [kmemList]
        exact distinct_added books.kmemDistinct books.kmemBelow serial
      · rw [umemList]
        exact books.umemDistinct
      · rw [kmemList]
        exact below_added books.kmemBelow serial nextSerial
      · rw [umemList]
        exact below_after books.umemBelow nextSerial
      · exact once_after books named List.suffix_rfl nextSerial moves
      · exact books.accounts_gain moves (kmem_added_owned kmemList umemList)
  | umemAdded entry umemList others serial nextSerial moves =>
      have kmemList : after.kmemList = before.kmemList := others.kmemList
      have named : Named before.nextSerial entry.holds := serial ▸ umem_holds_named _ _ _ _
      constructor
      · rw [kmemList]
        exact books.kmemDistinct
      · rw [umemList]
        exact distinct_added books.umemDistinct books.umemBelow serial
      · rw [kmemList]
        exact below_after books.kmemBelow nextSerial
      · rw [umemList]
        exact below_added books.umemBelow serial nextSerial
      · exact once_after books named List.suffix_rfl nextSerial moves
      · exact books.accounts_gain moves (umem_added_owned kmemList umemList)
  | kmemFreed entry member freed =>
      obtain ⟨kmemList, others, nextSerial, moves, -⟩ := freed
      have umemList : after.umemList = before.umemList := others.umemList
      constructor
      · rw [kmemList]
        exact books.kmemDistinct.erase _
      · rw [umemList]
        exact books.umemDistinct
      · rw [kmemList, nextSerial]
        exact fun other inside => books.kmemBelow other (List.mem_of_mem_eraseP inside)
      · rw [umemList, nextSerial]
        exact books.umemBelow
      · exact books.once_freed moves nextSerial
      · exact books.accounts_lose moves
          (kmem_freed_owned books.kmemDistinct member kmemList umemList)
  | umemFreed reserved entry member freed =>
      obtain ⟨umemList, others, nextSerial, moves, -⟩ := freed
      have kmemList : after.kmemList = before.kmemList := others.kmemList
      constructor
      · rw [kmemList]
        exact books.kmemDistinct
      · rw [umemList]
        exact books.umemDistinct.erase _
      · rw [kmemList, nextSerial]
        exact books.kmemBelow
      · rw [umemList, nextSerial]
        exact fun other inside => books.umemBelow other (List.mem_of_mem_eraseP inside)
      · exact books.once_freed moves nextSerial
      · exact books.accounts_lose moves
          (umem_freed_owned books.umemDistinct member kmemList umemList)

end Books

def Device.ioctlLeaks (device : Device) : Ioctl → List Resource
  | .kmemAlloc _ answers => if answers.readFromUser then device.kmemLeaks answers else []
  | .umemSgmap vma size answers =>
      if answers.readFromUser then device.umemLeaks answers vma size else []
  | .umemSgget list answers => device.sggetLeaks list answers
  | _ => []

def Device.leaks (device : Device) : DriverCall → List Resource
  | .ioctl call => device.ioctlLeaks call
  | .store (.kmemAlloc (some _) answers) => device.kmemLeaks answers
  | _ => []

/-- What can be left behind: names and files of entries, and the copy of a user's list. -/
def Resource.isName : Resource → Bool
  | .sysfsName _ | .sysfsFile _ | .sgList _ => true
  | _ => false

section Calls

variable {reserved : Page → Bool}

theorem kmem_leaks_names (device : Device) (answers : KmemAnswers) :
    ∀ resource ∈ device.kmemLeaks answers, resource.isName := by
  rw [Device.kmemLeaks]
  split_ifs <;> simp [Resource.isName]

theorem umem_leaks_names (device : Device) (answers : SgmapAnswers) (vma size : U64) :
    ∀ resource ∈ device.umemLeaks answers vma size, resource.isName := by
  rw [Device.umemLeaks]
  split_ifs <;> simp [Resource.isName]

theorem sgget_leaks_names (device : Device) (list : Umem.UmemSgList)
    (answers : Umem.SggetOutcome) :
    ∀ resource ∈ device.sggetLeaks list answers, resource.isName := by
  rw [Device.sggetLeaks]
  split_ifs <;> simp [Resource.isName]

theorem leaks_names (device : Device) (call : DriverCall) :
    ∀ resource ∈ device.leaks call, resource.isName := by
  cases call with
  | ioctl call =>
      cases call with
      | kmemAlloc size answers =>
          rw [Device.leaks, Device.ioctlLeaks]
          split_ifs
          · exact kmem_leaks_names device answers
          · exact nofun
      | umemSgmap vma size answers =>
          rw [Device.leaks, Device.ioctlLeaks]
          split_ifs
          · exact umem_leaks_names device answers vma size
          · exact nofun
      | umemSgget list answers => exact sgget_leaks_names device list answers
      | _ => exact nofun
  | store write =>
      cases write with
      | kmemAlloc size answers =>
          cases size with
          | none => exact nofun
          | some size => exact kmem_leaks_names device answers
      | _ => exact nofun
  | umemSgunmap serial => exact nofun
  | umemSgunmapAll => exact nofun

theorem DeviceEffect.refl (device : Device) : DeviceEffect device device [] :=
  .kept rfl rfl rfl rfl rfl rfl

theorem kmem_alloc_device_effect (device : Device) (size : U64) (answers : KmemAnswers) :
    DeviceEffect device (device.kmemAlloc size answers).1 (device.kmemLeaks answers) := by
  cases allocated : device.kmemAlloc size answers with
  | mk after result =>
      have effect := kmem_alloc_effect device size answers
      rw [allocated] at effect
      cases effect with
      | fails short attempt locked => exact .attempt (kmem_holds_named _ _) attempt
      | allocates full memory kmemList others serial moves locked =>
          have clean : device.kmemLeaks answers = [] := by
            simp [Device.kmemLeaks, full, memory]
          rw [clean]
          exact .kmemAdded _ kmemList others rfl serial moves

theorem umem_sgmap_device_effect (answers : SgmapAnswers) (device : Device) (vma size : U64) :
    DeviceEffect device (Device.umemSgmap reserved answers device vma size).1
      (device.umemLeaks answers vma size) := by
  cases mapped : Device.umemSgmap reserved answers device vma size with
  | mk after result =>
      have effect := umem_sgmap_effect reserved answers device vma size
      rw [mapped] at effect
      cases effect with
      | fails short attempt locked => exact .attempt (umem_holds_named _ _ _ _) attempt
      | maps full pages serial umemList others nextSerial moves locked =>
          have clean : device.umemLeaks answers vma size = [] := by
            simp [Device.umemLeaks, full]
          rw [clean]
          exact .umemAdded _ umemList others serial nextSerial moves

theorem free_found_effect (device : Device) {found : Option KmemBuffer}
    (listed : ∀ entry ∈ found, entry ∈ device.kmemList) :
    DeviceEffect device ((found.map device.kmemFreeEntry).getD device) [] := by
  cases found with
  | none => exact .refl device
  | some entry => exact .kmemFreed entry (listed entry rfl) (kmem_free_entry_frees device entry)

theorem unmap_found_effect (reserved : Page → Bool) (device : Device) {found : Option UmemBuffer}
    (listed : ∀ entry ∈ found, entry ∈ device.umemList) :
    DeviceEffect device ((found.map (Device.umemSgunmap reserved device)).getD device) [] := by
  cases found with
  | none => exact .refl device
  | some entry =>
      exact .umemFreed reserved entry (listed entry rfl) (umem_sgunmap_frees reserved device entry)

theorem ioctl_effect (reserved : Page → Bool) (device : Device) (call : Ioctl) :
    DeviceEffect device (Device.ioctl reserved device call).1 (device.ioctlLeaks call) := by
  cases call with
  | kmemAlloc size answers =>
      rw [Device.ioctl, ioctl_kmem_alloc_device, Device.ioctlLeaks]
      by_cases read : answers.readFromUser
      · rw [if_pos read, if_pos read]
        exact kmem_alloc_device_effect device size answers
      · rw [if_neg read, if_neg read]
        exact .refl device
  | kmemFree handle readFromUser =>
      rw [Device.ioctl, ioctl_kmem_free_device]
      split
      · exact free_found_effect device fun entry => List.mem_of_find?_eq_some
      · exact .refl device
  | kmemSync handle direction readFromUser =>
      obtain ⟨synced, same⟩ := ioctl_kmem_sync_device device handle direction readFromUser
      rw [Device.ioctl, same]
      exact .kept rfl rfl rfl rfl rfl rfl
  | umemSgmap vma size answers =>
      rw [Device.ioctl, ioctl_umem_sgmap_device, Device.ioctlLeaks]
      by_cases read : answers.readFromUser
      · rw [if_pos read, if_pos read]
        exact umem_sgmap_device_effect answers device vma size
      · rw [if_neg read, if_neg read]
        exact .refl device
  | umemSgunmap handleId readFromUser =>
      rw [Device.ioctl, ioctl_umem_sgunmap_device]
      split
      · exact unmap_found_effect reserved device fun entry => List.mem_of_find?_eq_some
      · exact .refl device
  | umemSgget list answers =>
      exact .attempt (sg_list_named _) (umem_sgget_attempt device list answers).1

theorem store_effect (reserved : Page → Bool) (device : Device) (write : SysfsWrite) :
    DeviceEffect device (Device.store reserved device write) (device.leaks (.store write)) := by
  cases write with
  | kmemAlloc size answers =>
      cases size with
      | none => exact .refl device
      | some size => exact kmem_alloc_device_effect device size answers
  | kmemFree id =>
      cases id with
      | none => exact .refl device
      | some id =>
          rw [Device.store]
          split
          · exact .refl device
          · exact free_found_effect device fun entry => List.mem_of_find?_eq_some
  | umemUnmap id =>
      cases id with
      | none => exact .refl device
      | some id =>
          rw [Device.store]
          split
          · exact .refl device
          · exact unmap_found_effect reserved device fun entry => List.mem_of_find?_eq_some

/-- What every freeing of a live entry keeps, `pcidriver_umem_sgunmap_all` keeps. The loop
finds each entry at the head of what is left of the list. -/
theorem umem_sgunmap_all_keeps {Keeps : Device → Prop}
    (step : ∀ device entry, entry ∈ device.umemList → Keeps device →
      Keeps (Device.umemSgunmap reserved device entry))
    (device : Device) (start : Keeps device) :
    Keeps (Device.umemSgunmapAll reserved device) ∧
      (Device.umemSgunmapAll reserved device).umemList = [] := by
  suffices loop : ∀ entries device, device.umemList = entries → Keeps device →
      Keeps (entries.foldl (Device.umemSgunmap reserved) device) ∧
        (entries.foldl (Device.umemSgunmap reserved) device).umemList = [] from
    loop _ device rfl start
  intro entries
  induction entries with
  | nil => exact fun device empty keeps => ⟨keeps, empty⟩
  | cons entry rest ih =>
      intro device list keeps
      have freed := umem_sgunmap_frees reserved device entry
      have left : (Device.umemSgunmap reserved device entry).umemList = rest := by
        rw [freed.umemList, list, List.eraseP_cons_of_pos (by simp)]
      exact ih _ left (step device entry (list ▸ List.mem_cons_self) keeps)

theorem kmem_free_all_keeps {Keeps : Device → Prop}
    (step : ∀ device entry, entry ∈ device.kmemList → Keeps device →
      Keeps (device.kmemFreeEntry entry))
    (device : Device) (start : Keeps device) :
    Keeps device.kmemFreeAll ∧ device.kmemFreeAll.kmemList = [] := by
  suffices loop : ∀ entries device, device.kmemList = entries → Keeps device →
      Keeps (entries.foldl Device.kmemFreeEntry device) ∧
        (entries.foldl Device.kmemFreeEntry device).kmemList = [] from
    loop _ device rfl start
  intro entries
  induction entries with
  | nil => exact fun device empty keeps => ⟨keeps, empty⟩
  | cons entry rest ih =>
      intro device list keeps
      have freed := kmem_free_entry_frees device entry
      have left : (device.kmemFreeEntry entry).kmemList = rest := by
        rw [freed.kmemList, list, List.eraseP_cons_of_pos (by simp)]
      exact ih _ left (step device entry (list ▸ List.mem_cons_self) keeps)

end Calls

section Runs

variable {reserved : Page → Bool} {device : Device} {leaked : List Resource}

theorem Books.of_new (new : device.New) : Books device [] where
  kmemDistinct := by
    rw [new.kmemList]
    exact List.nodup_nil
  umemDistinct := by
    rw [new.umemList]
    exact List.nodup_nil
  kmemBelow := by simp [new.kmemList]
  umemBelow := by simp [new.umemList]
  once resource number numbered := by
    have ofCall : resource.ofCall := by cases resource <;> first | rfl | cases numbered
    simp [new.untaken resource ofCall]
  accounts resource ofCall := by
    simp [new.untaken resource ofCall, new.ungiven resource ofCall, Device.owned, new.kmemList,
      new.umemList]

theorem after_keeps {Keeps : Device → List Resource → Prop}
    (step : ∀ {before after : Device} {leaks leaked : List Resource},
      DeviceEffect before after leaks → Keeps before leaked → Keeps after (leaks ++ leaked))
    (start : Keeps device leaked) (call : DriverCall) :
    Keeps (device.after reserved call) (device.leaks call ++ leaked) := by
  cases call with
  | ioctl call => exact step (ioctl_effect reserved device call) start
  | store write => exact step (store_effect reserved device write) start
  | umemSgunmap serial =>
      exact step (unmap_found_effect reserved device fun entry => List.mem_of_find?_eq_some) start
  | umemSgunmapAll =>
      refine (@umem_sgunmap_all_keeps reserved (fun device => Keeps device leaked) ?_ device start).1
      intro device entry member keeps
      exact step (.umemFreed reserved entry member (umem_sgunmap_frees reserved device entry)) keeps

theorem Books.after (books : Books device leaked) (call : DriverCall) :
    Books (device.after reserved call) (device.leaks call ++ leaked) :=
  after_keeps (fun effect books => effect.books books) books call

theorem step_device {after : Device} {call : DriverCall}
    (step : (deviceSystem reserved).step device call = some after) :
    device.Possible call ∧ device.after reserved call = after := by
  simp only [deviceSystem, Option.ite_none_right_eq_some, Option.some.injEq] at step
  exact step

theorem reachable_books (reached : (deviceSystem reserved).Reachable device) :
    ∃ leaked, Books device leaked ∧ ∀ resource ∈ leaked, resource.isName := by
  apply System.invariant _ _ reached
  · exact fun device new => ⟨[], Books.of_new new, nofun⟩
  · intro device call after present step
    rcases present with ⟨leaked, books, names⟩
    obtain ⟨-, rfl⟩ := step_device step
    refine ⟨_, books.after call, ?_⟩
    intro resource member
    rcases List.mem_append.mp member with fresh | earlier
    · exact leaks_names device call resource fresh
    · exact names resource earlier

end Runs

end FpgaPcie.Driver.Resources
