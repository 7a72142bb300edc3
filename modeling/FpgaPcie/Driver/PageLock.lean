import FpgaPcie.Driver.DeviceBooks

/-!
# The lock bits of mapped pages

A page has one lock bit, whoever locked it. Mapping a buffer sets the bits of its pages,
unmapping one and failing to map one clear them, also where another live entry has the
page. The pages of live entries stay locked while no call releases a page they share.
-/

namespace FpgaPcie.Driver.Resources

open FpgaPcie.Keyed
open FpgaPcie.Transition
open FpgaPcie.Driver.Umem (Page)

set_option autoImplicit false

def PagesLocked (reserved : Page → Bool) (device : Device) : Prop :=
  ∀ entry ∈ device.umemList, ∀ page ∈ entry.pages, reserved page = false → device.locked page

namespace Device

def unmaps (device : Device) : DriverCall → Option UmemBuffer
  | .ioctl (.umemSgunmap handleId readFromUser) =>
      if readFromUser then device.umemFindEntryId handleId else none
  | .store (.umemUnmap (some id)) =>
      if id ≥ device.umemCount then none else device.umemFindEntryId id
  | .umemSgunmap serial => device.umemList.find? fun entry => entry.serial = serial
  | _ => none

end Device

def DriverCall.failedPages : DriverCall → List Page
  | .ioctl (.umemSgmap vma size answers) =>
      if answers.readFromUser ∧ ¬(answers.MapsPages vma size ∧ answers.sysfs.createFile) then
        answers.pagesHad vma size
      else []
  | _ => []

/-- No page that the call releases is one that a live entry keeps, reserved pages apart. -/
structure SparesOthers (reserved : Page → Bool) (device : Device) (call : DriverCall) : Prop where
  unmapped : ∀ entry ∈ device.unmaps call, ∀ other ∈ device.umemList, other.serial ≠ entry.serial →
    ∀ page ∈ other.pages, reserved page = false → page ∉ entry.pages
  failed : ∀ other ∈ device.umemList, ∀ page ∈ other.pages, reserved page = false →
    page ∉ call.failedPages

section Calls

variable {reserved : Page → Bool} {device after : Device}

/-- What a call does to `umem_list` and to the lock bits. -/
inductive LockEffect (reserved : Page → Bool) (device after : Device) (call : DriverCall) : Prop where
  | kept (none_ : device.unmaps call = none) (noPages : call.failedPages = [])
      (umemList : after.umemList = device.umemList) (locked : after.locked = device.locked)
  | failed (none_ : device.unmaps call = none) (umemList : after.umemList = device.umemList)
      (locked : after.locked = fun page =>
        device.locked page && !decide (page ∈ call.failedPages))
  | mapped (entry : UmemBuffer) (none_ : device.unmaps call = none)
      (noPages : call.failedPages = []) (umemList : after.umemList = device.umemList ++ [entry])
      (locked : after.locked = fun page =>
        device.locked page || (decide (page ∈ entry.pages) && !reserved page))
  | unmapped (entry : UmemBuffer) (found : device.unmaps call = some entry)
      (noPages : call.failedPages = []) (freed : UmemFreed reserved entry device after)
  | cleared (all : call = .umemSgunmapAll) (none_ : device.unmaps call = none)
      (noPages : call.failedPages = [])
      (umemList : after.umemList = [])

theorem kmem_alloc_locks (device : Device) (size : U64) (answers : KmemAnswers) :
    (device.kmemAlloc size answers).1.umemList = device.umemList ∧
      (device.kmemAlloc size answers).1.locked = device.locked := by
  cases allocated : device.kmemAlloc size answers with
  | mk after result =>
      have effect := kmem_alloc_effect device size answers
      rw [allocated] at effect
      cases effect with
      | fails short attempt locked => exact ⟨attempt.kept.umemList, locked⟩
      | allocates full memory kmemList others serial moves locked =>
          exact ⟨others.umemList, locked⟩

theorem kmem_free_locks (device : Device) (found : Option KmemBuffer) :
    ((found.map device.kmemFreeEntry).getD device).umemList = device.umemList ∧
      ((found.map device.kmemFreeEntry).getD device).locked = device.locked := by
  cases found with
  | none => exact ⟨rfl, rfl⟩
  | some entry =>
      have freed := kmem_free_entry_frees device entry
      exact ⟨freed.others.umemList, freed.locked⟩

theorem unmap_locks {call : DriverCall} (noPages : call.failedPages = [])
    (served : device.after reserved call =
      ((device.unmaps call).map (Device.umemSgunmap reserved device)).getD device) :
    LockEffect reserved device (device.after reserved call) call := by
  cases found : device.unmaps call with
  | none =>
      rw [found] at served
      exact .kept found noPages (by rw [served]; rfl) (by rw [served]; rfl)
  | some entry =>
      rw [found] at served
      exact .unmapped entry found noPages (served ▸ umem_sgunmap_frees reserved device entry)

theorem sgmap_locks (device : Device) (vma size : U64) (answers : SgmapAnswers)
    (read : answers.readFromUser) :
    LockEffect reserved device (Device.umemSgmap reserved answers device vma size).1
      (.ioctl (.umemSgmap vma size answers)) := by
  cases mapped : Device.umemSgmap reserved answers device vma size with
  | mk after result =>
      have effect := umem_sgmap_effect reserved answers device vma size
      rw [mapped] at effect
      cases effect with
      | fails short attempt locked =>
          have pages : (DriverCall.ioctl (.umemSgmap vma size answers)).failedPages =
              answers.pagesHad vma size := if_pos ⟨read, short⟩
          exact .failed rfl attempt.kept.umemList (pages ▸ locked)
      | @maps _ entry full pages serial umemList others nextSerial moves locked =>
          exact .mapped entry rfl (if_neg fun failed => failed.2 full) umemList locked

theorem lock_effect (reserved : Page → Bool) (device : Device) (call : DriverCall) :
    LockEffect reserved device (device.after reserved call) call := by
  cases call with
  | ioctl call =>
      cases call with
      | kmemAlloc size answers =>
          have served : device.after reserved (.ioctl (.kmemAlloc size answers)) = _ :=
            ioctl_kmem_alloc_device device size answers
          have locks := kmem_alloc_locks device size answers
          rw [served]
          split
          · exact .kept rfl rfl locks.1 locks.2
          · exact .kept rfl rfl rfl rfl
      | kmemFree handle readFromUser =>
          have served : device.after reserved (.ioctl (.kmemFree handle readFromUser)) = _ :=
            ioctl_kmem_free_device device handle readFromUser
          have locks := kmem_free_locks device (device.kmemFindEntry handle)
          rw [served]
          split
          · exact .kept rfl rfl locks.1 locks.2
          · exact .kept rfl rfl rfl rfl
      | kmemSync handle direction readFromUser =>
          obtain ⟨synced, same⟩ := ioctl_kmem_sync_device device handle direction readFromUser
          have served : device.after reserved (.ioctl (.kmemSync handle direction readFromUser)) = _ :=
            same
          rw [served]
          exact .kept rfl rfl rfl rfl
      | umemSgmap vma size answers =>
          have served : device.after reserved (.ioctl (.umemSgmap vma size answers)) = _ :=
            ioctl_umem_sgmap_device reserved device vma size answers
          rw [served]
          split
          · exact sgmap_locks device vma size answers ‹_›
          · exact .kept rfl (if_neg fun failed => absurd failed.1 ‹_›) rfl rfl
      | umemSgunmap handleId readFromUser =>
          apply unmap_locks rfl
          have served : device.after reserved (.ioctl (.umemSgunmap handleId readFromUser)) = _ :=
            ioctl_umem_sgunmap_device reserved device handleId readFromUser
          rw [served, Device.unmaps]
          split <;> rfl
      | umemSgget list answers =>
          obtain ⟨attempt, locked⟩ := umem_sgget_attempt device list answers
          exact .kept rfl rfl attempt.kept.umemList locked
  | store write =>
      cases write with
      | kmemAlloc size answers =>
          cases size with
          | none => exact .kept rfl rfl rfl rfl
          | some size =>
              have locks := kmem_alloc_locks device size answers
              exact .kept rfl rfl locks.1 locks.2
      | kmemFree id =>
          cases id with
          | none => exact .kept rfl rfl rfl rfl
          | some id =>
              have locks := kmem_free_locks device (device.kmemFindEntryId id)
              rw [Device.after, Device.store]
              split
              · exact .kept rfl rfl rfl rfl
              · exact .kept rfl rfl locks.1 locks.2
      | umemUnmap id =>
          cases id with
          | none => exact .kept rfl rfl rfl rfl
          | some id =>
              apply unmap_locks rfl
              rw [Device.after, Device.store, Device.unmaps]
              split <;> rfl
  | umemSgunmap serial => exact unmap_locks rfl rfl
  | umemSgunmapAll =>
      exact .cleared rfl rfl rfl
        (@umem_sgunmap_all_keeps reserved (fun _ => True) (fun _ _ _ _ => trivial) device trivial).2

theorem SparesOthers.of_nothing {call : DriverCall} (none_ : device.unmaps call = none)
    (noPages : call.failedPages = []) : SparesOthers reserved device call where
  unmapped entry found := absurd (none_.symm.trans found) nofun
  failed other _ page _ _ := by
    rw [noPages]
    exact List.not_mem_nil

/-- From a state with the pages locked, a call keeps them locked exactly if it releases no
page that a live entry keeps. -/
theorem pages_locked_after_iff (distinct : Distinct UmemBuffer.serial device.umemList)
    (locked : PagesLocked reserved device) (call : DriverCall) :
    PagesLocked reserved (device.after reserved call) ↔ SparesOthers reserved device call := by
  cases lock_effect reserved device call with
  | kept none_ noPages umemList same =>
      refine iff_of_true ?_ (.of_nothing none_ noPages)
      rw [PagesLocked, umemList, same]
      exact locked
  | failed none_ umemList cleared =>
      constructor
      · intro after
        constructor
        · exact fun entry found => absurd (none_.symm.trans found) nofun
        · intro other member page inside free
          have still := after other (umemList ▸ member) page inside free
          rw [cleared, Bool.and_eq_true] at still
          simpa using still.2
      · intro spares entry member page inside free
        rw [umemList] at member
        have spared := spares.failed entry member page inside free
        rw [cleared, Bool.and_eq_true]
        exact ⟨locked entry member page inside free, by simpa using spared⟩
  | mapped added none_ noPages umemList set =>
      refine iff_of_true ?_ (.of_nothing none_ noPages)
      intro entry member page inside free
      rw [umemList, List.mem_append, List.mem_singleton] at member
      rw [set, Bool.or_eq_true]
      rcases member with earlier | rfl
      · exact Or.inl (locked entry earlier page inside free)
      · exact Or.inr (by simp [inside, free])
  | unmapped gone found noPages freed =>
      have list := distinct.mem_erase_iff gone.serial
      have unlocked : ∀ page, (device.after reserved call).locked page =
          (device.locked page && !(decide (page ∈ gone.pages) && !reserved page)) :=
        fun page => congrFun freed.locked page
      constructor
      · intro after
        refine ⟨?_, fun other _ page _ _ => by rw [noPages]; exact List.not_mem_nil⟩
        intro entry is other member differ page inside free
        rw [found] at is
        cases is
        have stays : other ∈ (device.after reserved call).umemList := by
          rw [freed.umemList]
          exact (list other).mpr ⟨member, differ⟩
        have still := after other stays page inside free
        rw [unlocked, Bool.and_eq_true] at still
        simpa [free] using still.2
      · intro spares entry member page inside free
        rw [freed.umemList] at member
        obtain ⟨live, differ⟩ := (list entry).mp member
        have spared := spares.unmapped gone found entry live differ page inside free
        rw [unlocked, Bool.and_eq_true]
        exact ⟨locked entry live page inside free, by simp [spared]⟩
  | cleared all none_ noPages umemList =>
      refine iff_of_true ?_ (.of_nothing none_ noPages)
      intro entry member
      rw [umemList] at member
      exact absurd member List.not_mem_nil

end Calls

/-- In a run whose calls release no page that a live entry keeps, the pages of live entries
are locked after every call. The next call keeps that exactly if it does the same. -/
theorem mapped_pages_stay_locked {reserved : Page → Bool} {device : Device}
    (reached : (deviceSystem reserved).ReachableUnder (SparesOthers reserved) device) :
    PagesLocked reserved device ∧ ∀ call,
      (PagesLocked reserved (device.after reserved call) ↔ SparesOthers reserved device call) := by
  have distinct : ∀ {device : Device},
      (deviceSystem reserved).ReachableUnder (SparesOthers reserved) device →
        Distinct UmemBuffer.serial device.umemList := by
    intro device reached
    obtain ⟨leaked, books, -⟩ := reachable_books (reached.mono fun _ _ _ => trivial)
    exact books.umemDistinct
  have locked : PagesLocked reserved device := by
    induction reached with
    | start new =>
        intro entry member
        rw [new.umemList] at member
        exact absurd member List.not_mem_nil
    | next earlier spares step ih =>
        obtain ⟨-, rfl⟩ := step_device step
        exact (pages_locked_after_iff (distinct earlier) ih _).mpr spares
  exact ⟨locked, fun call => pages_locked_after_iff (distinct reached) locked call⟩

def mapPage (page : Page) : DriverCall := .ioctl (.umemSgmap 0#64 4096#64 (onePageMapped page))

theorem mapped_pages_stay_locked_shared_page : ∃ device,
    device.umemList.map (fun entry => entry.pages) = [[7], [7]] ∧
    PagesLocked (fun _ => false) device := by
  let unmap : DriverCall := .ioctl (.umemSgunmap 2#32 true)
  let device := ((emptyDevice.after (fun _ => false) (mapPage 7)).after (fun _ => false)
    (mapPage 7)).after (fun _ => false) (mapPage 8)
  have start : (deviceSystem fun _ => false).ReachableUnder (SparesOthers fun _ => false)
      emptyDevice := .start empty_device_new
  have mapped : (deviceSystem fun _ => false).ReachableUnder (SparesOthers fun _ => false)
      device := by
    apply System.reachable_of_run ([7, 7, 8].map mapPage) start _ rfl
    intro state call member
    obtain ⟨page, -, rfl⟩ := List.mem_map.mp member
    exact .of_nothing rfl rfl
  have others : ∀ other ∈ device.umemList, other.serial ≠ 2 → 8 ∉ other.pages := by decide
  have spares : SparesOthers (fun _ => false) device unmap := by
    constructor
    · intro entry found other member different page inside _ unmapped
      cases found
      rw [List.mem_singleton.mp unmapped] at inside
      exact others other member different inside
    · exact fun _ _ _ _ _ => List.not_mem_nil
  have unmapped : (deviceSystem fun _ => false).step device unmap =
      some (device.after (fun _ => false) unmap) := rfl
  exact ⟨_, rfl, (mapped_pages_stay_locked (mapped.next spares unmapped)).1⟩

theorem unmapping_unlocks_shared_page : ∃ device,
    (deviceSystem fun _ => false).Reachable device ∧ ¬PagesLocked (fun _ => false) device := by
  let calls : List DriverCall := [mapPage 7, mapPage 7, .ioctl (.umemSgunmap 0#32 true)]
  let device := ((emptyDevice.after (fun _ => false) (mapPage 7)).after (fun _ => false)
    (mapPage 7)).after (fun _ => false) (.ioctl (.umemSgunmap 0#32 true))
  have start : (deviceSystem fun _ => false).Reachable emptyDevice := .start empty_device_new
  have run : (deviceSystem fun _ => false).runFrom emptyDevice calls = some device := rfl
  refine ⟨device, System.reachable_of_run calls start (fun _ _ _ => trivial) run, ?_⟩
  intro locked
  let left : UmemBuffer := ⟨⟨1#32, [7], [⟨0x1000#64, 4096⟩], List.cons_ne_nil _ _⟩, 1#32, 1, rfl⟩
  have list : device.umemList = [left] := rfl
  have on := locked left (list ▸ List.mem_cons_self) 7 List.mem_cons_self rfl
  exact absurd on (by decide)

end FpgaPcie.Driver.Resources
