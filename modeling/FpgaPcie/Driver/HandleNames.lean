import FpgaPcie.Driver.DeviceBooks

/-!
# Handles of kernel memory

`KMEM_FREE` and `KMEM_SYNC` look a handle up by its bus address only. An address is handed
out again after it was freed, so a handle means its own allocation exactly as long as no
other live entry is at its address.
-/

namespace FpgaPcie.Driver.Resources

open FpgaPcie.Holdings
open FpgaPcie.Keyed
open FpgaPcie.Transition
open FpgaPcie.Driver.Entries (Direction)
open FpgaPcie.Driver.Umem (Page Errno)

set_option autoImplicit false

/-- `issued` is on record: every handle that a `KMEM_ALLOC` returned, with the number of
that call. -/
structure Clients where
  device : Device
  issued : List (KmemHandle × ℕ)

def Device.issues (device : Device) : DriverCall → Option KmemHandle
  | .ioctl (.kmemAlloc size answers) =>
      match (device.ioctlKmemAlloc size answers).2 with
      | .ok (.kmemHandle handle) => some handle
      | _ => none
  | _ => none

def clientSystem (reserved : Page → Bool) : System Clients DriverCall where
  initial clients := clients.device.New ∧ clients.issued = []
  step clients call :=
    ((deviceSystem reserved).step clients.device call).map fun after =>
      { device := after
        issued := (clients.device.issues call).toList.map (fun handle =>
          (handle, clients.device.nextSerial)) ++ clients.issued }

def Device.Live (device : Device) (serial : ℕ) : Prop :=
  ∃ entry ∈ device.kmemList, entry.serial = serial

/-- Other entries of `kmem_list` stay, and nothing of them is given back or synchronised. -/
structure AffectsOnly (serial : ℕ) (before after : Device) : Prop where
  kmemList : ∀ entry : KmemBuffer, entry.serial ≠ serial →
    (entry ∈ after.kmemList ↔ entry ∈ before.kmemList)
  given : ∀ resource : Resource, resource.serial ≠ some serial →
    givenCount after.record resource = givenCount before.record resource
  synced : ∃ calls, after.synced = before.synced ++ calls ∧
    ∀ call ∈ calls, call.1 = serial

/-- The two ioctls mean the allocation with this number by the handle: they affect nothing
else, and return `-EINVAL` once it is freed. -/
structure MeansOwn (device : Device) (handle : KmemHandle) (serial : ℕ) : Prop where
  free : AffectsOnly serial device (device.ioctlKmemFree handle true).1
  frees : device.Live serial → (device.ioctlKmemFree handle true).2 = .ok .done ∧
    ¬(device.ioctlKmemFree handle true).1.Live serial
  sync : ∀ direction, AffectsOnly serial device (device.ioctlKmemSync handle direction true).1
  syncs : ∀ direction, device.Live serial → direction ≠ .invalid →
    (device.ioctlKmemSync handle direction true).2 = .ok .done ∧
      (device.ioctlKmemSync handle direction true).1.synced =
        device.synced ++ (syncCalls direction).map fun call => (serial, call)
  gone : ¬device.Live serial → (device.ioctlKmemFree handle true).2 = .error .einval ∧
    ∀ direction, (device.ioctlKmemSync handle direction true).2 = .error .einval

section Calls

variable {reserved : Page → Bool} {device after : Device}

/-- A call takes entries off `kmem_list`, or puts one there at an address apart from the
others; a handle returned has its address. -/
inductive ListEffect (device after : Device) (call : DriverCall) : Prop where
  | kept (sublist : after.kmemList.Sublist device.kmemList) (none_ : device.issues call = none)
  | added (entry : KmemBuffer) (kmemList : after.kmemList = device.kmemList ++ [entry])
      (serial : entry.serial = device.nextSerial)
      (apart : device.Possible call → ∀ other ∈ device.kmemList,
        other.dmaHandle ≠ entry.dmaHandle)
      (returned : ∀ handle ∈ device.issues call, handle.pa = entry.dmaHandle)

theorem hands_out_apart {size : U64} {answers : KmemAnswers} {area : U64 × U64}
    (handsOut : device.HandsOut size answers) (memory : answers.pciAllocConsistent = some area) :
    ∀ other ∈ device.kmemList, other.dmaHandle ≠ area.1 := by
  obtain ⟨dmaHandle, cpua⟩ := area
  intro other member same
  change other.dmaHandle = dmaHandle at same
  simp only [Device.HandsOut, memory] at handsOut
  have apart := handsOut other member
  rw [same] at apart
  omega

theorem free_found_sublist (device : Device) (found : Option KmemBuffer) :
    ((found.map device.kmemFreeEntry).getD device).kmemList.Sublist device.kmemList := by
  cases found with
  | none => exact List.Sublist.refl _
  | some entry =>
      rw [Option.map_some, Option.getD_some, (kmem_free_entry_frees device entry).kmemList]
      exact List.eraseP_sublist

theorem unmap_found_kmem_list (reserved : Page → Bool) (device : Device) (found : Option UmemBuffer) :
    ((found.map (Device.umemSgunmap reserved device)).getD device).kmemList = device.kmemList := by
  cases found with
  | none => rfl
  | some entry => exact (umem_sgunmap_frees reserved device entry).others.kmemList

theorem umem_sgmap_kmem_list (reserved : Page → Bool) (answers : SgmapAnswers) (device : Device)
    (vma size : U64) :
    (Device.umemSgmap reserved answers device vma size).1.kmemList = device.kmemList := by
  cases mapped : Device.umemSgmap reserved answers device vma size with
  | mk after result =>
      have effect := umem_sgmap_effect reserved answers device vma size
      rw [mapped] at effect
      cases effect with
      | fails short attempt locked => exact attempt.kept.kmemList
      | maps full pages serial umemList others nextSerial moves locked => exact others.kmemList

theorem kmem_alloc_list (device : Device) (size : U64) (answers : KmemAnswers)
    (read : answers.readFromUser) :
    ListEffect device (device.kmemAlloc size answers).1 (.ioctl (.kmemAlloc size answers)) := by
  cases allocated : device.kmemAlloc size answers with
  | mk after result =>
      have effect := kmem_alloc_effect device size answers
      rw [allocated] at effect
      cases effect with
      | fails short attempt locked =>
          refine .kept (attempt.kept.kmemList ▸ List.Sublist.refl _) ?_
          simp [Device.issues, Device.ioctlKmemAlloc, read, allocated]
      | @allocates _ dmaHandle cpua full memory kmemList others serial moves locked =>
          refine .added _ kmemList rfl (fun handsOut => hands_out_apart handsOut memory) ?_
          intro handle returned
          cases write : answers.writeToUser <;>
            simp [Device.issues, Device.ioctlKmemAlloc, read, allocated, write] at returned
          rw [← returned]

theorem store_alloc_list (device : Device) (size : U64) (answers : KmemAnswers) :
    ListEffect device (device.kmemAlloc size answers).1 (.store (.kmemAlloc (some size) answers)) := by
  cases allocated : device.kmemAlloc size answers with
  | mk after result =>
      have effect := kmem_alloc_effect device size answers
      rw [allocated] at effect
      cases effect with
      | fails short attempt locked =>
          exact .kept (attempt.kept.kmemList ▸ List.Sublist.refl _) rfl
      | @allocates _ dmaHandle cpua full memory kmemList others serial moves locked =>
          exact .added _ kmemList rfl (fun handsOut => hands_out_apart handsOut memory) nofun

theorem list_effect (reserved : Page → Bool) (device : Device) (call : DriverCall) :
    ListEffect device (device.after reserved call) call := by
  have same : ∀ {after : Device}, after.kmemList = device.kmemList →
      after.kmemList.Sublist device.kmemList := fun equal => equal ▸ List.Sublist.refl _
  cases call with
  | ioctl call =>
      cases call with
      | kmemAlloc size answers =>
          have served : device.after reserved (.ioctl (.kmemAlloc size answers)) = _ :=
            ioctl_kmem_alloc_device device size answers
          rw [served]
          split
          · exact kmem_alloc_list device size answers ‹_›
          · refine .kept (List.Sublist.refl _) ?_
            simp [Device.issues, Device.ioctlKmemAlloc, *]
      | kmemFree handle readFromUser =>
          have served : device.after reserved (.ioctl (.kmemFree handle readFromUser)) = _ :=
            ioctl_kmem_free_device device handle readFromUser
          rw [served]
          split
          · exact .kept (free_found_sublist device _) rfl
          · exact .kept (List.Sublist.refl _) rfl
      | kmemSync handle direction readFromUser =>
          obtain ⟨synced, equal⟩ := ioctl_kmem_sync_device device handle direction readFromUser
          have served : device.after reserved (.ioctl (.kmemSync handle direction readFromUser)) = _ :=
            equal
          rw [served]
          exact .kept (List.Sublist.refl _) rfl
      | umemSgmap vma size answers =>
          have served : device.after reserved (.ioctl (.umemSgmap vma size answers)) = _ :=
            ioctl_umem_sgmap_device reserved device vma size answers
          rw [served]
          split
          · exact .kept (same (umem_sgmap_kmem_list reserved answers device vma size)) rfl
          · exact .kept (List.Sublist.refl _) rfl
      | umemSgunmap handleId readFromUser =>
          have served : device.after reserved (.ioctl (.umemSgunmap handleId readFromUser)) = _ :=
            ioctl_umem_sgunmap_device reserved device handleId readFromUser
          rw [served]
          split
          · exact .kept (same (unmap_found_kmem_list reserved device _)) rfl
          · exact .kept (List.Sublist.refl _) rfl
      | umemSgget list answers =>
          exact .kept (same (umem_sgget_attempt device list answers).1.kept.kmemList) rfl
  | store write =>
      cases write with
      | kmemAlloc size answers =>
          cases size with
          | none => exact .kept (List.Sublist.refl _) rfl
          | some size => exact store_alloc_list device size answers
      | kmemFree id =>
          cases id with
          | none => exact .kept (List.Sublist.refl _) rfl
          | some id =>
              rw [Device.after, Device.store]
              split
              · exact .kept (List.Sublist.refl _) rfl
              · exact .kept (free_found_sublist device _) rfl
      | umemUnmap id =>
          cases id with
          | none => exact .kept (List.Sublist.refl _) rfl
          | some id =>
              rw [Device.after, Device.store]
              split
              · exact .kept (List.Sublist.refl _) rfl
              · exact .kept (same (unmap_found_kmem_list reserved device _)) rfl
  | umemSgunmap serial => exact .kept (same (unmap_found_kmem_list reserved device _)) rfl
  | umemSgunmapAll =>
      have kept := @umem_sgunmap_all_keeps reserved
        (fun after => after.kmemList = device.kmemList)
        (fun before entry _ equal => (umem_sgunmap_frees reserved before entry).others.kmemList.trans
          equal) device rfl
      exact .kept (same kept.1) rfl

end Calls

/-- Entries differ in number and in address, and a handle has the address of its entry. -/
structure Addressed (clients : Clients) : Prop where
  distinct : Distinct KmemBuffer.serial clients.device.kmemList
  apart : Distinct (fun entry : KmemBuffer => entry.dmaHandle) clients.device.kmemList
  issuedBelow : ∀ issue ∈ clients.issued, issue.2 < clients.device.nextSerial
  issued : ∀ issue ∈ clients.issued, ∀ entry ∈ clients.device.kmemList,
    entry.serial = issue.2 → entry.dmaHandle = issue.1.pa

section Runs

variable {reserved : Page → Bool} {clients : Clients} {handle : KmemHandle} {serial : ℕ}

theorem DeviceEffect.next_serial_le {before after : Device} {leaks : List Resource}
    (effect : DeviceEffect before after leaks) : before.nextSerial ≤ after.nextSerial := by
  cases effect with
  | kept kmemList umemList barsKmapped irqEnabled nextSerial record => exact nextSerial.ge
  | attempt named attempt => exact attempt.serial.ge.trans' (Nat.le_succ _)
  | kmemAdded entry kmemList others serial nextSerial moves =>
      exact nextSerial.ge.trans' (Nat.le_succ _)
  | umemAdded entry umemList others serial nextSerial moves =>
      exact nextSerial.ge.trans' (Nat.le_succ _)
  | kmemFreed entry member freed => exact freed.nextSerial.ge
  | umemFreed reserved entry member freed => exact freed.nextSerial.ge

theorem next_serial_le (reserved : Page → Bool) (device : Device) (call : DriverCall) :
    device.nextSerial ≤ (device.after reserved call).nextSerial :=
  @after_keeps reserved device [] (fun after _ => device.nextSerial ≤ after.nextSerial)
    (fun effect below => below.trans effect.next_serial_le) le_rfl call

theorem client_step {after : Clients} {call : DriverCall}
    (step : (clientSystem reserved).step clients call = some after) :
    (deviceSystem reserved).step clients.device call = some after.device ∧
      after.issued = (clients.device.issues call).toList.map (fun handle =>
        (handle, clients.device.nextSerial)) ++ clients.issued := by
  obtain ⟨device, served, rfl⟩ := Option.map_eq_some_iff.mp step
  exact ⟨served, rfl⟩

theorem clients_device_reachable (reached : (clientSystem reserved).Reachable clients) :
    (deviceSystem reserved).Reachable clients.device := by
  induction reached with
  | start initial => exact .start initial.1
  | next _ _ step ih => exact ih.next trivial (client_step step).1

theorem addressed_after {after : Clients} {call : DriverCall} (addressed : Addressed clients)
    (below : ∀ entry ∈ clients.device.kmemList, entry.serial < clients.device.nextSerial)
    (belowAfter : ∀ entry ∈ after.device.kmemList, entry.serial < after.device.nextSerial)
    (step : (clientSystem reserved).step clients call = some after) : Addressed after := by
  obtain ⟨distinct, apart, issuedBelow, issued⟩ := addressed
  obtain ⟨served, record⟩ := client_step step
  obtain ⟨possible, device⟩ := step_device served
  have next := device ▸ next_serial_le reserved clients.device call
  cases device ▸ list_effect reserved clients.device call with
  | kept sublist none_ =>
      rw [none_, Option.toList_none, List.map_nil, List.nil_append] at record
      refine ⟨distinct.sublist (sublist.map _), apart.sublist (sublist.map _), ?_, ?_⟩
      · rw [record]
        exact fun issue member => (issuedBelow issue member).trans_le next
      · rw [record]
        exact fun issue member entry inside => issued issue member entry (sublist.subset inside)
  | added entry kmemList drawn distance returned =>
      have later : clients.device.nextSerial < after.device.nextSerial := by
        have last := belowAfter entry (kmemList ▸ List.mem_append_right _ List.mem_cons_self)
        omega
      constructor
      · rw [kmemList]
        exact distinct_added distinct below drawn
      · rw [kmemList]
        exact apart.append_fresh (distance possible)
      · intro issue member
        rw [record] at member
        rcases List.mem_append.mp member with fresh | earlier
        · obtain ⟨handle, -, rfl⟩ := List.mem_map.mp fresh
          exact later
        · exact (issuedBelow issue earlier).trans later
      · intro issue member other inside same
        rw [record] at member
        rw [kmemList] at inside
        rcases List.mem_append.mp member with fresh | earlier
        · obtain ⟨handle, is, rfl⟩ := List.mem_map.mp fresh
          rcases List.mem_append.mp inside with old | new
          · have number := below other old
            omega
          · rw [List.mem_singleton] at new
            exact new ▸ (returned handle (Option.mem_toList.mp is)).symm
        · rcases List.mem_append.mp inside with old | new
          · exact issued issue earlier other old same
          · rw [List.mem_singleton] at new
            have number := issuedBelow issue earlier
            rw [new, drawn] at same
            omega

theorem reachable_addressed (reached : (clientSystem reserved).Reachable clients) :
    Addressed clients := by
  induction reached with
  | start initial =>
      obtain ⟨new, none_⟩ := initial
      constructor
      · rw [new.kmemList]
        exact List.nodup_nil
      · rw [new.kmemList]
        exact List.nodup_nil
      · simp [none_]
      · simp [none_]
  | next earlier _ step ih =>
      obtain ⟨leaked, books, -⟩ := reachable_books (clients_device_reachable earlier)
      obtain ⟨leakedAfter, booksAfter, -⟩ :=
        reachable_books (clients_device_reachable (earlier.next trivial step))
      exact addressed_after ih books.kmemBelow booksAfter.kmemBelow step

theorem find_entry_eq {device : Device}
    (apart : Distinct (fun entry : KmemBuffer => entry.dmaHandle) device.kmemList)
    {entry : KmemBuffer} (member : entry ∈ device.kmemList) (at_ : entry.dmaHandle = handle.pa) :
    device.kmemFindEntry handle = some entry := by
  rw [Device.kmemFindEntry, ← at_]
  exact apart.find_eq member

theorem affects_nothing (serial : ℕ) (device : Device) : AffectsOnly serial device device where
  kmemList _ _ := Iff.rfl
  given _ _ := rfl
  synced := ⟨[], (List.append_nil _).symm, nofun⟩

theorem free_affects_only {device : Device} (distinct : Distinct KmemBuffer.serial device.kmemList)
    (entry : KmemBuffer) : AffectsOnly entry.serial device (device.kmemFreeEntry entry) where
  kmemList other differ := by
    rw [(kmem_free_entry_frees device entry).kmemList, distinct.mem_erase_iff]
    exact and_iff_left differ
  given resource foreign := by
    have absent : resource ∉ entry.holds := by
      intro member
      simp only [KmemBuffer.holds, kmemHolds, List.mem_cons, List.not_mem_nil, or_false] at member
      rcases member with rfl | rfl | rfl | rfl <;> exact foreign rfl
    rw [(kmem_free_entry_frees device entry).moves.given, List.count_eq_zero_of_not_mem absent]
    rfl
  synced := ⟨[], (List.append_nil _).symm, nofun⟩

/-- What the ioctls do when the lookup finds nothing, or the entry of the allocation. -/
theorem means_own_of_none {device : Device} (none_ : device.kmemFindEntry handle = none)
    (dead : ¬device.Live serial) : MeansOwn device handle serial where
  free := by
    simp only [Device.ioctlKmemFree, Device.kmemFree, none_]
    exact affects_nothing serial device
  frees live := absurd live dead
  sync direction := by
    simp only [Device.ioctlKmemSync, Device.kmemSync, none_]
    exact affects_nothing serial device
  syncs direction live := absurd live dead
  gone _ := by
    constructor
    · simp [Device.ioctlKmemFree, Device.kmemFree, none_]
    · intro direction
      simp [Device.ioctlKmemSync, Device.kmemSync, none_]

theorem means_own_of_found {device : Device} {entry : KmemBuffer}
    (distinct : Distinct KmemBuffer.serial device.kmemList)
    (found : device.kmemFindEntry handle = some entry) : MeansOwn device handle entry.serial := by
  have live : device.Live entry.serial := ⟨entry, List.mem_of_find?_eq_some found, rfl⟩
  have freed : device.ioctlKmemFree handle true = (device.kmemFreeEntry entry, .ok .done) := by
    simp [Device.ioctlKmemFree, Device.kmemFree, found]
  refine ⟨?_, ?_, ?_, ?_, fun dead => absurd live dead⟩
  · rw [freed]
    exact free_affects_only distinct entry
  · intro _
    rw [freed]
    constructor
    · exact rfl
    · intro present
      rcases present with ⟨other, inside, same⟩
      rw [(kmem_free_entry_frees device entry).kmemList, distinct.mem_erase_iff] at inside
      exact inside.2 same
  · intro direction
    by_cases invalid : direction = .invalid
    · have served : device.ioctlKmemSync handle direction true = (device, .error .einval) := by
        simp [Device.ioctlKmemSync, Device.kmemSync, found, invalid]
      rw [served]
      exact affects_nothing entry.serial device
    · have served : device.ioctlKmemSync handle direction true =
          ({ device with synced := device.synced ++
            (syncCalls direction).map fun call => (entry.serial, call) }, .ok .done) := by
        simp [Device.ioctlKmemSync, Device.kmemSync, found, invalid]
      rw [served]
      refine ⟨fun _ _ => Iff.rfl, fun _ _ => rfl, _, rfl, ?_⟩
      intro call member
      obtain ⟨_, -, rfl⟩ := List.mem_map.mp member
      rfl
  · intro direction _ valid
    simp [Device.ioctlKmemSync, Device.kmemSync, found, valid]

/-- A handle that was returned by an allocation means that allocation exactly if no live
entry of another one is at its bus address. -/
theorem handle_means_own_iff (reached : (clientSystem reserved).Reachable clients)
    (issued : (handle, serial) ∈ clients.issued) :
    MeansOwn clients.device handle serial ↔
      ∀ entry ∈ clients.device.kmemList, entry.dmaHandle = handle.pa → entry.serial = serial := by
  have addressed := reachable_addressed reached
  constructor
  · intro own entry member at_
    have found := find_entry_eq addressed.apart member at_
    by_contra differ
    have freed : (clients.device.ioctlKmemFree handle true).1 =
        clients.device.kmemFreeEntry entry := by
      simp [Device.ioctlKmemFree, Device.kmemFree, found]
    have stays := (own.free.kmemList entry differ).mpr member
    rw [freed, (kmem_free_entry_frees clients.device entry).kmemList,
      addressed.distinct.mem_erase_iff] at stays
    exact stays.2 rfl
  · intro alone
    cases found : clients.device.kmemFindEntry handle with
    | none =>
        apply means_own_of_none found
        intro present
        rcases present with ⟨entry, member, same⟩
        have at_ := addressed.issued (handle, serial) issued entry member same
        rw [find_entry_eq addressed.apart member at_] at found
        cases found
    | some entry =>
        have there : entry.dmaHandle = handle.pa := by simpa using List.find?_some found
        have same := alone entry (List.mem_of_find?_eq_some found) there
        exact same ▸ means_own_of_found addressed.distinct found

end Runs

def freshClients : Clients := ⟨emptyDevice, []⟩

theorem fresh_clients_reachable (reserved : Page → Bool) :
    (clientSystem reserved).Reachable freshClients := .start ⟨empty_device_new, rfl⟩

def firstHandle : KmemHandle := ⟨0x1000#64, 4096#64, 0#32⟩

theorem handle_means_own_after_allocation : ∃ clients : Clients,
    (firstHandle, 0) ∈ clients.issued ∧ MeansOwn clients.device firstHandle 0 := by
  let reserved : Page → Bool := fun _ => false
  let clients : Clients := ⟨emptyDevice.after reserved allocatePage, [(firstHandle, 0)]⟩
  have run : (clientSystem reserved).runFrom freshClients [allocatePage] = some clients := rfl
  have reached := System.reachable_of_run [allocatePage] (fresh_clients_reachable reserved)
    (fun _ _ _ => trivial) run
  have issued : (firstHandle, 0) ∈ clients.issued := List.mem_cons_self
  have alone : ∀ entry ∈ clients.device.kmemList,
      entry.dmaHandle = firstHandle.pa → entry.serial = 0 := by decide
  exact ⟨clients, issued, (handle_means_own_iff reached issued).mpr alone⟩

/-- A buffer is freed through sysfs, and another client gets its address. -/
theorem stale_handle_frees_other : ∃ clients,
    (clientSystem fun _ => false).Reachable clients ∧ (firstHandle, 0) ∈ clients.issued ∧
      ¬clients.device.Live 0 ∧
      (clients.device.ioctlKmemFree firstHandle true).2 = .ok .done := by
  let reserved : Page → Bool := fun _ => false
  let calls : List DriverCall := [allocatePage, .store (.kmemFree (some 0#32)), allocatePage]
  let device := ((emptyDevice.after reserved allocatePage).after reserved
    (.store (.kmemFree (some 0#32)))).after reserved allocatePage
  let clients : Clients := ⟨device, [(⟨0x1000#64, 4096#64, 1#32⟩, 1), (firstHandle, 0)]⟩
  have run : (clientSystem reserved).runFrom freshClients calls = some clients := rfl
  have reached := System.reachable_of_run calls (fresh_clients_reachable reserved)
    (fun _ _ _ => trivial) run
  have dead : ∀ entry ∈ clients.device.kmemList, entry.serial ≠ 0 := by decide
  exact ⟨clients, reached, List.mem_cons_of_mem _ List.mem_cons_self,
    fun ⟨entry, member, same⟩ => dead entry member same, rfl⟩

end FpgaPcie.Driver.Resources
