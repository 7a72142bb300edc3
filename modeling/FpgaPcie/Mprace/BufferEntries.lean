import FpgaPcie.Lib.Mirror
import FpgaPcie.Driver.HandleNames
import FpgaPcie.Driver.EntryIds
import FpgaPcie.Mprace.BufferLedger

/-!
# DMA buffers on the driver's lists

What a process takes and gives back of the driver, served by the ioctls of a device that no
other process uses. A lease of a kernel buffer or of user pages goes with the handle that the
ioctl returned; the call that gives it back is made with that handle, and is refused to the
process where the ioctl fails.
-/

namespace FpgaPcie.Mprace.Lifetime

open FpgaPcie.Holdings FpgaPcie.Leases FpgaPcie.Keyed FpgaPcie.Mirror FpgaPcie.Transition
open FpgaPcie.Driver (KmemHandle)
open FpgaPcie.Driver.Umem (Page)
open FpgaPcie.Driver.Resources (Ioctl Reply DriverCall IdCall NumberedEntries idSystem
  KmemAnswers KmemBuffer SgmapAnswers UmemBuffer)

set_option autoImplicit false

/-- The device, and what the process knows of its leases: the handles and ids that were
returned to it, and on record the number of the call that returned each. -/
structure Served where
  state : NumberedEntries
  handles : ℕ → Option KmemHandle
  ids : ℕ → Option U32
  numbers : ℕ → ℕ
  /-- how many calls that give back were answered with an error -/
  refusals : ℕ

def OfProcess (lease : Lease Kind) : Prop := lease.kind ≠ .kernelBuffer ∧ lease.kind ≠ .userPages

section Serving

variable (reserved : Page → Bool)

def reply (device : Driver.Resources.Device) (call : Ioctl) : Except Driver.Umem.Errno Reply :=
  (device.ioctl reserved call).2

/-- Calls that come to nothing, and calls that only look entries up. What an allocating call
returns can be written: it goes to a variable of the library's. -/
def Passes (device : Driver.Resources.Device) : IdCall → Prop
  | .driver (.ioctl (.kmemAlloc size answers)) => answers.writeToUser ∧
      ∃ errno, reply reserved device (.kmemAlloc size answers) = .error errno
  | .driver (.ioctl (.umemSgmap vma size answers)) => answers.writeToUser ∧
      ∃ errno, reply reserved device (.umemSgmap vma size answers) = .error errno
  | .driver (.ioctl (.umemSgget _ _)) | .driver (.ioctl (.kmemSync _ _ _)) | .umemSync _ _ _ =>
      True
  | _ => False

def refused (device : Driver.Resources.Device) (call : Ioctl) : ℕ :=
  if reply reserved device call = .ok .done then 0 else 1

def offered (reply : Except Driver.Umem.Errno Reply) (lease : Lease Kind) : Event (Lease Kind) :=
  if reply = .ok .done then .given lease else .refused lease

inductive Serves : List (Event (Lease Kind)) → Served → Prop where
  | start {state : NumberedEntries} (initial : (idSystem reserved).initial state) :
      Serves [] ⟨state, fun _ => none, fun _ => none, fun _ => 0, 0⟩
  | takes {record : List (Event (Lease Kind))} {served : Served} {lease : Lease Kind}
      (earlier : Serves record served) (own : OfProcess lease) :
      Serves (.taken lease :: record) served
  | gives {record : List (Event (Lease Kind))} {served : Served} {lease : Lease Kind}
      (earlier : Serves record served) (own : OfProcess lease) :
      Serves (.given lease :: record) served
  | passes {record : List (Event (Lease Kind))} {served : Served} {call : IdCall}
      {after : NumberedEntries} (earlier : Serves record served)
      (passes : Passes reserved served.state.device call)
      (step : (idSystem reserved).step served.state call = some after) :
      Serves record { served with state := after }
  | allocates {record : List (Event (Lease Kind))} {served : Served} {size : U64}
      {answers : KmemAnswers} {handle : KmemHandle} {after : NumberedEntries} (id : ℕ)
      (earlier : Serves record served)
      (step : (idSystem reserved).step served.state (.driver (.ioctl (.kmemAlloc size answers))) =
        some after)
      (returned : reply reserved served.state.device (.kmemAlloc size answers) =
        .ok (.kmemHandle handle)) :
      Serves (.taken ⟨.kernelBuffer, id, none⟩ :: record)
        { served with
          state := after
          handles := Function.update served.handles id (some handle)
          numbers := Function.update served.numbers id served.state.device.nextSerial }
  | frees {record : List (Event (Lease Kind))} {served : Served} {handle : KmemHandle}
      {after : NumberedEntries} (id : ℕ) (earlier : Serves record served)
      (kept : served.handles id = some handle)
      (step : (idSystem reserved).step served.state (.driver (.ioctl (.kmemFree handle true))) =
        some after) :
      Serves (offered (reply reserved served.state.device (.kmemFree handle true))
          ⟨.kernelBuffer, id, none⟩ :: record)
        { served with
          state := after
          refusals := served.refusals + refused reserved served.state.device
            (.kmemFree handle true) }
  | maps {record : List (Event (Lease Kind))} {served : Served} {vma size : U64}
      {answers : SgmapAnswers} {handleId : U32} {after : NumberedEntries} (id : ℕ)
      (on : Option ℕ) (earlier : Serves record served)
      (step : (idSystem reserved).step served.state
        (.driver (.ioctl (.umemSgmap vma size answers))) = some after)
      (returned : reply reserved served.state.device (.umemSgmap vma size answers) =
        .ok (.handleId handleId)) :
      Serves (.taken ⟨.userPages, id, on⟩ :: record)
        { served with
          state := after
          ids := Function.update served.ids id (some handleId)
          numbers := Function.update served.numbers id served.state.device.nextSerial }
  | unmaps {record : List (Event (Lease Kind))} {served : Served} {handleId : U32}
      {after : NumberedEntries} (id : ℕ) (on : Option ℕ) (earlier : Serves record served)
      (kept : served.ids id = some handleId)
      (step : (idSystem reserved).step served.state
        (.driver (.ioctl (.umemSgunmap handleId true))) = some after) :
      Serves (offered (reply reserved served.state.device (.umemSgunmap handleId true))
          ⟨.userPages, id, on⟩ :: record)
        { served with
          state := after
          refusals := served.refusals + refused reserved served.state.device
            (.umemSgunmap handleId true) }

end Serving

def owners (kind : Kind) (leases : List (Lease Kind)) : List ℕ :=
  (leases.filter fun lease => lease.kind = kind).map Lease.id

/-- The entries of `kmem_list` are those of the kernel buffers, each under the bus address in
its handle, and the entries of `umem_list` those of the mapped pages, each under its id. -/
structure Mirrored (leases : List (Lease Kind)) (served : Served) : Prop where
  buffers : Mirrors (owners .kernelBuffer leases) served.numbers
    (fun id => (served.handles id).map KmemHandle.pa) served.state.device.kmemList
    KmemBuffer.serial fun entry => entry.dmaHandle
  pages : Mirrors (owners .userPages leases) served.numbers served.ids
    served.state.device.umemList UmemBuffer.serial fun entry => entry.id

section Calls

variable {reserved : Page → Bool} {device : Driver.Resources.Device}
  {state after : NumberedEntries} {call : Ioctl}

theorem served_device (step : (idSystem reserved).step state (.driver (.ioctl call)) = some after) :
    state.device.Possible (.ioctl call) ∧
      after.device = (state.device.ioctl reserved call).1 := by
  obtain ⟨device, served, same⟩ := Option.map_eq_some_iff.mp step
  obtain ⟨possible, is⟩ := Driver.Resources.step_device served
  rw [← same]
  exact ⟨possible, is.symm⟩

def SameLists (device after : Driver.Resources.Device) : Prop :=
  after.kmemList = device.kmemList ∧ after.umemList = device.umemList

/-- `KMEM_ALLOC` fails and leaves the lists, or it adds an entry and returns its handle. -/
theorem kmem_alloc_served (size : U64) (answers : KmemAnswers) :
    (SameLists device (device.ioctl reserved (.kmemAlloc size answers)).1 ∧
      ∃ errno, reply reserved device (.kmemAlloc size answers) = .error errno) ∨
    ∃ (entry : KmemBuffer) (handle : KmemHandle) (cpua : U64),
      entry.serial = device.nextSerial ∧ entry.dmaHandle = handle.pa ∧
      answers.pciAllocConsistent = some (handle.pa, cpua) ∧
      (device.ioctl reserved (.kmemAlloc size answers)).1.kmemList =
        device.kmemList ++ [entry] ∧
      (device.ioctl reserved (.kmemAlloc size answers)).1.umemList = device.umemList ∧
      reply reserved device (.kmemAlloc size answers) =
        if answers.writeToUser then .ok (.kmemHandle handle) else .error .efault := by
  rw [reply, Driver.Resources.Device.ioctl, Driver.Resources.Device.ioctlKmemAlloc]
  by_cases read : answers.readFromUser
  · rw [if_neg (not_not_intro read)]
    have effect := Driver.Resources.kmem_alloc_effect device size answers
    rcases allocated : device.kmemAlloc size answers with ⟨after, result⟩
    rw [allocated] at effect
    cases effect with
    | fails short attempt locked =>
        exact Or.inl ⟨⟨attempt.kept.kmemList, attempt.kept.umemList⟩, _, rfl⟩
    | @allocates _ dmaHandle cpua full memory kmemList others serial moves locked =>
        exact Or.inr ⟨_, _, cpua, rfl, rfl, memory, kmemList, others.umemList, rfl⟩
  · rw [if_pos read]
    exact Or.inl ⟨⟨rfl, rfl⟩, _, rfl⟩

/-- `UMEM_SGMAP` fails and leaves the lists, or it adds an entry and returns its id. -/
theorem umem_sgmap_served (vma size : U64) (answers : SgmapAnswers) :
    (SameLists device (device.ioctl reserved (.umemSgmap vma size answers)).1 ∧
      ∃ errno, reply reserved device (.umemSgmap vma size answers) = .error errno) ∨
    ∃ entry : UmemBuffer, entry.serial = device.nextSerial ∧
      (device.ioctl reserved (.umemSgmap vma size answers)).1.umemList =
        device.umemList ++ [entry] ∧
      (device.ioctl reserved (.umemSgmap vma size answers)).1.kmemList = device.kmemList ∧
      reply reserved device (.umemSgmap vma size answers) =
        if answers.writeToUser then .ok (.handleId entry.id) else .error .efault := by
  rw [reply, Driver.Resources.Device.ioctl, Driver.Resources.Device.ioctlUmemSgmap]
  by_cases read : answers.readFromUser
  · rw [if_neg (not_not_intro read)]
    have effect := Driver.Resources.umem_sgmap_effect reserved answers device vma size
    rcases mapped : device.umemSgmap reserved answers vma size with ⟨after, result⟩
    rw [mapped] at effect
    cases effect with
    | fails short attempt locked =>
        exact Or.inl ⟨⟨attempt.kept.kmemList, attempt.kept.umemList⟩, _, rfl⟩
    | @maps _ entry full pages serial umemList others next moves locked =>
        exact Or.inr ⟨entry, serial, umemList, others.kmemList, rfl⟩
  · rw [if_pos read]
    exact Or.inl ⟨⟨rfl, rfl⟩, _, rfl⟩

theorem passes_lists {call : IdCall} (passes : Passes reserved state.device call)
    (step : (idSystem reserved).step state call = some after) :
    SameLists state.device after.device := by
  rw [Driver.Resources.id_step step]
  cases call with
  | umemSync handleId direction readFromUser =>
      obtain ⟨calls, same, -⟩ := Driver.Resources.umem_sync_synced state.device handleId direction
        readFromUser
      rw [Driver.Resources.Device.afterId, same]
      exact ⟨rfl, rfl⟩
  | driver call =>
      cases call with
      | store write => exact passes.elim
      | umemSgunmap serial => exact passes.elim
      | umemSgunmapAll => exact passes.elim
      | ioctl call =>
          cases call with
          | kmemAlloc size answers =>
              obtain ⟨written, errno, refused⟩ := passes
              rcases kmem_alloc_served size answers with same | ⟨_, _, _, _, _, _, _, _, returned⟩
              · exact same.1
              · rw [returned, if_pos written] at refused
                cases refused
          | umemSgmap vma size answers =>
              obtain ⟨written, errno, refused⟩ := passes
              rcases umem_sgmap_served vma size answers with same | ⟨_, _, _, _, returned⟩
              · exact same.1
              · rw [returned, if_pos written] at refused
                cases refused
          | kmemFree handle readFromUser => exact passes.elim
          | umemSgunmap handleId readFromUser => exact passes.elim
          | kmemSync handle direction readFromUser =>
              obtain ⟨synced, same⟩ := Driver.Resources.ioctl_kmem_sync_device state.device handle
                direction readFromUser
              rw [Driver.Resources.Device.afterId, Driver.Resources.Device.after,
                Driver.Resources.Device.ioctl, same]
              exact ⟨rfl, rfl⟩
          | umemSgget list answers =>
              have kept := (Driver.Resources.umem_sgget_attempt state.device list answers).1.kept
              exact ⟨kept.kmemList, kept.umemList⟩

theorem kmem_free_served (reserved : Page → Bool) {handle : KmemHandle} {entry : KmemBuffer}
    (apart : Distinct (fun entry : KmemBuffer => entry.dmaHandle) device.kmemList)
    (member : entry ∈ device.kmemList) (own : entry.dmaHandle = handle.pa) :
    reply reserved device (.kmemFree handle true) = .ok .done ∧
      (device.ioctl reserved (.kmemFree handle true)).1.kmemList =
        device.kmemList.eraseP (fun other => other.serial = entry.serial) ∧
      (device.ioctl reserved (.kmemFree handle true)).1.umemList = device.umemList := by
  have found := Driver.Resources.find_entry_eq apart member own
  have freed := Driver.Resources.kmem_free_entry_frees device entry
  have served : device.ioctl reserved (.kmemFree handle true) =
      (device.kmemFreeEntry entry, .ok .done) := by
    rw [Driver.Resources.Device.ioctl, Driver.Resources.Device.ioctlKmemFree,
      Driver.Resources.Device.kmemFree, found]
    rfl
  rw [reply, served]
  exact ⟨rfl, freed.kmemList, freed.others.umemList⟩

theorem umem_sgunmap_served (reserved : Page → Bool) {handleId : U32} {entry : UmemBuffer}
    (apart : Distinct (fun entry : UmemBuffer => entry.id) device.umemList)
    (member : entry ∈ device.umemList) (own : entry.id = handleId) :
    reply reserved device (.umemSgunmap handleId true) = .ok .done ∧
      (device.ioctl reserved (.umemSgunmap handleId true)).1.umemList =
        device.umemList.eraseP (fun other => other.serial = entry.serial) ∧
      (device.ioctl reserved (.umemSgunmap handleId true)).1.kmemList = device.kmemList := by
  have found : device.umemFindEntryId handleId = some entry := by
    rw [Driver.Resources.Device.umemFindEntryId, ← own]
    exact apart.find_eq member
  have freed := Driver.Resources.umem_sgunmap_frees reserved device entry
  have served : device.ioctl reserved (.umemSgunmap handleId true) =
      (device.umemSgunmap reserved entry, .ok .done) := by
    rw [Driver.Resources.Device.ioctl, Driver.Resources.Device.ioctlUmemSgunmap, found]
    rfl
  rw [reply, served]
  exact ⟨rfl, freed.umemList, freed.others.kmemList⟩

end Calls

section Owners

variable {kind : Kind} {lease : Lease Kind} {leases others : List (Lease Kind)}

theorem owners_cons (kind : Kind) (id : ℕ) (on : Option ℕ) :
    owners kind (⟨kind, id, on⟩ :: leases) = id :: owners kind leases := by
  rw [owners, List.filter_cons, if_pos (decide_eq_true rfl)]
  rfl

theorem owners_cons_other (lease : Lease Kind) (ofOther : lease.kind ≠ kind) :
    owners kind (lease :: leases) = owners kind leases := by
  rw [owners, List.filter_cons, if_neg (by simpa using ofOther)]
  rfl

theorem owners_perm (perm : leases.Perm others) : (owners kind leases).Perm (owners kind others) :=
  (perm.filter _).map _

theorem not_owner (fresh : ∀ other ∈ leases, other.id ≠ lease.id) :
    lease.id ∉ owners kind leases := by
  intro member
  obtain ⟨other, inside, same⟩ := List.mem_map.mp member
  exact fresh other (List.mem_of_mem_filter inside) same

theorem Mirrored.perm {served : Served} (mirrored : Mirrored leases served)
    (perm : leases.Perm others) : Mirrored others served :=
  ⟨mirrored.buffers.perm (owners_perm perm), mirrored.pages.perm (owners_perm perm)⟩

/-- What the process takes and gives back of its own is on neither list. -/
theorem mirrored_own {served : Served} (own : OfProcess lease) :
    Mirrored (lease :: leases) served ↔ Mirrored leases served := by
  constructor
  · intro mirrored
    have buffers := mirrored.buffers
    have pages := mirrored.pages
    rw [owners_cons_other lease own.1] at buffers
    rw [owners_cons_other lease own.2] at pages
    exact ⟨buffers, pages⟩
  · intro mirrored
    constructor
    · rw [owners_cons_other lease own.1]
      exact mirrored.buffers
    · rw [owners_cons_other lease own.2]
      exact mirrored.pages

end Owners

section Runs

variable {reserved : Page → Bool} {record : List (Event (Lease Kind))} {served : Served}

structure ServedSound (reserved : Page → Bool) (record : List (Event (Lease Kind)))
    (served : Served) : Prop where
  reached : (idSystem reserved).Reachable served.state
  apart : Distinct (fun entry : KmemBuffer => entry.dmaHandle) served.state.device.kmemList
  mirrored : Mirrored (holding record) served
  answered : served.refusals = 0
  accepted : refusals record = 0

theorem orderly_offered {reply : Except Driver.Umem.Errno Reply} {lease : Lease Kind}
    (orderly : Orderly Uses (offered reply lease :: record)) :
    lease ∈ holding record ∧ Orderly Uses record := by
  have parts : 0 < held record lease ∧ Orderly Uses record := by
    unfold offered at orderly
    split at orderly
    · exact ⟨orderly.1, orderly.2.2⟩
    · exact ⟨orderly.1, orderly.2.2⟩
  exact ⟨mem_holding_of_held parts.2 parts.1, parts.2⟩

theorem fresh_offered {reply : Except Driver.Umem.Errno Reply} {lease : Lease Kind}
    (fresh : Fresh (offered reply lease :: record)) : Fresh record := by
  unfold offered at fresh
  split at fresh
  · exact fresh
  · exact fresh

/-- Ids are distinct as long as the counters have not come round. -/
theorem ids_apart {state : NumberedEntries} (reached : (idSystem reserved).Reachable state)
    (few : state.allocations < 2 ^ 31) :
    Distinct (fun entry : UmemBuffer => entry.id) state.device.umemList := by
  have ids := Driver.Resources.reachable_id_books reached few
  obtain ⟨leaked, books⟩ := Driver.Resources.reachable_id_resources reached
  apply List.Nodup.map_on _ (List.Nodup.of_map _ books.umemDistinct)
  intro first firstIn second secondIn same
  apply books.umemDistinct.eq firstIn secondIn
  have handed : ∀ entry ∈ state.device.umemList, entry.sysfsAttr ∈ state.handed := by
    intro entry member
    exact ids.listed _ (List.mem_append_right _ (List.mem_map_of_mem member))
  have alike := ids.ids _ (handed first firstIn) _ (handed second secondIn) rfl same
  exact congrArg Driver.Resources.EntryAttribute.serial alike

theorem few_before {state after : NumberedEntries} {call : IdCall}
    (step : (idSystem reserved).step state call = some after) (few : after.allocations < 2 ^ 31) :
    state.allocations < 2 ^ 31 := by
  rw [Driver.Resources.id_step step] at few
  exact (Nat.le_add_right _ _).trans_lt few

theorem address_told (handles : ℕ → Option KmemHandle) (id : ℕ) (handle : KmemHandle) :
    (fun other => (Function.update handles id (some handle) other).map KmemHandle.pa) =
      Function.update (fun other => (handles other).map KmemHandle.pa) id (some handle.pa) := by
  funext other
  by_cases same : other = id
  · rw [same, Function.update_self, Function.update_self, Option.map_some]
  · rw [Function.update_of_ne same, Function.update_of_ne same]

theorem ServedSound.allocates (sound : ServedSound reserved record served) {id : ℕ} {size : U64}
    {answers : KmemAnswers} {handle : KmemHandle} {after : NumberedEntries}
    (fresh : ∀ other ∈ holding record, other.id ≠ id)
    (step : (idSystem reserved).step served.state (.driver (.ioctl (.kmemAlloc size answers))) =
      some after)
    (returned : reply reserved served.state.device (.kmemAlloc size answers) =
      .ok (.kmemHandle handle)) :
    ServedSound reserved (.taken ⟨.kernelBuffer, id, none⟩ :: record)
      { served with
        state := after
        handles := Function.update served.handles id (some handle)
        numbers := Function.update served.numbers id served.state.device.nextSerial } := by
  obtain ⟨possible, device⟩ := served_device step
  obtain ⟨leaked, books⟩ := Driver.Resources.reachable_id_resources sound.reached
  rcases kmem_alloc_served size answers with ⟨-, errno, refused⟩ |
    ⟨entry, granted, cpua, serial, address, memory, kmemList, umemList, replied⟩
  · rw [returned] at refused
    cases refused
  · have same : granted = handle := by
      rw [returned] at replied
      cases write : answers.writeToUser with
      | false => simp [write] at replied
      | true => simpa [write] using replied.symm
    rw [same] at address memory
    rw [← device] at kmemList umemList
    have absent := fun kind => @not_owner kind ⟨.kernelBuffer, id, none⟩ _ fresh
    refine ⟨sound.reached.next trivial step, ?_, ⟨?_, ?_⟩, sound.answered,
      sound.accepted⟩
    · rw [kmemList]
      apply sound.apart.append_fresh
      rw [address]
      exact Driver.Resources.hands_out_apart possible memory
    · rw [kmemList, address_told, ← serial, ← address]
      apply sound.mirrored.buffers.added (absent .kernelBuffer)
      rw [serial]
      exact fun other member => Nat.ne_of_lt (books.kmemBelow other member)
    · rw [umemList]
      exact sound.mirrored.pages.told (absent .userPages) _

theorem ServedSound.maps (sound : ServedSound reserved record served) {id : ℕ} {on : Option ℕ}
    {vma size : U64} {answers : SgmapAnswers} {handleId : U32} {after : NumberedEntries}
    (fresh : ∀ other ∈ holding record, other.id ≠ id)
    (step : (idSystem reserved).step served.state
      (.driver (.ioctl (.umemSgmap vma size answers))) = some after)
    (returned : reply reserved served.state.device (.umemSgmap vma size answers) =
      .ok (.handleId handleId)) :
    ServedSound reserved (.taken ⟨.userPages, id, on⟩ :: record)
      { served with
        state := after
        ids := Function.update served.ids id (some handleId)
        numbers := Function.update served.numbers id served.state.device.nextSerial } := by
  obtain ⟨-, device⟩ := served_device step
  obtain ⟨leaked, books⟩ := Driver.Resources.reachable_id_resources sound.reached
  rcases umem_sgmap_served vma size answers with ⟨-, errno, refused⟩ |
    ⟨entry, serial, umemList, kmemList, replied⟩
  · rw [returned] at refused
    cases refused
  · have same : entry.id = handleId := by
      rw [returned] at replied
      cases write : answers.writeToUser with
      | false => simp [write] at replied
      | true => simpa [write] using replied.symm
    rw [← device] at kmemList umemList
    have absent := fun kind => @not_owner kind ⟨.userPages, id, on⟩ _ fresh
    refine ⟨sound.reached.next trivial step, ?_, ⟨?_, ?_⟩, sound.answered,
      sound.accepted⟩
    · rw [kmemList]
      exact sound.apart
    · rw [kmemList]
      exact sound.mirrored.buffers.told (absent .kernelBuffer) _
    · rw [umemList, ← serial, ← same]
      apply sound.mirrored.pages.added (absent .userPages)
      rw [serial]
      exact fun other member => Nat.ne_of_lt (books.umemBelow other member)

theorem ServedSound.frees (sound : ServedSound reserved record served) {id : ℕ}
    {handle : KmemHandle} {after : NumberedEntries}
    (held : ⟨.kernelBuffer, id, none⟩ ∈ holding record) (kept : served.handles id = some handle)
    (step : (idSystem reserved).step served.state (.driver (.ioctl (.kmemFree handle true))) =
      some after) :
    ServedSound reserved (offered (reply reserved served.state.device (.kmemFree handle true))
        ⟨.kernelBuffer, id, none⟩ :: record)
      { served with
        state := after
        refusals := served.refusals + refused reserved served.state.device
          (.kmemFree handle true) } := by
  obtain ⟨-, device⟩ := served_device step
  obtain ⟨leaked, books⟩ := Driver.Resources.reachable_id_resources sound.reached
  have split := sound.mirrored.perm (List.perm_cons_erase held)
  have buffers := split.buffers
  rw [owners_cons] at buffers
  obtain ⟨entry, inside, number, key⟩ := buffers.found
  rw [kept, Option.map_some, Option.some.injEq] at key
  obtain ⟨done, kmemList, umemList⟩ := kmem_free_served reserved sound.apart inside key.symm
  rw [← device] at kmemList umemList
  rw [offered, refused, if_pos done, if_pos done]
  refine ⟨sound.reached.next trivial step, ?_, ⟨?_, ?_⟩, sound.answered, sound.accepted⟩
  · rw [kmemList]
    exact sound.apart.erase _
  · rw [kmemList]
    exact buffers.removed books.kmemDistinct inside number
  · rw [umemList]
    have other : (Lease.mk Kind.kernelBuffer id none).kind ≠ .userPages := nofun
    have pages := split.pages
    rw [owners_cons_other _ other] at pages
    exact pages

theorem ServedSound.unmaps (sound : ServedSound reserved record served) {id : ℕ} {on : Option ℕ}
    {handleId : U32} {after : NumberedEntries} (few : served.state.allocations < 2 ^ 31)
    (held : ⟨.userPages, id, on⟩ ∈ holding record) (kept : served.ids id = some handleId)
    (step : (idSystem reserved).step served.state
      (.driver (.ioctl (.umemSgunmap handleId true))) = some after) :
    ServedSound reserved (offered (reply reserved served.state.device (.umemSgunmap handleId true))
        ⟨.userPages, id, on⟩ :: record)
      { served with
        state := after
        refusals := served.refusals + refused reserved served.state.device
          (.umemSgunmap handleId true) } := by
  obtain ⟨-, device⟩ := served_device step
  obtain ⟨leaked, books⟩ := Driver.Resources.reachable_id_resources sound.reached
  have split := sound.mirrored.perm (List.perm_cons_erase held)
  have pages := split.pages
  rw [owners_cons] at pages
  obtain ⟨entry, inside, number, key⟩ := pages.found
  rw [kept, Option.some.injEq] at key
  obtain ⟨done, umemList, kmemList⟩ := umem_sgunmap_served reserved
    (ids_apart sound.reached few) inside key.symm
  rw [← device] at kmemList umemList
  rw [offered, refused, if_pos done, if_pos done]
  refine ⟨sound.reached.next trivial step, ?_, ⟨?_, ?_⟩, sound.answered, sound.accepted⟩
  · rw [kmemList]
    exact sound.apart
  · rw [kmemList]
    have other : (Lease.mk Kind.userPages id on).kind ≠ .kernelBuffer := nofun
    have buffers := split.buffers
    rw [owners_cons_other _ other] at buffers
    exact buffers
  · rw [umemList]
    exact pages.removed books.umemDistinct inside number

theorem serves_sound (serves : Serves reserved record served) (orderly : Orderly Uses record)
    (fresh : Fresh record) (few : served.state.allocations < 2 ^ 31) :
    ServedSound reserved record served := by
  induction serves with
  | @start state initial =>
      constructor
      · exact .start initial
      · rw [initial.1.kmemList]
        exact List.nodup_nil
      · constructor
        · rw [initial.1.kmemList]
          exact Mirrors.empty
        · rw [initial.1.umemList]
          exact Mirrors.empty
      · rfl
      · rfl
  | takes earlier own ih =>
      have sound := ih orderly fresh.2 few
      exact ⟨sound.reached, sound.apart, (mirrored_own own).mpr sound.mirrored, sound.answered,
      sound.accepted⟩
  | @gives record served lease earlier own ih =>
      have sound := ih orderly.2.2 fresh few
      have held := mem_holding_of_held orderly.2.2 orderly.1
      have split := sound.mirrored.perm (List.perm_cons_erase held)
      exact ⟨sound.reached, sound.apart, (mirrored_own own).mp split, sound.answered,
      sound.accepted⟩
  | passes earlier passes step ih =>
      have sound := ih orderly fresh (few_before step few)
      obtain ⟨kmemList, umemList⟩ := passes_lists passes step
      refine ⟨sound.reached.next trivial step, ?_, ⟨?_, ?_⟩, sound.answered,
      sound.accepted⟩
      · rw [kmemList]
        exact sound.apart
      · rw [kmemList]
        exact sound.mirrored.buffers
      · rw [umemList]
        exact sound.mirrored.pages
  | allocates id earlier step returned ih =>
      exact (ih orderly fresh.2 (few_before step few)).allocates fresh.1 step returned
  | frees id earlier kept step ih =>
      obtain ⟨held, before⟩ := orderly_offered orderly
      exact (ih before (fresh_offered fresh) (few_before step few)).frees held kept step
  | maps id on earlier step returned ih =>
      exact (ih orderly fresh.2 (few_before step few)).maps fresh.1 step returned
  | unmaps id on earlier kept step ih =>
      obtain ⟨held, before⟩ := orderly_offered orderly
      have few := few_before step few
      exact (ih before (fresh_offered fresh) few).unmaps few held kept step

/-- For a process that has the device to itself: every buffer and every mapping that a
destructor, or a constructor on its way out, gives back is found by its handle and answered
without an error, so that no destructor throws, and what is on the driver's lists are the
entries of the live buffers and of what failed constructors have left. -/
theorem driver_lists_mirror_buffers {point : Point} (reached : bufferSystem.Reachable point)
    (serves : Serves reserved point.holder.record served)
    (few : served.state.allocations < 2 ^ 31) :
    served.refusals = 0 ∧
    (∀ ended ∈ point.past, ended.refused = 0 ∧
      ∀ buffer, ended.call = .delete buffer → ended.thrown = none) ∧
    ∃ strays, Left point strays ∧
      Mirrored (strays ++ point.live.map DMABuffer.leases).flatten served := by
  obtain ⟨strays, left, holds⟩ := reached_accounted reached
  have sound := serves_sound serves holds.orderly holds.fresh few
  have none_refused : ∀ ended ∈ point.past, ended.refused = 0 := by
    have total := holds.refusals.symm.trans sound.accepted
    intro ended member
    exact List.sum_eq_zero_iff_forall_eq_nat.mp total _ (List.mem_map_of_mem member)
  refine ⟨sound.answered, ?_, strays, left, sound.mirrored.perm holds.holding_perm⟩
  intro ended member
  refine ⟨none_refused ended member, ?_⟩
  intro buffer deletion
  have throws := left.throws_if_refused ended member buffer deletion
  rw [if_pos (none_refused ended member)] at throws
  exact throws

end Runs

def Unseen : Event (Lease Kind) → Prop
  | .taken lease | .given lease => OfProcess lease
  | .refused _ => False

instance : DecidablePred Unseen
  | .taken _ | .given _ => inferInstanceAs (Decidable (_ ∧ _))
  | .refused _ => inferInstanceAs (Decidable False)

theorem Serves.unseen {reserved : Page → Bool} {record : List (Event (Lease Kind))}
    {served : Served} (earlier : Serves reserved record served)
    (events : List (Event (Lease Kind))) (all : ∀ event ∈ events, Unseen event) :
    Serves reserved (events ++ record) served := by
  induction events with
  | nil => exact earlier
  | cons event rest ih =>
      have before := ih fun other member => all other (List.mem_cons_of_mem _ member)
      have own := all event List.mem_cons_self
      cases event with
      | taken lease => exact before.takes own
      | given lease => exact before.gives own
      | refused lease => exact own.elim

def ninthRefused : Point where
  alignUsemem := true
  holder := ⟨[], 0, ⟨fun asked => if asked = 8 then none else some 1, 0, fun _ => 0⟩⟩
  live := []
  past := []

def kernelTaken (object : ℕ) : List (Event (Lease Kind)) :=
  [.taken ⟨.kernelMapping, object + 2, some (object + 1)⟩,
    .taken ⟨.kernelBuffer, object + 1, none⟩, .taken ⟨.kernelMemory, object, none⟩]

def mappedTaken : List (Event (Lease Kind)) :=
  [.given ⟨.driverList, 9, none⟩, .taken ⟨.sgList, 10, none⟩, .taken ⟨.driverList, 9, none⟩,
    .taken ⟨.userPages, 8, some 6⟩, .taken ⟨.userMemory, 7, none⟩,
    .taken ⟨.words true, 6, none⟩]

def unlistedTaken : List (Event (Lease Kind)) :=
  [.given ⟨.descriptorList, 11, none⟩, .given ⟨.userMemory, 15, none⟩,
    .taken ⟨.userMemory, 15, none⟩, .taken ⟨.nativePages, 14, none⟩,
    .taken ⟨.nativeDescriptor, 13, none⟩, .taken ⟨.descriptors, 12, none⟩,
    .taken ⟨.descriptorList, 11, none⟩]

def oneKernel : Point :=
  let stats := (ninthRefused.create (.ofType .kernel 0)).holder.rest.retryStatsKernel
  { ninthRefused with
    holder := ⟨kernelTaken 0, 3, ⟨ninthRefused.holder.rest.answers, 3, stats⟩⟩
    live := [.kernel ⟨1, 2, 0⟩]
    past := [⟨.create (.ofType .kernel 0), none, 0⟩] }

def twoKernels : Point :=
  let stats := (oneKernel.create (.ofType .kernel 0)).holder.rest.retryStatsKernel
  { oneKernel with
    holder := ⟨kernelTaken 3 ++ kernelTaken 0, 6, ⟨ninthRefused.holder.rest.answers, 6, stats⟩⟩
    live := [.kernel ⟨4, 5, 3⟩, .kernel ⟨1, 2, 0⟩]
    past := ⟨.create (.ofType .kernel 0), none, 0⟩ :: oneKernel.past }

def userUnlisted : Point :=
  { twoKernels with
    holder := ⟨unlistedTaken ++ (mappedTaken ++ twoKernels.holder.record), 16,
      { twoKernels.holder.rest with asked := 9 }⟩
    past := ⟨.create (.aligned true), some .userMmapFailed, 0⟩ :: twoKernels.past }

def newDevice : NumberedEntries := ⟨Driver.Resources.emptyDevice, 0, []⟩

def pageAt (dmaHandle : U64) : Ioctl :=
  .kmemAlloc 4096#64 ⟨true, true, ⟨true, true⟩, some (dmaHandle, 0#64), true⟩

def pageMapped (readFromUser : Bool) : Ioctl :=
  let answers := Driver.Resources.onePageMapped 7
  .umemSgmap 0#64 4096#64 { answers with readFromUser := readFromUser }

def listOf (handleId : U32) : Ioctl := .umemSgget ⟨handleId, true, 2#32⟩ ⟨true, true, true, true, true⟩

def stepped (state : NumberedEntries) (call : Ioctl) : NumberedEntries :=
  ((idSystem fun _ => false).step state (.driver (.ioctl call))).getD state

/-- The older of two kernel buffers is deleted after a constructor has failed. -/
theorem driver_lists_mirror_buffers_older : ∃ point served, bufferSystem.Reachable point ∧
    Serves (fun _ => false) point.holder.record served ∧ served.refusals = 0 ∧
    (∀ ended ∈ point.past, ended.refused = 0) ∧
    served.state.device.kmemList.map (fun entry => entry.dmaHandle) = [0x3000#64] ∧
    served.state.device.umemList.map (fun entry => entry.id) = [0#32] := by
  let point := userUnlisted.delete 1 (.kernel ⟨1, 2, 0⟩)
  have start : bufferSystem.Reachable ninthRefused := .start ⟨rfl, rfl, rfl⟩
  have one : bufferSystem.step ninthRefused (.create (.ofType .kernel 0)) = some oneKernel := rfl
  have two : bufferSystem.step oneKernel (.create (.ofType .kernel 0)) = some twoKernels := rfl
  have three : bufferSystem.step twoKernels (.create (.aligned true)) = some userUnlisted := rfl
  have four : bufferSystem.step userUnlisted (.delete 1) = some point := rfl
  have reached := (((start.next trivial one).next trivial two).next trivial three).next trivial four
  let older : KmemHandle := ⟨0x1000#64, 4096#64, 0#32⟩
  let first := stepped newDevice (pageAt 0x1000#64)
  let second := stepped first (pageAt 0x3000#64)
  let third := stepped second (pageMapped true)
  let fourth := stepped third (listOf 0#32)
  let fifth := stepped fourth (pageMapped false)
  let sixth := stepped fifth (.kmemFree older true)
  have fresh : (idSystem fun _ => false).initial newDevice :=
    ⟨Driver.Resources.empty_device_new, fun kind => by cases kind <;> rfl, rfl, rfl⟩
  have firstStep : (idSystem fun _ => false).step newDevice
      (.driver (.ioctl (pageAt 0x1000#64))) = some first := rfl
  have secondStep : (idSystem fun _ => false).step first
      (.driver (.ioctl (pageAt 0x3000#64))) = some second := rfl
  have thirdStep : (idSystem fun _ => false).step second
      (.driver (.ioctl (pageMapped true))) = some third := rfl
  have fourthStep : (idSystem fun _ => false).step third
      (.driver (.ioctl (listOf 0#32))) = some fourth := rfl
  have fifthStep : (idSystem fun _ => false).step fourth
      (.driver (.ioctl (pageMapped false))) = some fifth := rfl
  have sixthStep : (idSystem fun _ => false).step fifth
      (.driver (.ioctl (.kmemFree older true))) = some sixth := rfl
  have reads : Passes (fun _ => false) third.device (.driver (.ioctl (listOf 0#32))) := True.intro
  have refuses : Passes (fun _ => false) fourth.device (.driver (.ioctl (pageMapped false))) :=
    ⟨rfl, _, rfl⟩
  have kernel := ((Serves.start fresh).unseen [.taken ⟨.kernelMemory, 0, none⟩] (by decide)).allocates
    1 firstStep rfl
  have kernels := (kernel.unseen [.taken ⟨.kernelMemory, 3, none⟩, .taken ⟨.kernelMapping, 2, some 1⟩]
    (by decide)).allocates 4 secondStep rfl
  have mapped := (kernels.unseen [.taken ⟨.userMemory, 7, none⟩, .taken ⟨.words true, 6, none⟩,
    .taken ⟨.kernelMapping, 5, some 4⟩] (by decide)).maps 8 (some 6) thirdStep rfl
  have fetched := (mapped.unseen [.taken ⟨.driverList, 9, none⟩] (by decide)).passes reads fourthStep
  have unlisted := (fetched.unseen (unlistedTaken.drop 2 ++ mappedTaken.take 2) (by decide)).passes
    refuses fifthStep
  have freed := (unlisted.unseen (.given ⟨.kernelMapping, 2, some 1⟩ :: unlistedTaken.take 2)
    (by decide)).frees 1 rfl sixthStep
  have serves : Serves (fun _ => false) point.holder.record _ :=
    freed.unseen [.given ⟨.kernelMemory, 0, none⟩] (by decide)
  have calls : sixth.allocations = 4 := rfl
  have mirror := driver_lists_mirror_buffers reached serves (calls.trans_lt (by decide))
  exact ⟨point, _, reached, serves, mirror.1, fun ended member => (mirror.2.1 ended member).1,
    rfl, rfl⟩

end FpgaPcie.Mprace.Lifetime
