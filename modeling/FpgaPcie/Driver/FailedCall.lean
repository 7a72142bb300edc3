import FpgaPcie.Driver.CallEffects

/-!
# A failing ioctl

An ioctl that returns an error should leave the lists and everything held as they were. It
does unless it fails at a point where the handler forgets what it has: the name of a sysfs
file that cannot be made, the file where the memory is refused, the entry whose handle
cannot be copied to the user, the copy of the user's scatter/gather list.
-/

namespace FpgaPcie.Driver.Resources

open FpgaPcie.Holdings
open FpgaPcie.Driver.Umem (Page Errno)

set_option autoImplicit false

structure Unchanged (before after : Device) : Prop where
  kmemList : after.kmemList = before.kmemList
  umemList : after.umemList = before.umemList
  held : ∀ resource, held after.record resource = held before.record resource

def FailsClean (reserved : Page → Bool) (device : Device) (call : Ioctl) : Prop :=
  ∀ errno, (Device.ioctl reserved device call).2 = .error errno →
    Unchanged device (Device.ioctl reserved device call).1

/-- The call fails, if it does, where the handler does not give back what it has. -/
def Ioctl.FailsLate (device : Device) : Ioctl → Prop
  | .kmemAlloc _ answers => answers.readFromUser ∧ answers.NamesFile ∧
      (¬answers.sysfs.createFile ∨ answers.pciAllocConsistent = none ∨ ¬answers.writeToUser)
  | .umemSgmap vma size answers => answers.readFromUser ∧ answers.MapsPages vma size ∧
      (¬answers.sysfs.createFile ∨ ¬answers.writeToUser)
  | .umemSgget list answers => answers.readList ∧ answers.vmallocSg ∧
      (¬answers.readEntries ∨ device.refusesList list ∨ ¬answers.writeEntries)
  | _ => False

section Calls

variable {reserved : Page → Bool} {device after : Device}

theorem Unchanged.refl (device : Device) : Unchanged device device := ⟨rfl, rfl, fun _ => rfl⟩

theorem Attempt.unchanged_iff {holds leaked : List Resource}
    (attempt : Attempt device after holds leaked) : Unchanged device after ↔ leaked = [] := by
  obtain ⟨acquired, released, -, same, moves⟩ := attempt.moves
  have kept_iff := moves.kept_iff
  constructor
  · intro unchanged
    have equal := (kept_iff.mp unchanged.held).length_eq
    rw [same.length_eq, List.length_append] at equal
    exact List.eq_nil_of_length_eq_zero (by omega)
  · intro same
    subst same
    exact ⟨attempt.kept.kmemList, attempt.kept.umemList, kept_iff.mpr same⟩

theorem fails_clean_iff_of_error {call : Ioctl} {errno : Errno}
    (served : Device.ioctl reserved device call = (after, .error errno)) :
    FailsClean reserved device call ↔ Unchanged device after := by
  rw [FailsClean, served]
  exact ⟨fun clean => clean errno rfl, fun unchanged _ _ => unchanged⟩

/-- An ioctl that got its entry on a list fails only if the user cannot be told; the entry
is on the list then. -/
theorem fails_clean_iff_of_write {call : Ioctl} {reply : Reply} {write : Bool}
    (served : Device.ioctl reserved device call =
      (after, if write then .ok reply else .error .efault))
    (changed : ¬Unchanged device after) : FailsClean reserved device call ↔ write := by
  cases write with
  | true =>
      rw [FailsClean, served]
      exact iff_of_true nofun rfl
  | false =>
      rw [fails_clean_iff_of_error served]
      exact iff_of_false changed nofun

theorem kmem_alloc_clean_iff (reserved : Page → Bool) (device : Device) (size : U64)
    (answers : KmemAnswers) :
    FailsClean reserved device (.kmemAlloc size answers) ↔
      ¬(Ioctl.kmemAlloc size answers).FailsLate device := by
  by_cases read : answers.readFromUser
  · cases allocated : device.kmemAlloc size answers with
    | mk after result =>
        have effect := kmem_alloc_effect device size answers
        rw [allocated] at effect
        cases effect with
        | @fails _ errno short attempt locked =>
            have served : Device.ioctl reserved device (.kmemAlloc size answers) =
                (after, .error errno) := by
              simp [Device.ioctl, Device.ioctlKmemAlloc, read, allocated]
            rw [fails_clean_iff_of_error served, attempt.unchanged_iff, Device.kmemLeaks]
            by_cases name : answers.NamesFile
            · by_cases file : answers.sysfs.createFile
              · have memory : answers.pciAllocConsistent = none :=
                  Classical.byContradiction fun got => short ⟨name, file, got⟩
                simp [Ioctl.FailsLate, read, name, file, memory]
              · simp [Ioctl.FailsLate, read, name, file]
            · simp [Ioctl.FailsLate, name]
        | @allocates _ dmaHandle cpua full memory kmemList others serial moves locked =>
            have served : Device.ioctl reserved device (.kmemAlloc size answers) = (after,
                if answers.writeToUser then .ok (.kmemHandle ⟨dmaHandle, size, device.kmemCount⟩)
                else .error .efault) := by
              simp [Device.ioctl, Device.ioctlKmemAlloc, read, allocated]
            have changed : ¬Unchanged device after := by
              intro unchanged
              have same := unchanged.kmemList.symm.trans kmemList
              simp at same
            rw [fails_clean_iff_of_write served changed]
            simp [Ioctl.FailsLate, read, full, memory]
  · have served : Device.ioctl reserved device (.kmemAlloc size answers) =
        (device, .error .efault) := by
      simp [Device.ioctl, Device.ioctlKmemAlloc, read]
    rw [fails_clean_iff_of_error served]
    exact iff_of_true (.refl device) (fun late => read late.1)

theorem umem_sgmap_clean_iff (reserved : Page → Bool) (device : Device) (vma size : U64)
    (answers : SgmapAnswers) :
    FailsClean reserved device (.umemSgmap vma size answers) ↔
      ¬(Ioctl.umemSgmap vma size answers).FailsLate device := by
  by_cases read : answers.readFromUser
  · cases mapped : Device.umemSgmap reserved answers device vma size with
    | mk after result =>
        have effect := umem_sgmap_effect reserved answers device vma size
        rw [mapped] at effect
        cases effect with
        | @fails _ errno short attempt locked =>
            have served : Device.ioctl reserved device (.umemSgmap vma size answers) =
                (after, .error errno) := by
              simp [Device.ioctl, Device.ioctlUmemSgmap, read, mapped]
            rw [fails_clean_iff_of_error served, attempt.unchanged_iff, Device.umemLeaks]
            by_cases full : answers.MapsPages vma size
            · have file : ¬answers.sysfs.createFile := fun file => short ⟨full, file⟩
              simp [Ioctl.FailsLate, read, full, file]
            · simp [Ioctl.FailsLate, full]
        | @maps _ entry full pages serial umemList others nextSerial moves locked =>
            have served : Device.ioctl reserved device (.umemSgmap vma size answers) = (after,
                if answers.writeToUser then .ok (.handleId entry.id) else .error .efault) := by
              simp [Device.ioctl, Device.ioctlUmemSgmap, read, mapped]
            have changed : ¬Unchanged device after := by
              intro unchanged
              have same := unchanged.umemList.symm.trans umemList
              simp at same
            rw [fails_clean_iff_of_write served changed]
            simp [Ioctl.FailsLate, read, full]
  · have served : Device.ioctl reserved device (.umemSgmap vma size answers) =
        (device, .error .efault) := by
      simp [Device.ioctl, Device.ioctlUmemSgmap, read]
    rw [fails_clean_iff_of_error served]
    exact iff_of_true (.refl device) (fun late => read late.1)

/-- Where `UMEM_SGGET` leaves its copy behind it returns an error. -/
theorem umem_sgget_late_error {list : Umem.UmemSgList} {answers : Umem.SggetOutcome}
    (late : (Ioctl.umemSgget list answers).FailsLate device) :
    ∃ errno, (device.ioctlUmemSgget list answers).2 = .error errno := by
  obtain ⟨read, room, ends⟩ := late
  have same : (device.drawSerial.take (.sgList device.nextSerial)).umem = device.umem := rfl
  by_cases entries : answers.readEntries
  · cases got : Umem.umemSgget device.umem list with
    | error errno =>
        exact ⟨errno, by simp [Device.ioctlUmemSgget, read, room, entries, same, got]⟩
    | ok copied =>
        have accepts : ¬device.refusesList list := by
          intro refuses
          obtain ⟨errno, refused⟩ := (umem_sgget_refuses device list).mpr refuses
          rw [got] at refused
          cases refused
        have write : ¬answers.writeEntries :=
          (ends.resolve_left (not_not.mpr entries)).resolve_left accepts
        exact ⟨.efault, by simp [Device.ioctlUmemSgget, read, room, entries, same, got, write]⟩
  · exact ⟨.efault, by simp [Device.ioctlUmemSgget, read, room, entries]⟩

theorem umem_sgget_clean_iff (reserved : Page → Bool) (device : Device) (list : Umem.UmemSgList)
    (answers : Umem.SggetOutcome) :
    FailsClean reserved device (.umemSgget list answers) ↔
      ¬(Ioctl.umemSgget list answers).FailsLate device := by
  obtain ⟨attempt, -⟩ := umem_sgget_attempt device list answers
  have leaks : device.sggetLeaks list answers = [] ↔
      ¬(Ioctl.umemSgget list answers).FailsLate device := by
    rw [Device.sggetLeaks, ite_eq_right_iff]
    exact ⟨fun never late => List.cons_ne_nil _ _ (never late), fun clean late => absurd late clean⟩
  by_cases late : (Ioctl.umemSgget list answers).FailsLate device
  · obtain ⟨errno, failed⟩ := umem_sgget_late_error late
    have served : Device.ioctl reserved device (.umemSgget list answers) =
        ((device.ioctlUmemSgget list answers).1, .error errno) := Prod.ext rfl failed
    rw [fails_clean_iff_of_error served, attempt.unchanged_iff, leaks]
  · exact iff_of_true (fun _ _ => attempt.unchanged_iff.mpr (leaks.mpr late)) late

theorem kmem_free_clean (reserved : Page → Bool) (device : Device) (handle : KmemHandle)
    (readFromUser : Bool) : FailsClean reserved device (.kmemFree handle readFromUser) := by
  intro errno failed
  cases readFromUser with
  | false => exact .refl device
  | true =>
      cases found : device.kmemFindEntry handle with
      | none =>
          simp only [Device.ioctl, Device.ioctlKmemFree, Device.kmemFree, found]
          exact .refl device
      | some entry => simp [Device.ioctl, Device.ioctlKmemFree, Device.kmemFree, found] at failed

theorem kmem_sync_clean (reserved : Page → Bool) (device : Device) (handle : KmemHandle)
    (direction : Entries.Direction) (readFromUser : Bool) :
    FailsClean reserved device (.kmemSync handle direction readFromUser) := by
  intro errno failed
  cases readFromUser with
  | false => exact .refl device
  | true =>
      cases found : device.kmemFindEntry handle with
      | none =>
          simp only [Device.ioctl, Device.ioctlKmemSync, Device.kmemSync, found]
          exact .refl device
      | some entry =>
          by_cases invalid : direction = .invalid
          · simp only [Device.ioctl, Device.ioctlKmemSync, Device.kmemSync, found, invalid]
            exact .refl device
          · simp [Device.ioctl, Device.ioctlKmemSync, Device.kmemSync, found, invalid] at failed

theorem umem_sgunmap_clean (reserved : Page → Bool) (device : Device) (handleId : U32)
    (readFromUser : Bool) : FailsClean reserved device (.umemSgunmap handleId readFromUser) := by
  intro errno failed
  cases readFromUser with
  | false => exact .refl device
  | true =>
      cases found : device.umemFindEntryId handleId with
      | none =>
          simp only [Device.ioctl, Device.ioctlUmemSgunmap, found]
          exact .refl device
      | some entry => simp [Device.ioctl, Device.ioctlUmemSgunmap, found] at failed

end Calls

/-- An ioctl that fails changes nothing exactly if it does not fail late. -/
theorem failed_call_clean_iff (reserved : Page → Bool) (device : Device) (call : Ioctl) :
    FailsClean reserved device call ↔ ¬call.FailsLate device := by
  cases call with
  | kmemAlloc size answers => exact kmem_alloc_clean_iff reserved device size answers
  | kmemFree handle readFromUser =>
      exact iff_of_true (kmem_free_clean reserved device handle readFromUser) id
  | kmemSync handle direction readFromUser =>
      exact iff_of_true (kmem_sync_clean reserved device handle direction readFromUser) id
  | umemSgmap vma size answers => exact umem_sgmap_clean_iff reserved device vma size answers
  | umemSgunmap handleId readFromUser =>
      exact iff_of_true (umem_sgunmap_clean reserved device handleId readFromUser) id
  | umemSgget list answers => exact umem_sgget_clean_iff reserved device list answers

def noMemory : Ioctl :=
  .kmemAlloc 4096#64 ⟨true, true, ⟨true, true⟩, none, true⟩

theorem failed_allocation_keeps_file : ¬FailsClean (fun _ => false) emptyDevice noMemory := by
  intro clean
  have failed : (Device.ioctl (fun _ => false) emptyDevice noMemory).2 = .error .enomem := rfl
  have same := (clean _ failed).held (.sysfsFile ⟨.kmem, 0#32, 0⟩)
  exact absurd same (by decide)

end FpgaPcie.Driver.Resources
