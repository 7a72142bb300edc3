import FpgaPcie.Driver.DeviceBooks

/-!
# References to user pages and scatter/gather mappings

After any run the driver has a reference on a page for every place at which a live entry
names it, one mapping for every live entry, and the tables of the live entries. A failing
`UMEM_SGMAP` leaves none of these behind, whichever exit it takes.
-/

namespace FpgaPcie.Driver.Resources

open FpgaPcie.Holdings
open FpgaPcie.Transition
open FpgaPcie.Driver.Umem (Page)

set_option autoImplicit false

/-- Never allocated; or once, and then one live entry has it or it was freed once. -/
def OwnedOrFreed (device : Device) (table : Resource) (serial : ℕ) : Prop :=
  takenCount device.record table = 0 ∨ takenCount device.record table = 1 ∧
    (givenCount device.record table = 0 ∧
        (∃! entry, entry ∈ device.umemList ∧ entry.serial = serial) ∨
      givenCount device.record table = 1 ∧ ∀ entry ∈ device.umemList, entry.serial ≠ serial)

section Counts

variable {device : Device} {leaked : List Resource}

theorem count_kmem_holds (list : List KmemBuffer) {resource : Resource}
    (other : ∀ entry : KmemBuffer, resource ∉ entry.holds) :
    (list.flatMap KmemBuffer.holds).count resource = 0 := by
  apply List.count_eq_zero_of_not_mem
  intro inside
  obtain ⟨entry, -, member⟩ := List.mem_flatMap.mp inside
  exact other entry member

/-- Of what the entries stand for, a page is there once for every place that names it. -/
theorem count_page_ref (list : List UmemBuffer) (page : Page) :
    (list.flatMap UmemBuffer.holds).count (.pageRef page) =
      (list.map fun entry => entry.pages.count page).sum := by
  rw [List.count_flatMap]
  congr 1
  apply List.map_congr_left
  intro entry _
  have injective : Function.Injective Resource.pageRef := fun _ _ => Resource.pageRef.inj
  simp [UmemBuffer.holds, umemHolds, List.count_append, List.count_map_of_injective _ _ injective]

/-- A resource that only the entry with this number can have is there once if the entry is
on the list. -/
theorem count_own {list : List UmemBuffer} (distinct : Keyed.Distinct UmemBuffer.serial list)
    {resource : Resource} {serial : ℕ} {has : UmemBuffer → Prop} [DecidablePred has]
    (own : ∀ entry : UmemBuffer, entry.holds.count resource = if has entry then 1 else 0)
    (named : ∀ entry, has entry → entry.serial = serial) :
    (list.flatMap UmemBuffer.holds).count resource = if ∃ entry ∈ list, has entry then 1 else 0 := by
  induction list with
  | nil => simp
  | cons first rest ih =>
      obtain ⟨fresh, later⟩ := List.nodup_cons.mp distinct
      rw [List.flatMap_cons, List.count_append, own, ih later]
      by_cases here : has first
      · have none_ : ¬∃ entry ∈ rest, has entry := by
          intro present
          rcases present with ⟨entry, member, also⟩
          have same : entry.serial = first.serial := (named entry also).trans (named first here).symm
          exact fresh (same ▸ List.mem_map_of_mem member)
        simp [here, none_]
      · simp [here]

theorem count_page_refs_other (pages : List Page) {resource : Resource}
    (other : ∀ page, resource ≠ .pageRef page) : (pages.map Resource.pageRef).count resource = 0 := by
  apply List.count_eq_zero_of_not_mem
  intro inside
  obtain ⟨page, -, same⟩ := List.mem_map.mp inside
  exact other page same.symm

theorem count_sg_mapping (entry : UmemBuffer) (serial : ℕ) (nrPages : U32) :
    entry.holds.count (.sgMapping serial nrPages) =
      if entry.serial = serial ∧ entry.nrPages = nrPages then 1 else 0 := by
  have refs : (entry.pages.map Resource.pageRef).count (.sgMapping serial nrPages) = 0 :=
    count_page_refs_other _ nofun
  simp [UmemBuffer.holds, umemHolds, List.count_cons, List.count_append, refs]

theorem count_page_array (entry : UmemBuffer) (serial : ℕ) :
    entry.holds.count (.pageArray serial) = if entry.serial = serial then 1 else 0 := by
  have refs : (entry.pages.map Resource.pageRef).count (.pageArray serial) = 0 :=
    count_page_refs_other _ nofun
  simp [UmemBuffer.holds, umemHolds, List.count_cons, List.count_append, refs]

theorem count_sg_table (entry : UmemBuffer) (serial : ℕ) :
    entry.holds.count (.sgTable serial) = if entry.serial = serial then 1 else 0 := by
  have refs : (entry.pages.map Resource.pageRef).count (.sgTable serial) = 0 :=
    count_page_refs_other _ nofun
  simp [UmemBuffer.holds, umemHolds, List.count_cons, List.count_append, refs]

/-- The kinds of resources that only a umem entry has and that no call leaves behind. -/
def OfUmem (resource : Resource) : Prop :=
  resource.ofCall ∧ ¬resource.isName ∧ ∀ entry : KmemBuffer, resource ∉ entry.holds

theorem Books.accounts_umem (books : Books device leaked)
    (names : ∀ resource ∈ leaked, resource.isName) {resource : Resource} (ofUmem : OfUmem resource) :
    takenCount device.record resource = givenCount device.record resource +
      (device.umemList.flatMap UmemBuffer.holds).count resource := by
  obtain ⟨ofCall, kept, other⟩ := ofUmem
  have absent : leaked.count resource = 0 :=
    List.count_eq_zero_of_not_mem fun member => kept (names _ member)
  rw [books.accounts resource ofCall, Device.owned, List.count_append, List.count_append,
    count_kmem_holds _ other, absent]
  omega

theorem Books.held_umem (books : Books device leaked)
    (names : ∀ resource ∈ leaked, resource.isName) {resource : Resource} (ofUmem : OfUmem resource) :
    held device.record resource = (device.umemList.flatMap UmemBuffer.holds).count resource := by
  rw [held, books.accounts_umem names ofUmem]
  omega

theorem Books.owned_or_freed (books : Books device leaked)
    (names : ∀ resource ∈ leaked, resource.isName) {table : Resource} {serial : ℕ}
    (ofUmem : OfUmem table) (numbered : table.serial = some serial)
    (own : ∀ entry : UmemBuffer, entry.holds.count table = if entry.serial = serial then 1 else 0) :
    OwnedOrFreed device table serial := by
  have balance := books.accounts_umem names ofUmem
  have once : takenCount device.record table ≤ 1 := by
    have taken := books.once table serial numbered
    split_ifs at taken <;> omega
  rw [count_own books.umemDistinct own fun _ => id] at balance
  by_cases live : ∃ entry ∈ device.umemList, entry.serial = serial
  · rw [if_pos live] at balance
    obtain ⟨entry, member, same⟩ := live
    refine Or.inr ⟨by omega, Or.inl ⟨by omega, entry, ⟨member, same⟩, ?_⟩⟩
    intro other both
    rcases both with ⟨inside, also⟩
    exact books.umemDistinct.eq inside member (also.trans same.symm)
  · rw [if_neg live] at balance
    have absent : ∀ entry ∈ device.umemList, entry.serial ≠ serial :=
      fun entry member same => live ⟨entry, member, same⟩
    rcases Nat.eq_zero_or_pos (takenCount device.record table) with never | taken
    · exact Or.inl never
    · exact Or.inr ⟨by omega, Or.inr ⟨by omega, absent⟩⟩

end Counts

/-- References, mappings and tables are those of the live entries, after every call. -/
theorem user_pages_balanced {reserved : Page → Bool} {device : Device}
    (reached : (deviceSystem reserved).Reachable device) :
    (∀ page, held device.record (.pageRef page) =
      (device.umemList.map fun entry => entry.pages.count page).sum) ∧
    (∀ serial nrPages, held device.record (.sgMapping serial nrPages) =
      if ∃ entry ∈ device.umemList, entry.serial = serial ∧ entry.nrPages = nrPages then 1 else 0) ∧
    ∀ serial, OwnedOrFreed device (.pageArray serial) serial ∧
      OwnedOrFreed device (.sgTable serial) serial := by
  obtain ⟨leaked, books, names⟩ := reachable_books reached
  refine ⟨?_, ?_, ?_⟩
  · intro page
    have ofUmem : OfUmem (.pageRef page) :=
      ⟨rfl, Bool.false_ne_true, by simp [KmemBuffer.holds, kmemHolds]⟩
    rw [books.held_umem names ofUmem, count_page_ref]
  · intro serial nrPages
    have ofUmem : OfUmem (.sgMapping serial nrPages) :=
      ⟨rfl, Bool.false_ne_true, by simp [KmemBuffer.holds, kmemHolds]⟩
    rw [books.held_umem names ofUmem, count_own books.umemDistinct
      (fun entry => count_sg_mapping entry serial nrPages) fun _ both => both.1]
    split_ifs <;> rfl
  · intro serial
    have array : OfUmem (.pageArray serial) :=
      ⟨rfl, Bool.false_ne_true, by simp [KmemBuffer.holds, kmemHolds]⟩
    have table : OfUmem (.sgTable serial) :=
      ⟨rfl, Bool.false_ne_true, by simp [KmemBuffer.holds, kmemHolds]⟩
    exact ⟨books.owned_or_freed names array rfl fun entry => count_page_array entry serial,
      books.owned_or_freed names table rfl fun entry => count_sg_table entry serial⟩

def mapOnePage : DriverCall := .ioctl (.umemSgmap 0#64 4096#64 (onePageMapped 7))

theorem user_pages_balanced_shared_page : ∃ twice once : Device,
    held twice.record (.pageRef 7) = 2 ∧ held once.record (.pageRef 7) = 1 ∧
    held once.record (.sgMapping 0 1#32) = 0 ∧ held once.record (.sgMapping 1 1#32) = 1 := by
  let unmap : DriverCall := .ioctl (.umemSgunmap 0#32 true)
  let twice := (emptyDevice.after (fun _ => false) mapOnePage).after (fun _ => false) mapOnePage
  let once := twice.after (fun _ => false) unmap
  have start : (deviceSystem fun _ => false).Reachable emptyDevice := .start empty_device_new
  have both : (deviceSystem fun _ => false).Reachable twice :=
    System.reachable_of_run [mapOnePage, mapOnePage] start (fun _ _ _ => trivial) rfl
  have unmapped : (deviceSystem fun _ => false).step twice unmap = some once := rfl
  have left := user_pages_balanced (both.next trivial unmapped)
  exact ⟨twice, once, (user_pages_balanced both).1 7, left.1 7, left.2.1 0 1#32, left.2.1 1 1#32⟩

end FpgaPcie.Driver.Resources
