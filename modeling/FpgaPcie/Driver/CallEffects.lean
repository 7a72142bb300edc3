import FpgaPcie.Driver.DeviceCalls

/-!
# What a call does to the lists and to what is held

An attempt to allocate takes the resources of an entry one after the other. It ends with
the entry on its list, or it gives back what it took; some failing exits leave a part
behind. Freeing an entry gives back what the entry stands for.
-/

namespace FpgaPcie.Driver.Resources

open FpgaPcie.Holdings
open FpgaPcie.Segments (Segment)
open FpgaPcie.Driver.Entries (EntryKind Direction)
open FpgaPcie.Driver.Umem (Page Errno pageCount scatterlist UmemSgList)

set_option autoImplicit false

section Loops

variable {reserved : Page → Bool} {device : Device}

theorem foldl_take (resources : List Resource) (device : Device) :
    resources.foldl Device.take device =
      { device with record := (resources.map .taken).reverse ++ device.record } := by
  induction resources generalizing device with
  | nil => rfl
  | cons resource rest ih =>
      rw [List.foldl_cons, ih]
      simp [Device.take]

theorem foldl_release_page (pages : List Page) (device : Device) :
    pages.foldl Device.releasePage device =
      { device with
        record := ((pages.map Resource.pageRef).map .given).reverse ++ device.record
        locked := fun page => device.locked page && !decide (page ∈ pages) } := by
  induction pages generalizing device with
  | nil => simp
  | cons first rest ih =>
      have unlocked : (device.releasePage first).locked =
          fun page => device.locked page && !decide (page = first) := by
        funext page
        by_cases here : page = first
        · subst here
          by_cases on : device.locked page <;>
            simp [Device.releasePage, Device.give, Device.unlockPage, on]
        · by_cases on : device.locked first <;>
            simp [Device.releasePage, Device.give, Device.unlockPage, on, here]
      have given : device.releasePage first =
          { device with
            record := .given (.pageRef first) :: device.record
            locked := (device.releasePage first).locked } := by
        by_cases on : device.locked first <;>
          simp [Device.releasePage, Device.give, Device.unlockPage, on]
      rw [List.foldl_cons, ih, given, unlocked]
      simp [Bool.and_assoc]

theorem foldl_lock_user_page (pages : List Page) (device : Device) :
    pages.foldl (Device.lockUserPage reserved) device =
      { device with
        locked := fun page => device.locked page || (decide (page ∈ pages) && !reserved page) } := by
  induction pages generalizing device with
  | nil => simp
  | cons first rest ih =>
      have locks : Device.lockUserPage reserved device first =
          { device with
            locked := fun page =>
              device.locked page || (decide (page = first) && !reserved page) } := by
        by_cases apart : reserved first
        · have none_ : ∀ page, (decide (page = first) && !reserved page) = false := by
            intro page
            by_cases here : page = first <;> simp [here, apart]
          simp [Device.lockUserPage, apart, none_]
        · have set : Function.update device.locked first true = fun page =>
              device.locked page || (decide (page = first) && !reserved page) := by
            funext page
            by_cases here : page = first <;> simp [here, apart]
          simp [Device.lockUserPage, Device.lockPage, apart, set]
      rw [List.foldl_cons, ih, locks]
      simp [Bool.or_assoc, Bool.and_or_distrib_right]

theorem foldl_unmap_page (pages : List Page) (device : Device) :
    pages.foldl (Device.unmapPage reserved) device =
      { device with
        record := ((pages.map Resource.pageRef).map .given).reverse ++ device.record
        locked := fun page =>
          device.locked page && !(decide (page ∈ pages) && !reserved page) } := by
  induction pages generalizing device with
  | nil => simp
  | cons first rest ih =>
      have unmaps : Device.unmapPage reserved device first =
          { device with
            record := .given (.pageRef first) :: device.record
            locked := fun page =>
              device.locked page && !(decide (page = first) && !reserved page) } := by
        by_cases apart : reserved first
        · have none_ : ∀ page, (decide (page = first) && !reserved page) = false := by
            intro page
            by_cases here : page = first <;> simp [here, apart]
          simp only [Device.unmapPage, Device.give, apart, none_]
          simp
        · have cleared : Function.update device.locked first false = fun page =>
              device.locked page && !(decide (page = first) && !reserved page) := by
            funext page
            by_cases here : page = first <;> simp [here, apart]
          simp [Device.unmapPage, Device.give, Device.unlockPage, apart, cleared]
      rw [List.foldl_cons, ih, unmaps]
      simp [Bool.and_assoc, Bool.and_or_distrib_right]

end Loops

structure Kept (before after : Device) : Prop where
  kmemList : after.kmemList = before.kmemList
  umemList : after.umemList = before.umemList
  barsKmapped : after.barsKmapped = before.barsKmapped
  irqEnabled : after.irqEnabled = before.irqEnabled
  synced : after.synced = before.synced

/-- The call takes some of `holds` and gives them back, but for what it leaks. -/
structure Attempt (before after : Device) (holds leaked : List Resource) : Prop where
  kept : Kept before after
  serial : after.nextSerial = before.nextSerial + 1
  moves : ∃ acquired released, acquired <:+ holds ∧ acquired.Perm (leaked ++ released) ∧
    Moves before.record after.record acquired released

namespace KmemAnswers

def NamesFile (answers : KmemAnswers) : Prop :=
  answers.kcallocEntry ∧ answers.sysfs.kstrdupName

instance (answers : KmemAnswers) : Decidable answers.NamesFile :=
  inferInstanceAs (Decidable (_ ∧ _))

end KmemAnswers

/-- What `pcidriver_kmem_alloc` leaves behind: the name of a file that cannot be made, or
the file with its name where there is no memory. -/
def Device.kmemLeaks (device : Device) (answers : KmemAnswers) : List Resource :=
  let attr : EntryAttribute := ⟨.kmem, device.kmemCount, device.nextSerial⟩
  if answers.NamesFile then
    if ¬answers.sysfs.createFile then [.sysfsName attr]
    else if answers.pciAllocConsistent = none then [.sysfsFile attr, .sysfsName attr]
    else []
  else []

section Kmem

variable {device : Device} {size : U64} {answers : KmemAnswers}

/-- `pcidriver_kmem_alloc` fails, or it adds an entry for the memory it got. -/
inductive KmemEffect (device : Device) (size : U64) (answers : KmemAnswers) :
    Device × Except Errno KmemHandle → Prop where
  | fails {after : Device} {errno : Errno}
      (short : ¬(answers.NamesFile ∧ answers.sysfs.createFile ∧ answers.pciAllocConsistent ≠ none))
      (attempt : Attempt device after (kmemHolds device.nextSerial device.kmemCount)
        (device.kmemLeaks answers))
      (locked : after.locked = device.locked) : KmemEffect device size answers (after, .error errno)
  | allocates {after : Device} {dmaHandle cpua : U64}
      (full : answers.NamesFile ∧ answers.sysfs.createFile)
      (memory : answers.pciAllocConsistent = some (dmaHandle, cpua))
      (kmemList : after.kmemList = device.kmemList ++
        [⟨⟨device.kmemCount, dmaHandle, cpua, size⟩, device.nextSerial⟩])
      (others : Kept { device with kmemList := after.kmemList } after)
      (serial : after.nextSerial = device.nextSerial + 1)
      (moves : Moves device.record after.record (kmemHolds device.nextSerial device.kmemCount) [])
      (locked : after.locked = device.locked) :
      KmemEffect device size answers (after, .ok ⟨dmaHandle, size, device.kmemCount⟩)

theorem kmem_alloc_effect (device : Device) (size : U64) (answers : KmemAnswers) :
    KmemEffect device size answers (device.kmemAlloc size answers) := by
  have start := Moves.refl device.record
  by_cases entry : answers.kcallocEntry
  · have taken := start.take (.entryStruct device.nextSerial)
    have back := taken.give (.entryStruct device.nextSerial)
    by_cases name : answers.sysfs.kstrdupName
    · have named := taken.take (.sysfsName ⟨.kmem, device.kmemCount, device.nextSerial⟩)
      by_cases file : answers.sysfs.createFile
      · have filed := named.take (.sysfsFile ⟨.kmem, device.kmemCount, device.nextSerial⟩)
        cases memory : answers.pciAllocConsistent with
        | none =>
            have result := filed.give (.entryStruct device.nextSerial)
            simp only [Device.kmemAlloc, Device.sysfsInitialize, entry, name, file, memory,
              not_true_eq_false, if_false]
            refine .fails (by simp [memory]) ⟨⟨rfl, rfl, rfl, rfl, rfl⟩, rfl, _, _, ?_, ?_, result⟩ rfl
            · exact ⟨[_], rfl⟩
            · simp [Device.kmemLeaks, KmemAnswers.NamesFile, entry, name, file, memory]
        | some area =>
            obtain ⟨dmaHandle, cpua⟩ := area
            simp only [Device.kmemAlloc, Device.sysfsInitialize, entry, name, file, memory,
              not_true_eq_false, if_false]
            exact .allocates ⟨⟨entry, name⟩, file⟩ memory rfl ⟨rfl, rfl, rfl, rfl, rfl⟩ rfl
              (filed.take (.dmaMemory device.nextSerial)) rfl
      · have result := named.give (.entryStruct device.nextSerial)
        simp only [Device.kmemAlloc, Device.sysfsInitialize, entry, name, file,
          not_true_eq_false, if_false]
        refine .fails (by simp [file]) ⟨⟨rfl, rfl, rfl, rfl, rfl⟩, rfl, _, _, ?_, ?_, result⟩ rfl
        · exact ⟨[_, _], rfl⟩
        · simp [Device.kmemLeaks, KmemAnswers.NamesFile, entry, name, file]
    · simp only [Device.kmemAlloc, Device.sysfsInitialize, entry, name,
        not_true_eq_false, if_false]
      refine .fails (by simp [KmemAnswers.NamesFile, name])
        ⟨⟨rfl, rfl, rfl, rfl, rfl⟩, rfl, _, _, ?_, ?_, back⟩ rfl
      · exact ⟨[_, _, _], rfl⟩
      · simp [Device.kmemLeaks, KmemAnswers.NamesFile, name]
  · simp only [Device.kmemAlloc, entry]
    refine .fails (by simp [KmemAnswers.NamesFile, entry])
      ⟨⟨rfl, rfl, rfl, rfl, rfl⟩, rfl, [], [], List.nil_suffix, ?_, start⟩ rfl
    simp [Device.kmemLeaks, KmemAnswers.NamesFile, entry]

end Kmem

namespace SgmapAnswers

variable (answers : SgmapAnswers) (vma size : U64)

/-- The call gets as far as `get_user_pages`. -/
def AsksPages : Prop :=
  size ≠ 0#64 ∧ answers.vmallocPages ∧ 0 < (pageCount vma size).toInt ∧ answers.vmallocSg

instance : Decidable (answers.AsksPages vma size) := inferInstanceAs (Decidable (_ ∧ _))

/-- The pages are all there, they are mapped, and there is an entry for them. -/
def MapsPages : Prop :=
  answers.AsksPages vma size ∧
    ¬(answers.userPages vma size).length < (pageCount vma size).toNat ∧
    (answers.kernel.pciMapSg (scatterlist vma size (answers.userPages vma size))).dma ≠ [] ∧
    answers.kmallocEntry ∧ answers.sysfs.kstrdupName

instance : Decidable (answers.MapsPages vma size) := inferInstanceAs (Decidable (_ ∧ _))

def pagesHad : List Page :=
  if answers.AsksPages vma size then answers.userPages vma size else []

end SgmapAnswers

/-- `pcidriver_umem_sgmap` leaves the name of a file that cannot be made. -/
def Device.umemLeaks (device : Device) (answers : SgmapAnswers) (vma size : U64) : List Resource :=
  if answers.MapsPages vma size ∧ ¬answers.sysfs.createFile then
    [.sysfsName ⟨.umem, device.umemCount, device.nextSerial⟩]
  else []

section Umem

variable {reserved : Page → Bool} {answers : SgmapAnswers} {device : Device} {vma size : U64}

/-- `pcidriver_umem_sgmap` fails and unlocks the pages it had, or it adds an entry for the
pages it mapped and locks them. -/
inductive SgmapEffect (reserved : Page → Bool) (answers : SgmapAnswers) (device : Device)
    (vma size : U64) : Device × Except Errno U32 → Prop where
  | fails {after : Device} {errno : Errno}
      (short : ¬(answers.MapsPages vma size ∧ answers.sysfs.createFile))
      (attempt : Attempt device after (umemHolds device.nextSerial device.umemCount
        (pageCount vma size) (answers.userPages vma size)) (device.umemLeaks answers vma size))
      (locked : after.locked = fun page =>
        device.locked page && !decide (page ∈ answers.pagesHad vma size)) :
      SgmapEffect reserved answers device vma size (after, .error errno)
  | maps {after : Device} {entry : UmemBuffer}
      (full : answers.MapsPages vma size ∧ answers.sysfs.createFile)
      (pages : entry.pages = answers.userPages vma size)
      (serial : entry.serial = device.nextSerial)
      (umemList : after.umemList = device.umemList ++ [entry])
      (others : Kept { device with umemList := after.umemList } after)
      (nextSerial : after.nextSerial = device.nextSerial + 1)
      (moves : Moves device.record after.record entry.holds [])
      (locked : after.locked = fun page =>
        device.locked page || (decide (page ∈ entry.pages) && !reserved page)) :
      SgmapEffect reserved answers device vma size (after, .ok entry.id)

theorem lock_then_release (reserved locked : Page → Bool) (pages : List Page) :
    (fun page => (locked page || (decide (page ∈ pages) && !reserved page)) &&
      !decide (page ∈ pages)) = fun page => locked page && !decide (page ∈ pages) := by
  funext page
  by_cases inside : page ∈ pages <;> simp [inside]

theorem umem_sgmap_unmap_eq (device : Device) (serial : ℕ) (pages : List Page) :
    device.umemSgmapUnmap serial pages =
      { device with
        record := .given (.pageArray serial) :: .given (.sgTable serial) ::
          (((pages.map Resource.pageRef).map .given).reverse ++ device.record)
        locked := fun page => device.locked page && !decide (page ∈ pages) } := by
  rw [Device.umemSgmapUnmap, foldl_release_page]
  rfl

/-- The cleanup from `umem_sgmap_unmap` on completes an exit that gave back the rest. -/
theorem cleanup_attempt {before failed : Device} {holds leaked front back : List Resource}
    {serial : ℕ} {pages : List Page} (kept : Kept before failed)
    (next : failed.nextSerial = before.nextSerial + 1) (same : front.Perm back)
    (moves : Moves before.record failed.record
      (leaked ++ front ++ (pages.map .pageRef ++ [.sgTable serial, .pageArray serial])) back)
    (part : leaked ++ front ++ (pages.map .pageRef ++ [.sgTable serial, .pageArray serial]) <:+
      holds) :
    Attempt before (failed.umemSgmapUnmap serial pages) holds leaked := by
  rw [umem_sgmap_unmap_eq]
  have released := ((moves.give_all (pages.map .pageRef)).give (.sgTable serial)).give
    (.pageArray serial)
  refine ⟨⟨kept.kmemList, kept.umemList, kept.barsKmapped, kept.irqEnabled, kept.synced⟩, next,
    _, _, part, ?_, released⟩
  rw [List.append_assoc]
  apply (List.Perm.refl leaked).append
  rw [List.perm_iff_count]
  intro resource
  have also := same.count_eq resource
  simp only [List.count_append, List.count_cons, List.count_reverse, List.count_nil]
  omega

theorem add_entry_effect {before mapped : Device} {serial : ℕ} {nrPages : U32}
    {pages : List Page} {sg : List (Segment U64)} {empty : sg ≠ []}
    {counted : pages.length = nrPages.toNat}
    (asked : answers.AsksPages vma size)
    (enough : ¬(answers.userPages vma size).length < (pageCount vma size).toNat)
    (mapping : (answers.kernel.pciMapSg (scatterlist vma size (answers.userPages vma size))).dma ≠ [])
    (named : pages = answers.userPages vma size) (number : nrPages = pageCount vma size)
    (drawn : serial = before.nextSerial) (next : mapped.nextSerial = before.nextSerial + 1)
    (kept : Kept before mapped) (count : mapped.umemCount = before.umemCount)
    (moves : Moves before.record mapped.record
      (.sgMapping serial nrPages :: (pages.map .pageRef ++ [.sgTable serial, .pageArray serial])) [])
    (locked : mapped.locked = fun page =>
      before.locked page || (decide (page ∈ pages) && !reserved page)) :
    SgmapEffect reserved answers before vma size
      (Device.umemSgmapAddEntry answers mapped serial nrPages pages counted sg empty) := by
  subst drawn
  have had : answers.pagesHad vma size = pages := (if_pos asked).trans named.symm
  have unlocked : (fun page => mapped.locked page && !decide (page ∈ pages)) =
      fun page => before.locked page && !decide (page ∈ answers.pagesHad vma size) := by
    rw [locked, lock_then_release, had]
  have keeps : Kept before { mapped with umemCount := before.umemCount + 1#32 } :=
    ⟨kept.kmemList, kept.umemList, kept.barsKmapped, kept.irqEnabled, kept.synced⟩
  have turned : [Resource.entryStruct before.nextSerial, .sgMapping before.nextSerial nrPages].Perm
      [.sgMapping before.nextSerial nrPages, .entryStruct before.nextSerial] := .swap _ _ _
  by_cases entry : answers.kmallocEntry
  · have taken := moves.take (.entryStruct before.nextSerial)
    by_cases name : answers.sysfs.kstrdupName
    · have linked := taken.take (.sysfsName ⟨.umem, before.umemCount, before.nextSerial⟩)
      have full : answers.MapsPages vma size := ⟨asked, enough, mapping, entry, name⟩
      by_cases file : answers.sysfs.createFile
      · have filed := linked.take (.sysfsFile ⟨.umem, before.umemCount, before.nextSerial⟩)
        simp only [Device.umemSgmapAddEntry, Device.sysfsInitialize, Device.take, entry, name, file,
          not_true_eq_false, if_false, count]
        refine @SgmapEffect.maps _ _ _ _ _ _
          ⟨⟨before.umemCount, pages, sg, empty⟩, nrPages, _, counted⟩
          ⟨full, file⟩ named rfl ?_ ?_ next filed locked
        · exact congrArg (· ++ [_]) kept.umemList
        · exact ⟨kept.kmemList, rfl, kept.barsKmapped, kept.irqEnabled, kept.synced⟩
      · have back := (linked.give (.entryStruct before.nextSerial)).give
          (.sgMapping before.nextSerial nrPages)
        simp only [Device.umemSgmapAddEntry, Device.sysfsInitialize, Device.take, entry, name, file,
          not_true_eq_false, if_false, count]
        refine .fails (fun both => file both.2) ?_ ?_
        · rw [← named, ← number, Device.umemLeaks, if_pos ⟨full, file⟩]
          exact cleanup_attempt ⟨keeps.1, keeps.2, keeps.3, keeps.4, keeps.5⟩ next turned back
            ⟨[_], rfl⟩
        · rw [Device.umemSgmapNameFail, Device.umemSgmapEntry, umem_sgmap_unmap_eq]
          exact unlocked
    · have none_ : ¬answers.MapsPages vma size := fun full => name full.2.2.2.2
      have back := (taken.give (.entryStruct before.nextSerial)).give
        (.sgMapping before.nextSerial nrPages)
      simp only [Device.umemSgmapAddEntry, Device.sysfsInitialize, Device.take, entry, name,
        not_true_eq_false, if_false, count]
      refine .fails (fun both => none_ both.1) ?_ ?_
      · rw [← named, ← number, Device.umemLeaks, if_neg (fun both => none_ both.1)]
        exact cleanup_attempt ⟨keeps.1, keeps.2, keeps.3, keeps.4, keeps.5⟩ next turned back
          ⟨[_, _], rfl⟩
      · rw [Device.umemSgmapNameFail, Device.umemSgmapEntry, umem_sgmap_unmap_eq]
        exact unlocked
  · have none_ : ¬answers.MapsPages vma size := fun full => entry full.2.2.2.1
    have back := moves.give (.sgMapping before.nextSerial nrPages)
    simp only [Device.umemSgmapAddEntry, entry]
    refine .fails (fun both => none_ both.1) ?_ ?_
    · rw [← named, ← number, Device.umemLeaks, if_neg (fun both => none_ both.1)]
      exact cleanup_attempt ⟨kept.1, kept.2, kept.3, kept.4, kept.5⟩ next (.refl [_]) back
        ⟨[_, _, _], rfl⟩
    · rw [Device.umemSgmapEntry, umem_sgmap_unmap_eq]
      exact unlocked

theorem umem_sgmap_effect (reserved : Page → Bool) (answers : SgmapAnswers) (device : Device)
    (vma size : U64) :
    SgmapEffect reserved answers device vma size
      (Device.umemSgmap reserved answers device vma size) := by
  have start := Moves.refl device.record
  have nothing : ∀ errno, ¬answers.AsksPages vma size →
      SgmapEffect reserved answers device vma size (device.drawSerial, .error errno) := by
    intro errno stops
    refine .fails (fun full => stops full.1.1)
      ⟨⟨rfl, rfl, rfl, rfl, rfl⟩, rfl, [], [], List.nil_suffix, ?_, start⟩ ?_
    · rw [Device.umemLeaks, if_neg (fun full => stops full.1.1)]
      exact .refl _
    · simp [SgmapAnswers.pagesHad, stops, Device.drawSerial]
  by_cases zero : size = 0#64
  · simp only [Device.umemSgmap, zero, if_true]
    exact zero ▸ nothing _ (fun asks => asks.1 zero)
  by_cases array : answers.vmallocPages ∧ 0 < (pageCount vma size).toInt
  · have first := start.take (.pageArray device.nextSerial)
    by_cases table : answers.vmallocSg
    · have asks : answers.AsksPages vma size := ⟨zero, array.1, array.2, table⟩
      have both := first.take (.sgTable device.nextSerial)
      have pages := (both.take_all ((answers.userPages vma size).map .pageRef)).perm
        ((List.reverse_perm _).append (.refl _)) (.refl _)
      simp only [Device.umemSgmap, zero, if_false, array, not_true_eq_false, table, foldl_take,
        foldl_lock_user_page]
      by_cases short : (answers.userPages vma size).length < (pageCount vma size).toNat
      · have stops : ¬answers.MapsPages vma size := fun full => full.2.1 short
        rw [dif_pos short]
        refine .fails (fun full => stops full.1) ?_ ?_
        · rw [Device.umemLeaks, if_neg (fun full => stops full.1)]
          exact cleanup_attempt ⟨rfl, rfl, rfl, rfl, rfl⟩ rfl (.refl []) pages ⟨[_, _, _, _], rfl⟩
        · rw [umem_sgmap_unmap_eq, SgmapAnswers.pagesHad, if_pos asks]
          rfl
      · rw [dif_neg short]
        by_cases empty :
            (answers.kernel.pciMapSg (scatterlist vma size (answers.userPages vma size))).dma = []
        · have stops : ¬answers.MapsPages vma size := fun full => full.2.2.1 empty
          rw [dif_pos empty]
          refine .fails (fun full => stops full.1) ?_ ?_
          · rw [Device.umemLeaks, if_neg (fun full => stops full.1)]
            exact cleanup_attempt ⟨rfl, rfl, rfl, rfl, rfl⟩ rfl (.refl []) pages
              ⟨[_, _, _, _], rfl⟩
          · rw [umem_sgmap_unmap_eq, SgmapAnswers.pagesHad, if_pos asks]
            exact lock_then_release _ _ _
        · rw [dif_neg empty]
          exact add_entry_effect asks short empty rfl rfl rfl rfl ⟨rfl, rfl, rfl, rfl, rfl⟩ rfl
            (pages.take _) rfl
    · have stops : ¬answers.AsksPages vma size := fun asks => table asks.2.2.2
      simp only [Device.umemSgmap, zero, if_false, array, table]
      refine .fails (fun full => stops full.1.1)
        ⟨⟨rfl, rfl, rfl, rfl, rfl⟩, rfl, [.pageArray device.nextSerial], _, ?_, ?_,
          first.give (.pageArray device.nextSerial)⟩ ?_
      · rw [umemHolds]
        refine .trans ?_ ((((List.suffix_cons _ _).trans (List.suffix_cons _ _)).trans
          (List.suffix_cons _ _)).trans (List.suffix_cons _ _))
        exact (List.suffix_cons _ _).trans (List.suffix_append _ _)
      · rw [Device.umemLeaks, if_neg (fun full => stops full.1.1)]
        exact .refl _
      · simp [SgmapAnswers.pagesHad, stops, Device.drawSerial, Device.umemSgmapPages, Device.give,
          Device.take]
  · simp only [Device.umemSgmap, zero, if_false, array]
    exact nothing _ (fun asks => array ⟨asks.2.1, asks.2.2.1⟩)

end Umem

/-- `UMEM_SGGET` refuses the list it is given: the handle is not valid, or the list has too
few entries. -/
def Device.refusesList (device : Device) (list : UmemSgList) : Bool :=
  (device.umemFindEntryId list.handleId).all fun entry =>
    list.nents < BitVec.ofNat 32 entry.sg.length

/-- The copy of the user's list that `UMEM_SGGET` leaves behind. -/
def Device.sggetLeaks (device : Device) (list : UmemSgList) (answers : Umem.SggetOutcome) :
    List Resource :=
  if answers.readList ∧ answers.vmallocSg ∧
      (¬answers.readEntries ∨ device.refusesList list ∨ ¬answers.writeEntries) then
    [.sgList device.nextSerial]
  else []

theorem umem_find_entry_id_eq (device : Device) (id : U32) :
    device.umem.umemFindEntryId id = (device.umemFindEntryId id).map UmemBuffer.toUmemEntry := by
  rw [Umem.Privdata.umemFindEntryId, Device.umem, List.find?_map]
  rfl

theorem umem_sgget_refuses (device : Device) (list : UmemSgList) :
    (∃ errno, Umem.umemSgget device.umem list = .error errno) ↔ device.refusesList list := by
  rw [Umem.umemSgget, umem_find_entry_id_eq, Device.refusesList]
  cases found : device.umemFindEntryId list.handleId with
  | none => simp
  | some entry =>
      simp only [Option.map_some, Option.all_some, decide_eq_true_eq]
      by_cases few : list.nents < BitVec.ofNat 32 entry.sg.length
      · simp [few]
      · by_cases merged : list.merged <;> simp [few, merged]

/-- `UMEM_SGGET` takes a copy of the user's list and nothing else. -/
theorem umem_sgget_attempt (device : Device) (list : UmemSgList) (answers : Umem.SggetOutcome) :
    Attempt device (device.ioctlUmemSgget list answers).1 [.sgList device.nextSerial]
        (device.sggetLeaks list answers) ∧
      (device.ioctlUmemSgget list answers).1.locked = device.locked := by
  have start := Moves.refl device.record
  have taken := start.take (.sgList device.nextSerial)
  by_cases read : answers.readList
  · by_cases room : answers.vmallocSg
    · by_cases entries : answers.readEntries
      · have same : (device.drawSerial.take (.sgList device.nextSerial)).umem = device.umem := rfl
        cases got : Umem.umemSgget device.umem list with
        | error errno =>
            have refuses := (umem_sgget_refuses device list).mp ⟨errno, got⟩
            simp only [Device.ioctlUmemSgget, read, room, entries, not_true_eq_false, if_false, same,
              got]
            refine ⟨⟨⟨rfl, rfl, rfl, rfl, rfl⟩, rfl, _, _, List.suffix_rfl, ?_, taken⟩, rfl⟩
            simp [Device.sggetLeaks, read, room, refuses]
        | ok copied =>
            have accepts : device.refusesList list = false := by
              rw [Bool.eq_false_iff]
              intro refuses
              obtain ⟨errno, refused⟩ := (umem_sgget_refuses device list).mpr refuses
              rw [got] at refused
              cases refused
            by_cases write : answers.writeEntries
            · simp only [Device.ioctlUmemSgget, read, room, entries, not_true_eq_false, if_false,
                same, got, write]
              refine ⟨⟨⟨rfl, rfl, rfl, rfl, rfl⟩, rfl, _, _, List.suffix_rfl, ?_,
                taken.give (.sgList device.nextSerial)⟩, rfl⟩
              simp [Device.sggetLeaks, entries, accepts, write]
            · simp only [Device.ioctlUmemSgget, read, room, entries, not_true_eq_false, if_false,
                same, got, write]
              refine ⟨⟨⟨rfl, rfl, rfl, rfl, rfl⟩, rfl, _, _, List.suffix_rfl, ?_, taken⟩, rfl⟩
              simp [Device.sggetLeaks, read, room, write]
      · simp only [Device.ioctlUmemSgget, read, room, entries, not_true_eq_false, if_false]
        refine ⟨⟨⟨rfl, rfl, rfl, rfl, rfl⟩, rfl, _, _, List.suffix_rfl, ?_, taken⟩, rfl⟩
        simp [Device.sggetLeaks, read, room, entries]
    · simp only [Device.ioctlUmemSgget, read, room, not_true_eq_false, if_false]
      refine ⟨⟨⟨rfl, rfl, rfl, rfl, rfl⟩, rfl, [], [], List.nil_suffix, ?_, start⟩, rfl⟩
      simp [Device.sggetLeaks, room]
  · simp only [Device.ioctlUmemSgget, read]
    refine ⟨⟨⟨rfl, rfl, rfl, rfl, rfl⟩, rfl, [], [], List.nil_suffix, ?_, start⟩, rfl⟩
    simp [Device.sggetLeaks, read]

/-- An entry is taken off `umem_list`, its resources are given back and its pages
unlocked. -/
structure UmemFreed (reserved : Page → Bool) (entry : UmemBuffer) (before after : Device) : Prop where
  umemList : after.umemList = before.umemList.eraseP fun other => other.serial = entry.serial
  others : Kept { before with umemList := after.umemList } after
  nextSerial : after.nextSerial = before.nextSerial
  moves : Moves before.record after.record [] entry.holds
  locked : after.locked = fun page =>
    before.locked page && !(decide (page ∈ entry.pages) && !reserved page)

theorem umem_sgunmap_frees (reserved : Page → Bool) (device : Device) (entry : UmemBuffer) :
    UmemFreed reserved entry device (Device.umemSgunmap reserved device entry) := by
  have front := (((Moves.refl device.record).give (.sysfsFile entry.sysfsAttr)).give
    (.sysfsName entry.sysfsAttr)).give (.sgMapping entry.serial entry.nrPages)
  have back := (((front.give_all (entry.pages.map .pageRef)).give (.pageArray entry.serial)).give
    (.sgTable entry.serial)).give (.entryStruct entry.serial)
  simp only [Device.umemSgunmap, foldl_unmap_page]
  refine ⟨rfl, ⟨rfl, rfl, rfl, rfl, rfl⟩, rfl, back.perm (.refl _) ?_, rfl⟩
  rw [List.perm_iff_count]
  intro resource
  simp only [UmemBuffer.holds, umemHolds, UmemBuffer.sysfsAttr, List.count_append, List.count_cons,
    List.count_reverse, List.count_nil]
  omega

structure KmemFreed (entry : KmemBuffer) (before after : Device) : Prop where
  kmemList : after.kmemList = before.kmemList.eraseP fun other => other.serial = entry.serial
  others : Kept { before with kmemList := after.kmemList } after
  nextSerial : after.nextSerial = before.nextSerial
  moves : Moves before.record after.record [] entry.holds
  locked : after.locked = before.locked

theorem kmem_free_entry_frees (device : Device) (entry : KmemBuffer) :
    KmemFreed entry device (device.kmemFreeEntry entry) := by
  have back := ((((Moves.refl device.record).give (.sysfsFile entry.sysfsAttr)).give
    (.sysfsName entry.sysfsAttr)).give (.dmaMemory entry.serial)).give (.entryStruct entry.serial)
  refine ⟨rfl, ⟨rfl, rfl, rfl, rfl, rfl⟩, rfl, back.perm (.refl _) ?_, rfl⟩
  rw [List.perm_iff_count]
  intro resource
  simp only [KmemBuffer.holds, kmemHolds, KmemBuffer.sysfsAttr, List.count_cons, List.count_nil]
  omega

section Ioctls

variable (reserved : Page → Bool) (device : Device)

theorem ioctl_kmem_alloc_device (size : U64) (answers : KmemAnswers) :
    (device.ioctlKmemAlloc size answers).1 =
      if answers.readFromUser then (device.kmemAlloc size answers).1 else device := by
  by_cases read : answers.readFromUser
  · cases allocated : device.kmemAlloc size answers with
    | mk after result => cases result <;> simp [Device.ioctlKmemAlloc, read, allocated]
  · simp [Device.ioctlKmemAlloc, read]

theorem ioctl_kmem_free_device (handle : KmemHandle) (readFromUser : Bool) :
    (device.ioctlKmemFree handle readFromUser).1 =
      if readFromUser then ((device.kmemFindEntry handle).map device.kmemFreeEntry).getD device
      else device := by
  cases readFromUser with
  | false => rfl
  | true =>
      cases found : device.kmemFindEntry handle <;>
        simp [Device.ioctlKmemFree, Device.kmemFree, found]

theorem ioctl_umem_sgmap_device (vma size : U64) (answers : SgmapAnswers) :
    (Device.ioctlUmemSgmap reserved device vma size answers).1 =
      if answers.readFromUser then (Device.umemSgmap reserved answers device vma size).1
      else device := by
  by_cases read : answers.readFromUser
  · cases mapped : Device.umemSgmap reserved answers device vma size with
    | mk after result => cases result <;> simp [Device.ioctlUmemSgmap, read, mapped]
  · simp [Device.ioctlUmemSgmap, read]

theorem ioctl_umem_sgunmap_device (handleId : U32) (readFromUser : Bool) :
    (Device.ioctlUmemSgunmap reserved device handleId readFromUser).1 =
      if readFromUser then
        ((device.umemFindEntryId handleId).map (Device.umemSgunmap reserved device)).getD device
      else device := by
  cases readFromUser with
  | false => rfl
  | true =>
      cases found : device.umemFindEntryId handleId <;> simp [Device.ioctlUmemSgunmap, found]

theorem ioctl_kmem_sync_device (handle : KmemHandle) (direction : Direction)
    (readFromUser : Bool) :
    ∃ synced, (device.ioctlKmemSync handle direction readFromUser).1 =
      { device with synced := synced } := by
  cases readFromUser with
  | false => exact ⟨_, rfl⟩
  | true =>
      cases found : device.kmemFindEntry handle with
      | none => exact ⟨_, by simp [Device.ioctlKmemSync, Device.kmemSync, found]; rfl⟩
      | some entry =>
          by_cases invalid : direction = .invalid
          · exact ⟨_, by simp [Device.ioctlKmemSync, Device.kmemSync, found, invalid]; rfl⟩
          · exact ⟨_, by simp [Device.ioctlKmemSync, Device.kmemSync, found, invalid]; rfl⟩

end Ioctls

end FpgaPcie.Driver.Resources
