import FpgaPcie.Driver.PageLock
import FpgaPcie.Driver.ProbeEffects

/-!
# Removing a device

A bound device holds what its probe took, and for every run of calls what its live entries
stand for and what failing calls left behind. `pcidriver_remove` gives back the first, and of
the second the kernel buffers.
-/

namespace FpgaPcie.Driver.Resources

open FpgaPcie.Holdings
open FpgaPcie.Keyed
open FpgaPcie.Transition
open FpgaPcie.Driver.Umem (Page)

set_option autoImplicit false

/-- After the removal, with the lock bits from before the probe: each resource was given
back as often as it was taken, only a page may have been taken more than once, and nothing
of an entry is released behind the private data. -/
structure GivesEverythingBack (locked : Page → Bool) (removed : Device) : Prop where
  given : ∀ resource, givenCount removed.record resource = takenCount removed.record resource
  once : ∀ resource, (∀ page, resource ≠ .pageRef page) → takenCount removed.record resource ≤ 1
  ordered : ∃ later earlier, removed.record = later ++ .given .privdata :: earlier ∧
    ∀ resource, .given resource ∈ later → ¬resource.ofCall
  unlocked : ∀ page, removed.locked page → locked page

def leakedBy (reserved : Page → Bool) : Device → List DriverCall → List Resource
  | _, [] => []
  | device, call :: rest => leakedBy reserved (device.after reserved call) rest ++ device.leaks call

structure SameDevice (start device : Device) : Prop where
  barsKmapped : device.barsKmapped = start.barsKmapped
  irqEnabled : device.irqEnabled = start.irqEnabled
  counts : ∀ resource, ¬resource.ofCall →
    takenCount device.record resource = takenCount start.record resource ∧
      givenCount device.record resource = givenCount start.record resource

section Frame

variable {start before after : Device} {leaks : List Resource}

theorem SameDevice.refl (device : Device) : SameDevice device device :=
  ⟨rfl, rfl, fun _ _ => ⟨rfl, rfl⟩⟩

theorem SameDevice.trans (first : SameDevice start before) (second : SameDevice before after) :
    SameDevice start after where
  barsKmapped := second.barsKmapped.trans first.barsKmapped
  irqEnabled := second.irqEnabled.trans first.irqEnabled
  counts resource other :=
    ⟨(second.counts resource other).1.trans (first.counts resource other).1,
      (second.counts resource other).2.trans (first.counts resource other).2⟩

theorem DeviceEffect.same (effect : DeviceEffect before after leaks) : SameDevice before after := by
  cases effect with
  | kept kmemList umemList barsKmapped irqEnabled nextSerial record =>
      exact ⟨barsKmapped, irqEnabled, fun _ _ => by rw [record]; exact ⟨rfl, rfl⟩⟩
  | attempt named attempt =>
      obtain ⟨kept, -, acquired, released, part, same, moves⟩ := attempt
      have takes := (named.suffix part).ofCall
      have gives : ∀ resource ∈ released, resource.ofCall := fun resource member =>
        takes resource (same.mem_iff.mpr (List.mem_append_right _ member))
      exact ⟨kept.barsKmapped, kept.irqEnabled, fun _ other => moves.others takes gives other⟩
  | kmemAdded entry kmemList others serial nextSerial moves =>
      exact ⟨others.barsKmapped, others.irqEnabled, fun _ other =>
        moves.others (kmem_holds_named _ _).ofCall nofun other⟩
  | umemAdded entry umemList others serial nextSerial moves =>
      exact ⟨others.barsKmapped, others.irqEnabled, fun _ other =>
        moves.others (umem_holds_named _ _ _ _).ofCall nofun other⟩
  | kmemFreed entry member freed =>
      exact ⟨freed.others.barsKmapped, freed.others.irqEnabled, fun _ other =>
        freed.moves.others nofun (kmem_holds_named _ _).ofCall other⟩
  | umemFreed reserved entry member freed =>
      exact ⟨freed.others.barsKmapped, freed.others.irqEnabled, fun _ other =>
        freed.moves.others nofun (umem_holds_named _ _ _ _).ofCall other⟩

end Frame

def LocksOwned (reserved start : Page → Bool) (device : Device) : Prop :=
  ∀ page, device.locked page → start page ∨
    ∃ entry ∈ device.umemList, page ∈ entry.pages ∧ reserved page = false

section Locks

variable {reserved start : Page → Bool} {before after device : Device}

theorem UmemFreed.locks_owned {gone : UmemBuffer} (freed : UmemFreed reserved gone before after)
    (distinct : Distinct UmemBuffer.serial before.umemList) (listed : gone ∈ before.umemList)
    (owned : LocksOwned reserved start before) : LocksOwned reserved start after := by
  intro page on
  rw [freed.locked, Bool.and_eq_true] at on
  rcases owned page on.1 with earlier | ⟨entry, member, inside, free⟩
  · exact Or.inl earlier
  · refine Or.inr ⟨entry, ?_, inside, free⟩
    rw [freed.umemList]
    apply (distinct.mem_erase_other listed ?_).mpr member
    intro same
    subst same
    simp [inside, free] at on

theorem unmaps_listed {call : DriverCall} {entry : UmemBuffer}
    (found : device.unmaps call = some entry) : entry ∈ device.umemList := by
  unfold Device.unmaps at found
  split at found
  · split at found
    · exact List.mem_of_find?_eq_some found
    · cases found
  · split at found
    · cases found
    · exact List.mem_of_find?_eq_some found
  · exact List.mem_of_find?_eq_some found
  · cases found

theorem locks_owned_after (distinct : Distinct UmemBuffer.serial device.umemList)
    (owned : LocksOwned reserved start device) (call : DriverCall) :
    LocksOwned reserved start (device.after reserved call) := by
  cases lock_effect reserved device call with
  | kept none_ noPages umemList locked =>
      intro page on
      rw [locked] at on
      rw [umemList]
      exact owned page on
  | failed none_ umemList locked =>
      intro page on
      rw [locked, Bool.and_eq_true] at on
      rw [umemList]
      exact owned page on.1
  | mapped entry none_ noPages umemList locked =>
      intro page on
      rw [locked, Bool.or_eq_true, Bool.and_eq_true] at on
      rw [umemList]
      rcases on with earlier | ⟨inside, free⟩
      · rcases owned page earlier with before | ⟨other, member, rest⟩
        · exact Or.inl before
        · exact Or.inr ⟨other, List.mem_append_left _ member, rest⟩
      · exact Or.inr ⟨entry, List.mem_append_right _ List.mem_cons_self, by simpa using inside,
          by simpa using free⟩
  | unmapped gone found noPages freed =>
      exact freed.locks_owned distinct (unmaps_listed found) owned
  | cleared all none_ noPages umemList =>
      subst all
      refine (@umem_sgunmap_all_keeps reserved (fun device =>
        Distinct UmemBuffer.serial device.umemList ∧ LocksOwned reserved start device)
        ?_ device ⟨distinct, owned⟩).1.2
      intro device entry member both
      rcases both with ⟨distinct, owned⟩
      have freed := umem_sgunmap_frees reserved device entry
      exact ⟨freed.umemList ▸ distinct.erase _, freed.locks_owned distinct member owned⟩

end Locks

structure Served (reserved : Page → Bool) (start device : Device) (leaked : List Resource) :
    Prop where
  books : Books device leaked
  same : SameDevice start device
  locks : LocksOwned reserved start.locked device

section Runs

variable {reserved : Page → Bool} {start device later : Device} {leaked : List Resource}

theorem Served.of_new (new : device.New) : Served reserved device device [] where
  books := .of_new new
  same := .refl device
  locks _ on := Or.inl on

theorem Served.after (served : Served reserved start device leaked) (call : DriverCall) :
    Served reserved start (device.after reserved call) (device.leaks call ++ leaked) where
  books := served.books.after call
  same := @after_keeps reserved device leaked (fun device _ => SameDevice start device)
    (fun effect same => same.trans effect.same) served.same call
  locks := locks_owned_after served.books.umemDistinct served.locks call

theorem Served.run {calls : List DriverCall} (served : Served reserved start device leaked)
    (run : (deviceSystem reserved).runFrom device calls = some later) :
    Served reserved start later (leakedBy reserved device calls ++ leaked) := by
  induction calls generalizing device leaked with
  | nil =>
      cases run
      exact served
  | cons call rest ih =>
      rw [System.runFrom] at run
      cases step : (deviceSystem reserved).step device call with
      | none => simp [step] at run
      | some middle =>
          simp only [step] at run
          obtain ⟨-, rfl⟩ := step_device step
          rw [leakedBy, List.append_assoc]
          exact ih (served.after call) run

theorem leaked_by_names (device : Device) (calls : List DriverCall) :
    ∀ resource ∈ leakedBy reserved device calls, resource.isName := by
  induction calls generalizing device with
  | nil => exact nofun
  | cons call rest ih =>
      intro resource member
      rcases List.mem_append.mp member with later | now
      · exact ih _ resource later
      · exact leaks_names device call resource now

end Runs

section Holds

variable (barsKmapped : Fin 6 → Bool) (irqEnabled : Bool)

theorem mem_bar_resources {list : List (Fin 6)} {resource : Resource} :
    resource ∈ barResources barsKmapped list ↔
      ∃ bar ∈ list, barsKmapped bar ∧ (resource = .region bar ∨ resource = .barMapping bar) := by
  rw [barResources, List.mem_flatMap]
  refine exists_congr fun bar => and_congr_right ?_
  intro _
  by_cases mapped : barsKmapped bar <;> simp [mapped]

theorem bar_resources_nodup {list : List (Fin 6)} (distinct : list.Nodup) :
    (barResources barsKmapped list).Nodup := by
  induction list with
  | nil => exact List.nodup_nil
  | cons bar rest ih =>
      obtain ⟨fresh, distinctRest⟩ := List.nodup_cons.mp distinct
      have apart : ∀ {resource : Resource}, resource = .region bar ∨ resource = .barMapping bar →
          resource ∉ barResources barsKmapped rest := by
        intro resource this_ member
        obtain ⟨other, inside, -, that⟩ := (mem_bar_resources barsKmapped).mp member
        rcases this_ with rfl | rfl <;> rcases that with same | same <;> cases same <;>
          exact fresh inside
      rw [barResources, List.flatMap_cons]
      by_cases mapped : barsKmapped bar
      · rw [if_pos mapped]
        refine List.nodup_cons.mpr ⟨?_, List.nodup_cons.mpr ⟨apart (Or.inr rfl), ih distinctRest⟩⟩
        intro member
        rcases List.mem_cons.mp member with same | later
        · cases same
        · exact apart (Or.inl rfl) later
      · rw [if_neg mapped]
        exact ih distinctRest

theorem mem_device_holds {resource : Resource} :
    resource ∈ deviceHolds barsKmapped irqEnabled ↔ resource = .charDevice ∨
      (∃ attr ∈ deviceAttributes, resource = .attributeFile attr) ∨
      irqEnabled ∧ resource = .irqHandler ∨
      resource ∈ barResources barsKmapped (List.finRange 6) ∨
      resource ∈ [Resource.classDevice, .privdata, .pciDevice] := by
  have irq : resource ∈ (if irqEnabled then [Resource.irqHandler] else []) ↔
      irqEnabled ∧ resource = .irqHandler := by
    cases irqEnabled <;> simp
  rw [deviceHolds]
  simp only [List.mem_cons, List.mem_append, List.mem_map, irq, or_assoc, eq_comm]

theorem device_holds_nodup : (deviceHolds barsKmapped irqEnabled).Nodup := by
  have files : (deviceAttributes.map Resource.attributeFile).Nodup := by decide
  have bars := bar_resources_nodup barsKmapped (List.nodup_finRange 6)
  have kinds := bar_resources_kinds barsKmapped (List.finRange 6)
  have irq : (if irqEnabled then [Resource.irqHandler] else []).Nodup := by
    cases irqEnabled <;> simp
  have isIrq : ∀ resource ∈ (if irqEnabled then [Resource.irqHandler] else []),
      resource = .irqHandler := by
    cases irqEnabled <;> simp
  rw [deviceHolds]
  refine List.nodup_cons.mpr ⟨?_, files.append ((irq.append bars ?_).append (by decide) ?_) ?_⟩
  · intro member
    simp only [List.mem_append, List.mem_map, List.mem_cons, List.not_mem_nil] at member
    grind [isBarResource]
  · intro resource handler bar
    rw [isIrq resource handler] at bar
    exact absurd (kinds _ bar) (by decide)
  · intro resource front last
    simp only [List.mem_append] at front
    grind [isBarResource]
  · intro resource file others
    simp only [List.mem_append, List.mem_map, List.mem_cons] at file others
    grind [isBarResource]

theorem device_holds_whole : ∀ resource ∈ deviceHolds barsKmapped irqEnabled, ¬resource.ofCall := by
  intro resource member
  have kinds := bar_resources_kinds barsKmapped (List.finRange 6)
  rw [mem_device_holds] at member
  rcases member with rfl | ⟨attr, -, rfl⟩ | ⟨-, rfl⟩ | bar | last
  · decide
  · exact Bool.false_ne_true
  · decide
  · obtain ⟨bar, -, -, rfl | rfl⟩ := (mem_bar_resources _).mp bar <;> exact Bool.false_ne_true
  · simp only [List.mem_cons, List.not_mem_nil, or_false] at last
    rcases last with rfl | rfl | rfl <;> decide

end Holds

/-- A device that was removed; the entries of `umem_list` are as they were. -/
structure Removed (later removed : Device) (leaked : List Resource) : Prop where
  books : Books removed leaked
  kmemList : removed.kmemList = []
  umemList : removed.umemList = later.umemList
  locked : removed.locked = later.locked
  counts : ∀ resource, ¬resource.ofCall →
    takenCount removed.record resource = takenCount later.record resource ∧
      givenCount removed.record resource = givenCount later.record resource +
        (deviceHolds later.barsKmapped later.irqEnabled).count resource
  ordered : ∃ earlier, removed.record = .given .pciDevice :: .given .privdata :: earlier

section Remove

variable {reserved : Page → Bool} {start device later : Device} {leaked released : List Resource}
variable {record : List (Event Resource)}

theorem foldl_give (resources : List Resource) (device : Device) :
    resources.foldl Device.give device =
      { device with record := (resources.map .given).reverse ++ device.record } := by
  induction resources generalizing device with
  | nil => rfl
  | cons resource rest ih =>
      rw [List.foldl_cons, ih]
      simp [Device.give]

/-- The entries do not care for what the whole device gives back. -/
theorem Books.give_whole (books : Books device leaked)
    (moves : Moves device.record record [] released)
    (whole : ∀ resource ∈ released, ¬resource.ofCall) :
    Books { device with record := record } leaked where
  kmemDistinct := books.kmemDistinct
  umemDistinct := books.umemDistinct
  kmemBelow := books.kmemBelow
  umemBelow := books.umemBelow
  once resource number numbered := by
    rw [moves.taken]
    exact books.once resource number numbered
  accounts resource ofCall := by
    have kept := moves.others nofun whole (not_not.mpr ofCall)
    rw [kept.1, kept.2]
    exact books.accounts resource ofCall

theorem kmem_free_all_effect (books : Books device leaked) :
    (Books device.kmemFreeAll leaked ∧ SameDevice device device.kmemFreeAll ∧
        device.kmemFreeAll.umemList = device.umemList ∧
        device.kmemFreeAll.locked = device.locked) ∧
      device.kmemFreeAll.kmemList = [] := by
  refine @kmem_free_all_keeps (fun freed => Books freed leaked ∧ SameDevice device freed ∧
    freed.umemList = device.umemList ∧ freed.locked = device.locked) ?_ device
    ⟨books, .refl device, rfl, rfl⟩
  intro freed entry member facts
  rcases facts with ⟨books, same, umemList, locked⟩
  have frees := kmem_free_entry_frees freed entry
  have effect : DeviceEffect freed (freed.kmemFreeEntry entry) [] := .kmemFreed entry member frees
  exact ⟨effect.books books, same.trans effect.same, frees.others.umemList.trans umemList,
    frees.locked.trans locked⟩

theorem remove_irq_moves (device : Device) :
    ∃ record, device.removeIrq = { device with record := record } ∧
      Moves device.record record [] (barResources device.barsKmapped (List.finRange 6) ++
        if device.irqEnabled then [.irqHandler] else []) := by
  have start := Moves.refl device.record
  cases enabled : device.irqEnabled with
  | true =>
      refine ⟨_, ?_, irq_unmap_moves device.barsKmapped (start.give .irqHandler)⟩
      simp [Device.removeIrq, enabled, Device.give]
  | false =>
      refine ⟨_, ?_, irq_unmap_moves device.barsKmapped start⟩
      simp [Device.removeIrq, enabled]

theorem remove_effect (books : Books later leaked) : Removed later later.remove leaked := by
  have holds := device_holds_whole later.barsKmapped later.irqEnabled
  let files := deviceAttributes.map Resource.attributeFile
  have filesGone := (Moves.refl later.record).give_all files
  have filesWhole : ∀ resource ∈ files.reverse ++ [], ¬resource.ofCall := by decide
  obtain ⟨⟨freedBooks, freedSame, umemList, locked⟩, kmemList⟩ :=
    kmem_free_all_effect (books.give_whole filesGone filesWhole)
  obtain ⟨record, removes, irqGone⟩ := remove_irq_moves
    (Device.kmemFreeAll { later with record := (files.map .given).reverse ++ later.record })
  have result : later.remove = { Device.kmemFreeAll
      { later with record := (files.map .given).reverse ++ later.record } with
      record := .given .pciDevice :: .given .privdata :: .given .classDevice ::
        .given .charDevice :: record } := by
    rw [Device.remove, foldl_give]
    simp only [removes, files]
    rfl
  rw [result]
  generalize Device.kmemFreeAll
    { later with record := (files.map .given).reverse ++ later.record } = freed at *
  have lastGone := (((irqGone.give .charDevice).give .classDevice).give .privdata).give .pciDevice
  rw [freedSame.barsKmapped, freedSame.irqEnabled] at lastGone
  have all : ((Resource.pciDevice :: .privdata :: .classDevice :: .charDevice ::
      (barResources later.barsKmapped (List.finRange 6) ++
        if later.irqEnabled then [Resource.irqHandler] else [])) ++ (files.reverse ++ [])).Perm
      (deviceHolds later.barsKmapped later.irqEnabled) := by
    rw [List.perm_iff_count]
    intro resource
    simp only [deviceHolds, List.count_append, List.count_cons, List.count_reverse, List.count_nil,
      files]
    omega
  refine ⟨freedBooks.give_whole lastGone ?_, kmemList, umemList, locked, ?_, _, rfl⟩
  · exact fun resource member => holds resource (all.mem_iff.mp (List.mem_append_left _ member))
  · intro resource other
    have same := freedSame.counts resource other
    have count := all.count_eq resource
    rw [List.count_append] at count
    rw [lastGone.taken, lastGone.given, same.1, same.2, filesGone.taken, filesGone.given, ← count]
    simp only [List.count_nil]
    omega

end Remove

section History

variable {reserved : Page → Bool} {start later : Device} {leaked : List Resource}

structure JustBound (locked : Page → Bool) (device : Device) : Prop where
  new : device.New
  locks : device.locked = locked
  moves : Moves [] device.record (deviceHolds device.barsKmapped device.irqEnabled) []

theorem just_bound {major : U32} {bars : Bars} {locked : Page → Bool} {deviceCount : U32}
    {answers : ProbeAnswers} {device : Device}
    (bound : (probe major bars locked ⟨deviceCount, []⟩ answers).bound = some device) :
    JustBound locked device := by
  have effect := probe_effect major bars locked ⟨deviceCount, []⟩ answers
  generalize probe major bars locked ⟨deviceCount, []⟩ answers = probed at *
  cases effect with
  | disabled fails => cases bound
  | refused enabled full none_ err deviceCount moves => cases none_.symm.trans bound
  | noMemory enabled room fails none_ err deviceCount moves => cases none_.symm.trans bound
  | failed enabled room privdata fails none_ deviceCount err classDevice =>
      cases none_.symm.trans bound
  | bound enabled room privdata fine is err deviceCount devno kmemList umemList lockBits moves =>
      cases is.symm.trans bound
      refine ⟨⟨kmemList, umemList, ?_, ?_⟩, lockBits, moves⟩
      all_goals
        intro resource ofCall
        have counts := moves.others (device_holds_whole _ _) nofun (not_not.mpr ofCall)
        first | exact counts.1 | exact counts.2

/-- Between the probe and the end, the resources of the whole device are balanced. -/
theorem whole_balanced {locked : Page → Bool} {removed : Device} (bound : JustBound locked start)
    (served : Served reserved start later leaked) (gone : Removed later removed leaked)
    {resource : Resource} (whole : ¬resource.ofCall) :
    takenCount removed.record resource =
        (deviceHolds start.barsKmapped start.irqEnabled).count resource ∧
      givenCount removed.record resource = takenCount removed.record resource := by
  have first := served.same.counts resource whole
  have last := gone.counts resource whole
  have started : takenCount start.record resource =
      (deviceHolds start.barsKmapped start.irqEnabled).count resource := by
    rw [bound.moves.taken]
    exact Nat.zero_add _
  have none_ : givenCount start.record resource = 0 := by
    rw [bound.moves.given]
    rfl
  rw [served.same.barsKmapped, served.same.irqEnabled] at last
  omega

theorem serial_of_call {resource : Resource} (ofCall : resource.ofCall)
    (noPage : ∀ page, resource ≠ .pageRef page) : ∃ number, resource.serial = some number := by
  cases resource with
  | pageRef page => exact absurd rfl (noPage page)
  | entryStruct serial | dmaMemory serial | pageArray serial | sgTable serial | sgList serial =>
      exact ⟨serial, rfl⟩
  | sgMapping serial nrPages => exact ⟨serial, rfl⟩
  | sysfsName attr | sysfsFile attr => exact ⟨attr.serial, rfl⟩
  | _ => cases ofCall

theorem removed_gives_back_iff {locked : Page → Bool} {removed : Device}
    (bound : JustBound locked start) (served : Served reserved start later leaked)
    (names : ∀ resource ∈ leaked, resource.isName) (gone : Removed later removed leaked) :
    GivesEverythingBack locked removed ↔ leaked = [] ∧ later.umemList = [] := by
  have owned : removed.owned = later.umemList.flatMap UmemBuffer.holds := by
    rw [Device.owned, gone.kmemList, gone.umemList]
    rfl
  have accounts := owned ▸ gone.books.accounts
  constructor
  · intro back
    have nothing : ∀ resource ∈ later.umemList.flatMap UmemBuffer.holds ++ leaked,
        ¬resource.ofCall := by
      intro resource member ofCall
      have same := back.given resource
      have count := accounts resource ofCall
      have some_ := List.count_pos_iff.mpr member
      omega
    constructor
    · rw [List.eq_nil_iff_forall_not_mem]
      intro resource member
      apply nothing resource (List.mem_append_right _ member)
      have name := names resource member
      cases resource <;> first | rfl | cases name
    · rw [List.eq_nil_iff_forall_not_mem]
      intro entry member
      refine nothing (.entryStruct entry.serial) (List.mem_append_left _ ?_) rfl
      refine List.mem_flatMap.mpr ⟨entry, member, ?_⟩
      simp [UmemBuffer.holds, umemHolds]
  · intro both
    rcases both with ⟨rfl, unmapped⟩
    rw [unmapped] at accounts
    obtain ⟨earlier, record⟩ := gone.ordered
    refine ⟨?_, ?_, ⟨[.given .pciDevice], earlier, record, ?_⟩, ?_⟩
    · intro resource
      by_cases ofCall : resource.ofCall
      · exact (accounts resource ofCall).symm
      · exact (whole_balanced bound served gone ofCall).2
    · intro resource noPage
      by_cases ofCall : resource.ofCall
      · obtain ⟨number, numbered⟩ := serial_of_call ofCall noPage
        have once := gone.books.once resource number numbered
        split_ifs at once <;> omega
      · rw [(whole_balanced bound served gone ofCall).1]
        exact List.nodup_iff_count_le_one.mp (device_holds_nodup _ _) resource
    · intro resource member
      rw [List.mem_singleton] at member
      cases member
      decide
    · intro page on
      rw [gone.locked] at on
      rcases served.locks page on with before | ⟨entry, member, -⟩
      · exact bound.locks ▸ before
      · rw [unmapped] at member
        exact absurd member List.not_mem_nil

end History

/-- After any run of calls, removing the device gives everything back exactly if no call has
left anything behind and no user memory is mapped. -/
theorem removal_gives_back_iff (major : U32) (bars : Bars) (locked reserved : Page → Bool)
    (deviceCount : U32) (answers : ProbeAnswers) (calls : List DriverCall) {device later : Device}
    (bound : (probe major bars locked ⟨deviceCount, []⟩ answers).bound = some device)
    (run : (deviceSystem reserved).runFrom device calls = some later) :
    GivesEverythingBack locked later.remove ↔
      leakedBy reserved device calls = [] ∧ later.umemList = [] := by
  have start := just_bound bound
  have served := (Served.of_new start.new).run run
  rw [List.append_nil] at served
  exact removed_gives_back_iff start served (leaked_by_names device calls)
    (remove_effect served.books)

theorem removal_gives_back_one_buffer : ∃ device later,
    (probe 250#32 oneBar (fun _ => false) ⟨0#32, []⟩ allSucceeds).bound = some device ∧
      (deviceSystem fun _ => false).runFrom device [allocatePage] = some later ∧
      later.kmemList.length = 1 ∧ GivesEverythingBack (fun _ => false) later.remove := by
  refine ⟨_, _, rfl, rfl, rfl, ?_⟩
  exact (removal_gives_back_iff 250#32 oneBar (fun _ => false) (fun _ => false) 0#32 allSucceeds
    [allocatePage] rfl rfl).mpr ⟨rfl, rfl⟩

theorem removal_keeps_mapped_page : ∃ device later,
    (probe 250#32 oneBar (fun _ => false) ⟨0#32, []⟩ allSucceeds).bound = some device ∧
      (deviceSystem fun _ => false).runFrom device [mapPage 7] = some later ∧
      held later.remove.record (.pageRef 7) = 1 ∧
      ¬GivesEverythingBack (fun _ => false) later.remove := by
  refine ⟨_, _, rfl, rfl, by decide, ?_⟩
  intro back
  exact absurd (back.given (.pageRef 7)) (by decide)

end FpgaPcie.Driver.Resources
