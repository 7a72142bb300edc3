import FpgaPcie.Driver.EntryIds

/-!
# Operations that are given an id

A lookup that is given an id finds the entry of the allocation that drew it, or nothing once
that is gone. The sysfs files of different entries have different names.
-/

namespace FpgaPcie.Driver.Resources

open FpgaPcie.Holdings
open FpgaPcie.Keyed
open FpgaPcie.Transition
open FpgaPcie.Driver.Entries (EntryKind Direction)
open FpgaPcie.Driver.Umem (Page Errno UmemSgList)

set_option autoImplicit false

def namebufferSize : ℕ := 16

namespace EntryAttribute

/-- What `fmtstring` has before its `%d`. -/
def fmtPrefix : EntryKind → String
  | .kmem => "kbuf"
  | .umem => "umem"

/-- `snprintf(namebuffer, sizeof(namebuffer), fmtstring, id)`: what is too long is cut off,
with one byte left for the end of the string. -/
def name (attr : EntryAttribute) : String :=
  String.ofList ((fmtPrefix attr.kind ++ toString attr.id.toInt).toList.take (namebufferSize - 1))

end EntryAttribute

section Names

variable {attr : EntryAttribute}

theorem four_letters (kind : EntryKind) :
    (EntryAttribute.fmtPrefix kind).toList.length = 4 := by
  cases kind with
  | kmem => rfl
  | umem => rfl

theorem name_spells (small : attr.id.toNat < 2 ^ 31) :
    attr.name = EntryAttribute.fmtPrefix attr.kind ++ toString attr.id.toNat := by
  have whole : attr.id.toInt = attr.id.toNat := BitVec.toInt_eq_toNat_of_lt (by omega)
  have digits : (Nat.toDigits 10 attr.id.toNat).length ≤ 10 :=
    (Nat.length_toDigits_le_iff (by decide) (by decide)).mpr (by omega)
  have shown : toString (attr.id.toNat : ℤ) = toString attr.id.toNat := rfl
  have short : (EntryAttribute.fmtPrefix attr.kind ++ toString attr.id.toNat).toList.length ≤
      namebufferSize - 1 := by
    rw [String.toList_append, List.length_append, Nat.toString_eq_repr, Nat.toList_repr,
      four_letters, namebufferSize]
    omega
  rw [EntryAttribute.name, whole, shown, List.take_of_length_le short, String.ofList_toList]

theorem name_injective {other : EntryAttribute} (small : attr.id.toNat < 2 ^ 31)
    (smallOther : other.id.toNat < 2 ^ 31) (same : attr.name = other.name) :
    attr.kind = other.kind ∧ attr.id = other.id := by
  rw [name_spells small, name_spells smallOther, ← String.toList_inj, String.toList_append,
    String.toList_append, Nat.toString_eq_repr, Nat.toString_eq_repr, Nat.toList_repr,
    Nat.toList_repr] at same
  have lengths := (four_letters attr.kind).trans (four_letters other.kind).symm
  obtain ⟨front, digits⟩ := List.append_inj same lengths
  constructor
  · revert front
    cases attr.kind <;> cases other.kind <;> simp [EntryAttribute.fmtPrefix]
  · have number := congrArg (fun digits => Nat.ofDigitChars 10 digits 0) digits
    simp only [Nat.ofDigitChars_toDigits (by decide : 1 < 10) (by decide : 10 ≤ 10)] at number
    exact BitVec.eq_of_toNat_eq number

end Names

/-- The ioctls have read their argument; a number that was written to a sysfs file does
parse. -/
inductive IdOperation where
  | umemSgunmap (handleId : U32)
  | umemSgget (list : UmemSgList) (answers : Umem.SggetOutcome)
  | umemSync (handleId : U32) (direction : Direction)
  | storeUmemUnmap (id : U32)
  | storeKmemFree (id : U32)

namespace IdOperation

def kind : IdOperation → EntryKind
  | .storeKmemFree _ => .kmem
  | _ => .umem

def id : IdOperation → U32
  | .umemSgunmap handleId | .umemSync handleId _ => handleId
  | .umemSgget list _ => list.handleId
  | .storeUmemUnmap id | .storeKmemFree id => id

def looksUp : IdOperation → Bool
  | .umemSgget _ answers => answers.readList && answers.vmallocSg && answers.readEntries
  | _ => true

def frees : IdOperation → Bool
  | .umemSgunmap _ | .storeUmemUnmap _ | .storeKmemFree _ => true
  | _ => false

def call : IdOperation → IdCall
  | .umemSgunmap handleId => .driver (.ioctl (.umemSgunmap handleId true))
  | .umemSgget list answers => .driver (.ioctl (.umemSgget list answers))
  | .umemSync handleId direction => .umemSync handleId direction true
  | .storeUmemUnmap id => .driver (.store (.umemUnmap (some id)))
  | .storeKmemFree id => .driver (.store (.kmemFree (some id)))

/-- What an ioctl returns. A write to a sysfs file returns the length of what was written. -/
def reply (reserved : Page → Bool) (device : Device) : IdOperation → Option (Except Errno Reply)
  | .umemSgunmap handleId => some (Device.ioctlUmemSgunmap reserved device handleId true).2
  | .umemSgget list answers => some (device.ioctlUmemSgget list answers).2
  | .umemSync handleId direction => some (device.ioctlUmemSync handleId direction true).2
  | .storeUmemUnmap _ | .storeKmemFree _ => none

def Means (operation : IdOperation) (attr : EntryAttribute) : Prop :=
  attr.kind = operation.kind ∧ attr.id = operation.id

end IdOperation

/-- `UMEM_SGGET` makes a copy of the user's list; no other operation takes anything. -/
def CopiesOnly (before after : Device) : Prop :=
  ∀ resource, resource ≠ .sgList before.nextSerial →
    takenCount after.record resource = takenCount before.record resource

/-- The lists, the counters, the locks, what is held and what was synchronised are as
before. -/
structure LeftAlone (before after : Device) : Prop where
  state : after = { before with nextSerial := after.nextSerial, record := after.record }
  taken : ∀ resource, takenCount after.record resource = takenCount before.record resource
  given : ∀ resource, givenCount after.record resource = givenCount before.record resource

structure Untouched (before after : Device) : Prop where
  state : after = { before with nextSerial := after.nextSerial, record := after.record }
  copies : CopiesOnly before after
  given : ∀ resource, resource ≠ .sgList before.nextSerial →
    givenCount after.record resource = givenCount before.record resource

structure ActsOnlyOn (attr : EntryAttribute) (holds : List Resource) (before after : Device) :
    Prop where
  kmemList : ∀ entry : KmemBuffer, entry.sysfsAttr ≠ attr →
    (entry ∈ after.kmemList ↔ entry ∈ before.kmemList)
  umemList : ∀ entry : UmemBuffer, entry.sysfsAttr ≠ attr →
    (entry ∈ after.umemList ↔ entry ∈ before.umemList)
  count : after.count = before.count
  barsKmapped : after.barsKmapped = before.barsKmapped
  irqEnabled : after.irqEnabled = before.irqEnabled
  copies : CopiesOnly before after
  given : ∀ resource, resource ∉ holds → resource ≠ .sgList before.nextSerial →
    givenCount after.record resource = givenCount before.record resource
  locked : ∀ page, .pageRef page ∉ holds → after.locked page = before.locked page
  synced : ∃ calls, after.synced = before.synced ++ calls ∧ ∀ call ∈ calls, call.1 = attr.serial

def Device.Lists (device : Device) (attr : EntryAttribute) (holds : List Resource) : Prop :=
  (∃ entry ∈ device.kmemList, entry.sysfsAttr = attr ∧ entry.holds = holds) ∨
    ∃ entry ∈ device.umemList, entry.sysfsAttr = attr ∧ entry.holds = holds

def Device.only (device : Device) (attr : EntryAttribute) : Device :=
  { device with
    kmemList := device.kmemList.filter fun entry => entry.sysfsAttr = attr
    umemList := device.umemList.filter fun entry => entry.sysfsAttr = attr }

/-- What was handed out under an id is what an operation with that id acts on and replies
about, and it does nothing if that is gone or never was. -/
structure MeansHanded (reserved : Page → Bool) (state : NumberedEntries) (operation : IdOperation) :
    Prop where
  acts : ∀ attr ∈ state.handed, operation.Means attr → ∀ holds, state.device.Lists attr holds →
    ActsOnlyOn attr holds state.device (state.device.afterId reserved operation.call)
  frees : ∀ attr ∈ state.handed, operation.Means attr → operation.frees →
    attr ∉ (state.device.afterId reserved operation.call).listed
  replies : ∀ attr ∈ state.handed, operation.Means attr → ∀ holds, state.device.Lists attr holds →
    operation.reply reserved state.device = operation.reply reserved (state.device.only attr)
  gone : (∀ attr ∈ state.handed, operation.Means attr → ∀ holds, ¬state.device.Lists attr holds) →
    LeftAlone state.device (state.device.afterId reserved operation.call) ∧
      (operation.looksUp → ∀ reply ∈ operation.reply reserved state.device,
        reply = .error .einval)

/-- `UMEM_SGGET` has made its copy of the user's list before it looks for an entry that is not
there. -/
def Device.LosesCopy (device : Device) : IdOperation → Prop
  | .umemSgget list answers => answers.readList ∧ answers.vmallocSg ∧
      device.umemFindEntryId list.handleId = none
  | _ => False

structure IdsApart (state : NumberedEntries) : Prop where
  handed : ∀ first ∈ state.handed, ∀ second ∈ state.handed, first.kind = second.kind →
    first.id = second.id → first = second
  listed : ∀ attr ∈ state.device.listed, attr ∈ state.handed
  kmemDistinct : Distinct (fun entry : KmemBuffer => entry.id) state.device.kmemList
  umemDistinct : Distinct (fun entry : UmemBuffer => entry.id) state.device.umemList
  kmemBelow : ∀ entry ∈ state.device.kmemList,
    0 ≤ entry.id.toInt ∧ entry.id.toInt < state.device.kmemCount.toInt
  umemBelow : ∀ entry ∈ state.device.umemList,
    0 ≤ entry.id.toInt ∧ entry.id.toInt < state.device.umemCount.toInt
  once : ∀ attr, held state.device.record (.sysfsFile attr) ≤ 1
  names : ∀ first second, state.device.Registered first → state.device.Registered second →
    first.name = second.name → first = second
  kmemNamed : ∀ entry ∈ state.device.kmemList, state.device.Registered entry.sysfsAttr ∧
    entry.sysfsAttr.name = "kbuf" ++ toString entry.id.toNat
  umemNamed : ∀ entry ∈ state.device.umemList, state.device.Registered entry.sysfsAttr ∧
    entry.sysfsAttr.name = "umem" ++ toString entry.id.toNat

section Apart

variable {state : NumberedEntries} {leaked : List Resource}

theorem id_distinct {Entry : Type*} {list : List Entry} (attr : Entry → EntryAttribute)
    (books : IdBooks state) (member : ∀ entry ∈ list, attr entry ∈ state.handed)
    (kind : ∀ entry other : Entry, (attr entry).kind = (attr other).kind)
    (serials : Distinct (fun entry => (attr entry).serial) list) :
    Distinct (fun entry => (attr entry).id) list := by
  apply List.Nodup.map_on _ (List.Nodup.of_map _ serials)
  intro first firstIn second secondIn same
  have one := books.ids _ (member first firstIn) _ (member second secondIn) (kind first second) same
  exact serials.eq firstIn secondIn (congrArg EntryAttribute.serial one)

theorem handed_small (books : IdBooks state) (few : state.allocations < 2 ^ 31)
    {attr : EntryAttribute} (member : attr ∈ state.handed) :
    attr.id.toNat < 2 ^ 31 ∧ 0 ≤ attr.id.toInt ∧
      attr.id.toInt < (state.device.count attr.kind).toInt := by
  have below := (books.below attr member).1
  have counted := books.counted attr.kind
  rw [BitVec.toInt_eq_toNat_of_lt (x := attr.id) (by omega),
    BitVec.toInt_eq_toNat_of_lt (x := state.device.count attr.kind) (by omega)]
  omega

theorem kmem_listed {entry : KmemBuffer} (member : entry ∈ state.device.kmemList) :
    entry.sysfsAttr ∈ state.device.listed :=
  List.mem_append_left _ (List.mem_map_of_mem member)

theorem umem_listed {entry : UmemBuffer} (member : entry ∈ state.device.umemList) :
    entry.sysfsAttr ∈ state.device.listed :=
  List.mem_append_right _ (List.mem_map_of_mem member)

/-- The file of a listed entry is one of the resources the entry stands for. -/
theorem listed_registered (books : Books state.device leaked) {attr : EntryAttribute}
    (owned : .sysfsFile attr ∈ state.device.owned) : state.device.Registered attr := by
  have account : held state.device.record (.sysfsFile attr) = _ := books.accounts.held_eq rfl
  have some_ : 0 < (state.device.owned ++ leaked).count (.sysfsFile attr) :=
    List.count_pos_iff.mpr (List.mem_append_left _ owned)
  rw [Device.Registered, account]
  exact_mod_cast some_

theorem registered_handed (books : IdBooks state) {attr : EntryAttribute}
    (registered : state.device.Registered attr) : attr ∈ state.handed := by
  apply books.files
  rw [Device.Registered, held] at registered
  omega

theorem ids_apart (books : IdBooks state) (resources : Books state.device leaked)
    (few : state.allocations < 2 ^ 31) : IdsApart state := by
  have kmemHanded : ∀ entry ∈ state.device.kmemList, entry.sysfsAttr ∈ state.handed :=
    fun entry member => books.listed _ (kmem_listed member)
  have umemHanded : ∀ entry ∈ state.device.umemList, entry.sysfsAttr ∈ state.handed :=
    fun entry member => books.listed _ (umem_listed member)
  constructor
  · exact books.ids
  · exact books.listed
  · exact id_distinct KmemBuffer.sysfsAttr books kmemHanded (fun _ _ => rfl)
      resources.kmemDistinct
  · exact id_distinct UmemBuffer.sysfsAttr books umemHanded (fun _ _ => rfl)
      resources.umemDistinct
  · exact fun entry member => (handed_small books few (kmemHanded entry member)).2
  · exact fun entry member => (handed_small books few (umemHanded entry member)).2
  · intro attr
    have once := resources.once (.sysfsFile attr) attr.serial rfl
    rw [held]
    split at once <;> omega
  · intro first second firstThere secondThere same
    have firstIn := registered_handed books firstThere
    have secondIn := registered_handed books secondThere
    obtain ⟨kind, id⟩ := name_injective (handed_small books few firstIn).1
      (handed_small books few secondIn).1 same
    exact books.ids first firstIn second secondIn kind id
  · intro entry member
    constructor
    · apply listed_registered resources
      apply List.mem_append_left
      exact List.mem_flatMap.mpr ⟨entry, member, by simp [KmemBuffer.holds, kmemHolds,
        KmemBuffer.sysfsAttr]⟩
    · exact name_spells (handed_small books few (kmemHanded entry member)).1
  · intro entry member
    constructor
    · apply listed_registered resources
      apply List.mem_append_right
      exact List.mem_flatMap.mpr ⟨entry, member, by simp [UmemBuffer.holds, umemHolds,
        UmemBuffer.sysfsAttr]⟩
    · exact name_spells (handed_small books few (umemHanded entry member)).1

theorem LeftAlone.refl (device : Device) : LeftAlone device device :=
  ⟨rfl, fun _ => rfl, fun _ => rfl⟩

theorem Untouched.acts_only {before after : Device} (untouched : Untouched before after)
    (attr : EntryAttribute) (holds : List Resource) : ActsOnlyOn attr holds before after := by
  obtain ⟨same, copies, given⟩ := untouched
  have synced : after.synced = before.synced := by rw [same]
  constructor
  · intro entry _
    rw [same]
  · intro entry _
    rw [same]
  · rw [same]
    rfl
  · rw [same]
  · rw [same]
  · exact copies
  · exact fun resource _ other => given resource other
  · intro page _
    rw [same]
  · exact ⟨[], by rw [synced, List.append_nil], nofun⟩

theorem sgget_untouched (device : Device) (list : UmemSgList) (answers : Umem.SggetOutcome) :
    Untouched device (device.ioctlUmemSgget list answers).1 := by
  obtain ⟨record, same, others⟩ := sgget_state device list answers
  rw [same]
  exact ⟨rfl, fun resource other => (others resource other).1,
    fun resource other => (others resource other).2⟩

theorem sgunmap_acts_only {reserved : Page → Bool} (books : Books state.device leaked)
    {entry : UmemBuffer} (member : entry ∈ state.device.umemList) :
    ActsOnlyOn entry.sysfsAttr entry.holds state.device
      (Device.umemSgunmap reserved state.device entry) := by
  have freed := umem_sgunmap_frees reserved state.device entry
  constructor
  · intro other _
    rw [freed.others.kmemList]
  · intro other differs
    rw [freed.umemList]
    apply books.umemDistinct.mem_erase_other member
    intro same
    exact differs (congrArg UmemBuffer.sysfsAttr same)
  · exact umem_sgunmap_count state.device entry
  · exact freed.others.barsKmapped
  · exact freed.others.irqEnabled
  · intro resource _
    exact freed.moves.taken resource
  · intro resource outside _
    rw [freed.moves.given, List.count_eq_zero_of_not_mem outside, Nat.add_zero]
  · intro page outside
    have absent : page ∉ entry.pages := by
      intro inside
      exact outside (mem_umem_holds.mpr (Or.inr ⟨page, inside, rfl⟩))
    rw [freed.locked]
    simp [absent]
  · exact ⟨[], freed.others.synced.trans (List.append_nil _).symm, nofun⟩

theorem free_entry_acts_only (books : Books state.device leaked) {entry : KmemBuffer}
    (member : entry ∈ state.device.kmemList) :
    ActsOnlyOn entry.sysfsAttr entry.holds state.device (state.device.kmemFreeEntry entry) := by
  have freed := kmem_free_entry_frees state.device entry
  constructor
  · intro other differs
    rw [freed.kmemList]
    apply books.kmemDistinct.mem_erase_other member
    intro same
    exact differs (congrArg KmemBuffer.sysfsAttr same)
  · intro other _
    rw [freed.others.umemList]
  · rfl
  · exact freed.others.barsKmapped
  · exact freed.others.irqEnabled
  · intro resource _
    exact freed.moves.taken resource
  · intro resource outside _
    rw [freed.moves.given, List.count_eq_zero_of_not_mem outside, Nat.add_zero]
  · intro page _
    rw [freed.locked]
  · exact ⟨[], freed.others.synced.trans (List.append_nil _).symm, nofun⟩

/-- The lookups find the entry of the allocation that drew the id. -/
theorem umem_found (apart : IdsApart state) {attr : EntryAttribute} {holds : List Resource}
    (kind : attr.kind = .umem) (lists : state.device.Lists attr holds) :
    ∃ entry ∈ state.device.umemList, entry.sysfsAttr = attr ∧ entry.holds = holds ∧
      state.device.umemFindEntryId attr.id = some entry := by
  rcases lists with ⟨entry, -, rfl, -⟩ | ⟨entry, member, rfl, rfl⟩
  · cases kind
  · exact ⟨entry, member, rfl, rfl, apart.umemDistinct.find_eq member⟩

theorem kmem_found (apart : IdsApart state) {attr : EntryAttribute} {holds : List Resource}
    (kind : attr.kind = .kmem) (lists : state.device.Lists attr holds) :
    ∃ entry ∈ state.device.kmemList, entry.sysfsAttr = attr ∧ entry.holds = holds ∧
      state.device.kmemFindEntryId attr.id = some entry := by
  rcases lists with ⟨entry, member, rfl, rfl⟩ | ⟨entry, -, rfl, -⟩
  · exact ⟨entry, member, rfl, rfl, apart.kmemDistinct.find_eq member⟩
  · cases kind

theorem id_below_count {kind : EntryKind} {id : U32} (books : IdBooks state)
    (member : ∃ attr ∈ state.handed, attr.kind = kind ∧ attr.id = id) :
    ¬id ≥ state.device.count kind := by
  obtain ⟨attr, inside, rfl, rfl⟩ := member
  exact BitVec.not_le.mpr (BitVec.lt_def.mpr (books.below attr inside).1)

/-- Unmapping by id is unmapping the entry that the lookup finds. -/
theorem unmaps_found {reserved : Page → Bool} {operation : IdOperation} {entry : UmemBuffer}
    (frees : operation.frees) (kind : operation.kind = .umem)
    (below : ¬operation.id ≥ state.device.umemCount)
    (found : state.device.umemFindEntryId operation.id = some entry) :
    state.device.afterId reserved operation.call =
      Device.umemSgunmap reserved state.device entry := by
  cases operation with
  | umemSgunmap handleId =>
      simp only [IdOperation.call, Device.afterId, Device.after, Device.ioctl,
        ioctl_umem_sgunmap_device, if_true]
      rw [show state.device.umemFindEntryId handleId = some entry from found]
      rfl
  | umemSgget list answers => cases frees
  | umemSync handleId direction => cases frees
  | storeUmemUnmap id =>
      simp only [IdOperation.call, Device.afterId, Device.after, Device.store]
      rw [if_neg (show ¬id ≥ state.device.umemCount from below),
        show state.device.umemFindEntryId id = some entry from found]
      rfl
  | storeKmemFree id => cases kind

theorem frees_found {reserved : Page → Bool} {operation : IdOperation} {entry : KmemBuffer}
    (kind : operation.kind = .kmem) (below : ¬operation.id ≥ state.device.kmemCount)
    (found : state.device.kmemFindEntryId operation.id = some entry) :
    state.device.afterId reserved operation.call = state.device.kmemFreeEntry entry := by
  cases operation with
  | storeKmemFree id =>
      simp only [IdOperation.call, Device.afterId, Device.after, Device.store]
      rw [if_neg (show ¬id ≥ state.device.kmemCount from below),
        show state.device.kmemFindEntryId id = some entry from found]
      rfl
  | _ => cases kind

theorem sync_acts_only {reserved : Page → Bool} (apart : IdsApart state) {handleId : U32}
    (direction : Direction) {entry : UmemBuffer} (inside : entry ∈ state.device.umemList)
    (id : entry.id = handleId) :
    ActsOnlyOn entry.sysfsAttr entry.holds state.device
      (state.device.afterId reserved (.umemSync handleId direction true)) := by
  obtain ⟨calls, same, about⟩ := umem_sync_synced state.device handleId direction true
  rw [Device.afterId, same]
  refine ⟨fun _ _ => Iff.rfl, fun _ _ => Iff.rfl, rfl, rfl, rfl, fun _ _ => rfl,
    fun _ _ _ => rfl, fun _ _ => rfl, calls, rfl, ?_⟩
  intro call synced
  obtain ⟨other, otherIn, otherId, serial⟩ := about call synced
  rw [serial, apart.umemDistinct.eq otherIn inside (otherId.trans id.symm)]
  rfl

theorem means_acts {reserved : Page → Bool} (books : IdBooks state)
    (resources : Books state.device leaked) (apart : IdsApart state) (operation : IdOperation)
    {attr : EntryAttribute} (member : attr ∈ state.handed) (means : operation.Means attr)
    {holds : List Resource} (lists : state.device.Lists attr holds) :
    ActsOnlyOn attr holds state.device (state.device.afterId reserved operation.call) := by
  obtain ⟨kind, id⟩ := means
  have below := id_below_count books ⟨attr, member, kind, id⟩
  cases operation with
  | umemSgunmap handleId =>
      obtain ⟨entry, inside, rfl, rfl, found⟩ := umem_found apart kind lists
      rw [unmaps_found rfl rfl below (id ▸ found)]
      exact sgunmap_acts_only resources inside
  | umemSgget list answers => exact (sgget_untouched state.device list answers).acts_only attr holds
  | umemSync handleId direction =>
      obtain ⟨entry, inside, rfl, rfl, -⟩ := umem_found apart kind lists
      exact sync_acts_only apart direction inside id
  | storeUmemUnmap number =>
      obtain ⟨entry, inside, rfl, rfl, found⟩ := umem_found apart kind lists
      rw [unmaps_found rfl rfl below (id ▸ found)]
      exact sgunmap_acts_only resources inside
  | storeKmemFree number =>
      obtain ⟨entry, inside, rfl, rfl, found⟩ := kmem_found apart kind lists
      rw [frees_found rfl below (id ▸ found)]
      exact free_entry_acts_only resources inside

theorem listed_lists {device : Device} {attr : EntryAttribute} (listed : attr ∈ device.listed) :
    ∃ holds, device.Lists attr holds := by
  rcases List.mem_append.mp listed with kmem | umem
  · obtain ⟨entry, member, same⟩ := List.mem_map.mp kmem
    exact ⟨_, Or.inl ⟨entry, member, same, rfl⟩⟩
  · obtain ⟨entry, member, same⟩ := List.mem_map.mp umem
    exact ⟨_, Or.inr ⟨entry, member, same, rfl⟩⟩

theorem sgunmap_unlists {reserved : Page → Bool} (books : Books state.device leaked)
    (entry : UmemBuffer) :
    entry.sysfsAttr ∉ (Device.umemSgunmap reserved state.device entry).listed := by
  intro listed
  rcases List.mem_append.mp listed with kmem | umem
  · obtain ⟨other, -, same⟩ := List.mem_map.mp kmem
    cases congrArg EntryAttribute.kind same
  · obtain ⟨other, inside, same⟩ := List.mem_map.mp umem
    rw [(umem_sgunmap_frees reserved state.device entry).umemList,
      books.umemDistinct.mem_erase_iff] at inside
    exact inside.2 (congrArg EntryAttribute.serial same)

theorem free_entry_unlists (books : Books state.device leaked) (entry : KmemBuffer) :
    entry.sysfsAttr ∉ (state.device.kmemFreeEntry entry).listed := by
  intro listed
  rcases List.mem_append.mp listed with kmem | umem
  · obtain ⟨other, inside, same⟩ := List.mem_map.mp kmem
    rw [(kmem_free_entry_frees state.device entry).kmemList,
      books.kmemDistinct.mem_erase_iff] at inside
    exact inside.2 (congrArg EntryAttribute.serial same)
  · obtain ⟨other, -, same⟩ := List.mem_map.mp umem
    cases congrArg EntryAttribute.kind same

theorem means_frees {reserved : Page → Bool} (books : IdBooks state)
    (resources : Books state.device leaked) (apart : IdsApart state) (operation : IdOperation)
    {attr : EntryAttribute} (member : attr ∈ state.handed) (means : operation.Means attr)
    (frees : operation.frees) :
    attr ∉ (state.device.afterId reserved operation.call).listed := by
  intro still
  obtain ⟨kind, id⟩ := means
  have below := id_below_count books ⟨attr, member, kind, id⟩
  -- what is listed behind the call was listed before it
  have before : attr ∈ state.device.listed := by
    have serves := after_serves_ids reserved state.device operation.call
    cases serves.effect with
    | keeps count next listed files => exact listed still
    | draws kind count next listed files =>
        have none_ : operation.call.allocations = 0 := by cases operation <;> rfl
        cases none_.symm.trans (serves.allocates count)
  obtain ⟨holds, lists⟩ := listed_lists before
  cases of : operation.kind with
  | kmem =>
      rw [of] at kind below
      obtain ⟨entry, -, rfl, -, found⟩ := kmem_found apart kind lists
      rw [frees_found of below (id ▸ found)] at still
      exact free_entry_unlists resources entry still
  | umem =>
      rw [of] at kind below
      obtain ⟨entry, -, rfl, -, found⟩ := umem_found apart kind lists
      rw [unmaps_found frees of below (id ▸ found)] at still
      exact sgunmap_unlists resources entry still

theorem sgget_result (device : Device) (list : UmemSgList) (answers : Umem.SggetOutcome) :
    (device.ioctlUmemSgget list answers).2 =
      if ¬answers.readList then .error .efault
      else if ¬answers.vmallocSg then .error .enomem
      else if ¬answers.readEntries then .error .efault
      else
        match Umem.umemSgget device.umem list with
        | .error errno => .error errno
        | .ok entries =>
            if ¬answers.writeEntries then .error .efault
            else if answers.writeList then .ok (.sgEntries entries) else .error .efault := by
  have seen : (device.drawSerial.take (.sgList device.nextSerial)).umem = device.umem := rfl
  simp only [Device.ioctlUmemSgget, seen]
  cases Umem.umemSgget device.umem list with
  | error errno => split_ifs <;> rfl
  | ok entries => split_ifs <;> rfl

theorem reply_congr (reserved : Page → Bool) (operation : IdOperation) {device other : Device}
    (umem : device.umemFindEntryId operation.id = other.umemFindEntryId operation.id) :
    operation.reply reserved device = operation.reply reserved other := by
  cases operation with
  | umemSgunmap handleId =>
      have same : device.umemFindEntryId handleId = other.umemFindEntryId handleId := umem
      simp only [IdOperation.reply, Device.ioctlUmemSgunmap, same]
      cases other.umemFindEntryId handleId <;> rfl
  | umemSgget list answers =>
      have same : Umem.umemSgget device.umem list = Umem.umemSgget other.umem list := by
        rw [Umem.umemSgget, Umem.umemSgget, umem_find_entry_id_eq, umem_find_entry_id_eq]
        rw [show device.umemFindEntryId list.handleId = other.umemFindEntryId list.handleId from umem]
      simp only [IdOperation.reply, sgget_result, same]
  | umemSync handleId direction =>
      have same : device.umemFindEntryId handleId = other.umemFindEntryId handleId := umem
      simp only [IdOperation.reply, Device.ioctlUmemSync, Device.umemSync, same]
      cases other.umemFindEntryId handleId with
      | none => rfl
      | some entry => by_cases invalid : direction = .invalid <;> simp [invalid]
  | storeUmemUnmap id => rfl
  | storeKmemFree id => rfl

theorem means_replies {reserved : Page → Bool} (apart : IdsApart state) (operation : IdOperation)
    {attr : EntryAttribute} (means : operation.Means attr) {holds : List Resource}
    (lists : state.device.Lists attr holds) :
    operation.reply reserved state.device = operation.reply reserved (state.device.only attr) := by
  obtain ⟨kind, id⟩ := means
  cases of : operation.kind with
  | kmem =>
      cases operation with
      | storeKmemFree number => rfl
      | _ => cases of
  | umem =>
      apply reply_congr
      obtain ⟨entry, inside, rfl, -, found⟩ := umem_found apart (kind.trans of) lists
      have own : entry ∈ (state.device.only entry.sysfsAttr).umemList :=
        List.mem_filter.mpr ⟨inside, decide_eq_true rfl⟩
      have apartOnly : Distinct (fun entry : UmemBuffer => entry.id)
          (state.device.only entry.sysfsAttr).umemList :=
        apart.umemDistinct.sublist (List.filter_sublist.map _)
      rw [← id, found]
      exact (apartOnly.find_eq own).symm

-- An id that no listed entry was handed out under is not found.

theorem umem_gone (apart : IdsApart state) {operation : IdOperation} (kind : operation.kind = .umem)
    (gone : ∀ attr ∈ state.handed, operation.Means attr → ∀ holds,
      ¬state.device.Lists attr holds) : state.device.umemFindEntryId operation.id = none := by
  rw [Device.umemFindEntryId, List.find?_eq_none]
  intro entry member same
  apply gone entry.sysfsAttr (apart.listed _ (umem_listed member))
  · exact ⟨kind.symm, of_decide_eq_true same⟩
  · exact Or.inr ⟨entry, member, rfl, rfl⟩

theorem kmem_gone (apart : IdsApart state) {operation : IdOperation} (kind : operation.kind = .kmem)
    (gone : ∀ attr ∈ state.handed, operation.Means attr → ∀ holds,
      ¬state.device.Lists attr holds) : state.device.kmemFindEntryId operation.id = none := by
  rw [Device.kmemFindEntryId, List.find?_eq_none]
  intro entry member same
  apply gone entry.sysfsAttr (apart.listed _ (kmem_listed member))
  · exact ⟨kind.symm, of_decide_eq_true same⟩
  · exact Or.inl ⟨entry, member, rfl, rfl⟩

theorem sgget_left_alone (device : Device) (list : UmemSgList) (answers : Umem.SggetOutcome)
    (early : ¬(answers.readList ∧ answers.vmallocSg)) :
    LeftAlone device (device.ioctlUmemSgget list answers).1 := by
  by_cases read : answers.readList
  · have room : ¬answers.vmallocSg := fun room => early ⟨read, room⟩
    simp only [Device.ioctlUmemSgget, read, room, not_true_eq_false, if_false]
    exact ⟨rfl, fun _ => rfl, fun _ => rfl⟩
  · simp only [Device.ioctlUmemSgget, read]
    exact ⟨rfl, fun _ => rfl, fun _ => rfl⟩

/-- Behind its `vmalloc` it keeps the copy, if it finds nothing. -/
theorem sgget_keeps_copy (device : Device) (list : UmemSgList) (answers : Umem.SggetOutcome)
    (late : answers.readList ∧ answers.vmallocSg)
    (missing : device.umemFindEntryId list.handleId = none) :
    takenCount (device.ioctlUmemSgget list answers).1.record (.sgList device.nextSerial) =
      takenCount device.record (.sgList device.nextSerial) + 1 := by
  have failed : Umem.umemSgget (device.drawSerial.take (.sgList device.nextSerial)).umem list =
      .error .einval := by
    rw [Umem.umemSgget, umem_find_entry_id_eq]
    rw [show (device.drawSerial.take (.sgList device.nextSerial)).umemFindEntryId list.handleId =
      none from missing]
    rfl
  have taken : takenCount (device.drawSerial.take (.sgList device.nextSerial)).record
      (.sgList device.nextSerial) = takenCount device.record (.sgList device.nextSerial) + 1 := by
    rw [Device.take, Device.drawSerial, taken_count_cons_taken, if_pos rfl]
  by_cases entries : answers.readEntries
  · simp only [Device.ioctlUmemSgget, late, entries, not_true_eq_false, if_false, failed]
    exact taken
  · simp only [Device.ioctlUmemSgget, late, entries, not_true_eq_false, if_false]
    exact taken

theorem left_alone_gone {reserved : Page → Bool} {operation : IdOperation} {device : Device}
    (umem : operation.kind = .umem → device.umemFindEntryId operation.id = none)
    (kmem : operation.kind = .kmem → device.kmemFindEntryId operation.id = none)
    (frugal : ¬device.LosesCopy operation) :
    LeftAlone device (device.afterId reserved operation.call) := by
  have kept : ∀ after, after = device → LeftAlone device after := by
    intro after same
    rw [same]
    exact .refl device
  cases operation with
  | umemSgunmap handleId =>
      have none_ : device.umemFindEntryId handleId = none := umem rfl
      apply kept
      simp only [IdOperation.call, Device.afterId, Device.after, Device.ioctl,
        ioctl_umem_sgunmap_device, if_true, none_]
      rfl
  | umemSgget list answers =>
      apply sgget_left_alone device list answers
      intro late
      exact frugal ⟨late.1, late.2, umem rfl⟩
  | umemSync handleId direction =>
      have none_ : device.umemFindEntryId handleId = none := umem rfl
      apply kept
      simp only [IdOperation.call, Device.afterId, Device.ioctlUmemSync, Device.umemSync, none_,
        not_true_eq_false, if_false]
  | storeUmemUnmap id =>
      have none_ : device.umemFindEntryId id = none := umem rfl
      apply kept
      simp only [IdOperation.call, Device.afterId, Device.after, Device.store, none_]
      rw [Option.map_none, Option.getD_none, ite_self]
  | storeKmemFree id =>
      have none_ : device.kmemFindEntryId id = none := kmem rfl
      apply kept
      simp only [IdOperation.call, Device.afterId, Device.after, Device.store, none_]
      rw [Option.map_none, Option.getD_none, ite_self]

theorem reply_gone {reserved : Page → Bool} {operation : IdOperation} {device : Device}
    (umem : operation.kind = .umem → device.umemFindEntryId operation.id = none)
    (looksUp : operation.looksUp) :
    ∀ reply ∈ operation.reply reserved device, reply = .error .einval := by
  intro reply is
  cases operation with
  | umemSgunmap handleId =>
      have none_ : device.umemFindEntryId handleId = none := umem rfl
      rw [← Option.mem_some_iff.mp is]
      simp [Device.ioctlUmemSgunmap, none_]
  | umemSgget list answers =>
      have none_ : device.umemFindEntryId list.handleId = none := umem rfl
      have failed : Umem.umemSgget device.umem list = .error .einval := by
        rw [Umem.umemSgget, umem_find_entry_id_eq, none_]
        rfl
      simp only [IdOperation.looksUp, Bool.and_eq_true] at looksUp
      rw [← Option.mem_some_iff.mp is, sgget_result]
      simp [looksUp, failed]
  | umemSync handleId direction =>
      have none_ : device.umemFindEntryId handleId = none := umem rfl
      rw [← Option.mem_some_iff.mp is]
      simp [Device.ioctlUmemSync, Device.umemSync, none_]
  | storeUmemUnmap id => cases is
  | storeKmemFree id => cases is

/-- Apart from the copy nothing is left of an operation with an id that names nothing. -/
theorem means_gone_iff {reserved : Page → Bool} (apart : IdsApart state)
    (operation : IdOperation) :
    ((∀ attr ∈ state.handed, operation.Means attr → ∀ holds, ¬state.device.Lists attr holds) →
      LeftAlone state.device (state.device.afterId reserved operation.call) ∧
        (operation.looksUp → ∀ reply ∈ operation.reply reserved state.device,
          reply = .error .einval)) ↔ ¬state.device.LosesCopy operation := by
  constructor
  · intro alone loses
    cases operation with
    | umemSgget list answers =>
        obtain ⟨read, room, missing⟩ := loses
        have gone : ∀ attr ∈ state.handed, (IdOperation.umemSgget list answers).Means attr →
            ∀ holds, ¬state.device.Lists attr holds := by
          intro attr _ means holds lists
          obtain ⟨entry, -, rfl, -, found⟩ := umem_found apart means.1 lists
          rw [means.2] at found
          cases found.symm.trans missing
        have taken := (alone gone).1.taken (.sgList state.device.nextSerial)
        have more := sgget_keeps_copy state.device list answers ⟨read, room⟩ missing
        exact absurd (more.symm.trans taken) (Nat.succ_ne_self _)
    | _ => exact loses.elim
  · intro frugal gone
    have umem : operation.kind = .umem → state.device.umemFindEntryId operation.id = none :=
      fun kind => umem_gone apart kind gone
    have kmem : operation.kind = .kmem → state.device.kmemFindEntryId operation.id = none :=
      fun kind => kmem_gone apart kind gone
    exact ⟨left_alone_gone umem kmem frugal, reply_gone umem⟩

end Apart

/-- The first buffer loses its DMA memory and burns `kbuf0`; a mapping is made, unmapped and
made again. -/
def burningRun : List IdCall :=
  [.driver (.ioctl (.kmemAlloc 4096#64 ⟨true, true, ⟨true, true⟩, none, true⟩)),
    .driver (.ioctl (.umemSgmap 0x1000#64 4096#64 (onePageMapped 7))),
    .driver allocatePage,
    .driver (.ioctl (.umemSgunmap 0#32 true)),
    .driver (.ioctl (.umemSgmap 0x1000#64 4096#64 (onePageMapped 7))),
    .umemSync 1#32 .toDevice true]

end FpgaPcie.Driver.Resources
