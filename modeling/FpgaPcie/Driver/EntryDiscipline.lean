import FpgaPcie.Driver.EntryRelease

/-!
# When every entry is released once

The lookups hand an entry out after the list lock is dropped, so nothing in the code
keeps two operations off one entry. Runs in which no operation gets hold of an entry
across another one's release keep the invariant; there the only state without memory
behind every listed entry of kernel memory is that of a free between
`pci_free_consistent` and `list_del`.
-/

namespace FpgaPcie.Driver.Entries

open FpgaPcie.Transition FpgaPcie.Keyed

set_option autoImplicit false

section Steps

variable {kind : EntryKind} {device : Device} {process : ProcessId}

theorem Store.find_listed {store : Store} {lookup : Lookup} {entry : Entry}
    (found : store.find kind lookup = some entry) : entry ∈ store.list := by
  cases lookup <;> simp only [Store.find] at found <;> split at found
  case handle.isTrue | handleId.isTrue | sysfs.isFalse => exact List.mem_of_find?_eq_some found
  all_goals cases found

theorem DeviceSound.linked (sound : DeviceSound kind device) {entry : Entry}
    (current : device.operation process = .creating entry []) :
    DeviceSound kind (device.update process
      { device.store with list := device.store.list ++ [entry] }
      (if kind = .kmem then .idle else .reporting entry)) := by
  have own := sound.of_creating current
  have holds : owns (device.operation process) = some entry.serial := by rw [current, owns]
  have only : ∀ other ∈ device.store.list ++ [entry], other.serial = entry.serial →
      other = entry := by
    intro other member same
    rcases List.mem_append.mp member with earlier | last
    · exact absurd same (own.unlisted other earlier)
    · exact List.mem_singleton.mp last
  have move : Move kind device process
      { device.store with list := device.store.list ++ [entry] }
      (if kind = .kmem then .idle else .reporting entry) entry.serial := {
    elsewhere := by
      refine ⟨le_rfl, fun other differ => ?_, fun _ _ _ => Iff.rfl, fun _ _ _ held => held⟩
      have notLast : other ≠ entry := fun same => differ (by rw [same])
      simp [notLast]
    mine := fun other differ also => differ (sound.exclusive other process _ also holds)
    before := Or.inl holds
    now := Or.inr (by split <;> rfl)
    users := fun other user =>
      absurd user (unlinked_unused own.unlisted (own.kept _) (sound.operations other))
    own := by
      split
      · trivial
      · exact ⟨Or.inl (List.mem_append_right _ List.mem_cons_self), own.kept _⟩
    serials := sound.store.serials.append_fresh own.unlisted
    once := sound.store.once
    unused := sound.store.unused
    addresses := sound.store.addresses
    belowGiven := fun _ _ => own.below
    belowListed := fun _ _ _ => own.below
    unowned := fun _ other member here part => by
      rw [only other member here]
      exact own.kept part
    memory := fun kmem other member here _ => by
      rw [only other member here]
      exact own.memory kmem List.not_mem_nil }
  exact sound.moves move

theorem DeviceSound.frees (sound : DeviceSound kind device) {entry : Entry}
    (idle : device.operation process = .idle) (listed : entry ∈ device.store.list)
    (unheld : ∀ other held todo, device.operation other = .freeing held todo →
      held.serial ≠ entry.serial) :
    DeviceSound kind (device.update process device.store (.freeing entry kind.releases)) := by
  have free : ∀ other, owns (device.operation other) ≠ some entry.serial := by
    intro other holds
    obtain ⟨todo, current, -⟩ := sound.owner_frees listed holds
    exact unheld other entry todo current rfl
  have kept := sound.store.unowned entry listed fun ⟨other, holds⟩ => free other holds
  have linked : Part.link ∈ kind.releases := by cases kind <;> decide
  have move : Move kind device process device.store (.freeing entry kind.releases)
      entry.serial := {
    elsewhere := .refl
    mine := fun other _ => free other
    before := Or.inr (by rw [idle]; rfl)
    now := Or.inl rfl
    users := fun other _ => sound.operations other
    own := {
      below := sound.store.below entry listed
      order := (List.mem_tails _ _).mpr List.suffix_rfl
      more := List.ne_nil_of_mem linked
      given := fun part released => ⟨fun given => absurd given (kept part),
        fun missing => absurd released missing⟩
      listed := fun _ => listed
      unlisted := fun unlinked => absurd linked unlinked }
    serials := sound.store.serials
    once := sound.store.once
    unused := sound.store.unused
    addresses := sound.store.addresses
    belowGiven := fun _ _ => sound.store.below entry listed
    belowListed := fun _ _ _ => sound.store.below entry listed
    unowned := nofun
    memory := fun kmem other member _ => sound.store.memory kmem other member }
  exact sound.moves move

theorem DeviceSound.synced (sound : DeviceSound kind device) {entry : Entry} {calls : ℕ}
    (current : device.operation process = .syncing entry calls) :
    DeviceSound kind (device.update process
      (device.store.touch entry [.entryStruct, kind.memory])
      (if calls ≤ 1 then .idle else .syncing entry (calls - 1))) := by
  have relied := sound.operations process
  rw [current] at relied
  obtain ⟨listed, there⟩ := relied
  have kept : ∀ part ∈ [Part.entryStruct, kind.memory], (entry.serial, part) ∉ device.store.given := by
    simp only [List.forall_mem_cons]
    exact ⟨sound.listed_kept listed, there, by simp⟩
  rw [touch_kept kept]
  split
  · exact sound.looks (by rw [current]; rfl) rfl trivial
  · exact sound.looks (by rw [current]; rfl) rfl ⟨listed, there⟩

theorem DeviceSound.reported (sound : DeviceSound kind device) {entry : Entry}
    (current : device.operation process = .reporting entry) :
    DeviceSound kind (device.update process (device.store.touch entry [.entryStruct]) .idle) := by
  have relied := sound.operations process
  rw [current] at relied
  rw [touch_kept (by simpa using relied.2)]
  exact sound.looks (by rw [current]; rfl) rfl trivial

section Release

variable {entry : Entry} {part : Part} {todo : List Part}

theorem DeviceSound.mem_list_after (sound : DeviceSound kind device) (other : Entry) :
    other ∈ (device.store.giveBack entry part).list ↔
      other ∈ device.store.list ∧ (part = .link → other.serial ≠ entry.serial) := by
  by_cases link : part = .link
  · simp only [Store.giveBack, link, if_true, true_imp_iff]
    exact sound.store.serials.mem_erase_iff entry.serial other
  · simp [Store.giveBack, link]

theorem mem_given_after {store : Store} (serial : ℕ) (other : Part) :
    (serial, other) ∈ (store.giveBack entry part).given ↔
      (serial = entry.serial ∧ other = part) ∨ (serial, other) ∈ store.given := by
  rw [Store.giveBack, List.mem_cons, Prod.mk.injEq]

/-- The memory of an entry on its way out is still allocated, until it is given back. -/
theorem DeviceSound.allocated_after (sound : DeviceSound kind device)
    (own : Freeing kind device.store entry (part :: todo)) (other : ℕ) (address : U64)
    (differ : other ≠ entry.serial) (held : (other, address) ∈ device.store.allocated) :
    (other, address) ∈ (device.store.giveBack entry part).allocated := by
  by_cases dma : part = .dmaMemory
  · subst dma
    have suffix := (List.mem_tails _ _).mp own.order
    obtain ⟨kmem, memory⟩ := memory_of_dma kind (suffix.subset List.mem_cons_self)
    have linked := (release_order kind _ own.order).2.2.1 (by rw [memory]; exact List.mem_cons_self)
    have there : (entry.serial, Part.dmaMemory) ∉ device.store.given := fun given =>
      (own.given _ (suffix.subset List.mem_cons_self)).mp given List.mem_cons_self
    have mine := sound.store.memory kmem entry (own.listed linked) there
    have elsewhere : address ≠ entry.dmaHandle := fun same => by
      have equal := sound.store.addresses.eq held mine same
      rw [Prod.mk.injEq] at equal
      exact differ equal.1
    rw [Store.giveBack, if_pos rfl]
    exact (sound.store.addresses.mem_erase_iff entry.dmaHandle _).mpr ⟨held, elsewhere⟩
  · simpa [Store.giveBack, dma] using held

theorem DeviceSound.same_elsewhere (sound : DeviceSound kind device)
    (own : Freeing kind device.store entry (part :: todo)) :
    SameElsewhere entry.serial device.store (device.store.giveBack entry part) := by
  constructor
  · exact le_rfl
  · intro other differ
    rw [sound.mem_list_after]
    exact and_iff_left fun _ => differ
  · intro serial other differ
    rw [mem_given_after]
    exact or_iff_right fun same => differ same.1
  · exact sound.allocated_after own

theorem DeviceSound.unlisted_after (sound : DeviceSound kind device)
    (own : Freeing kind device.store entry (part :: todo)) (unlinked : Part.link ∉ todo) :
    Unlisted (device.store.giveBack entry part) entry.serial := by
  intro other member
  obtain ⟨inside, linked⟩ := (sound.mem_list_after other).mp member
  by_cases link : part = .link
  · exact linked link
  · exact own.unlisted (by simp [Ne.symm link, unlinked]) other inside

/-- Whoever reads a field of the entry does not notice that another one was given back. -/
theorem DeviceSound.user_after (sound : DeviceSound kind device)
    (own : Freeing kind device.store entry (part :: todo))
    (unused : ∀ other held, held.serial = entry.serial →
      (part = kind.memory → ∀ calls, device.operation other ≠ .syncing held calls) ∧
        (part = .entryStruct → device.operation other ≠ .reporting held))
    {other : ProcessId} (user : uses (device.operation other) = some entry.serial) :
    OperationSound kind (device.store.giveBack entry part) (device.operation other) := by
  have relied := sound.operations other
  cases using_ : device.operation other with
  | idle | creating | givingUp | freeing => simp [using_, uses] at user
  | reporting held =>
      rw [using_] at relied user
      have here : held.serial = entry.serial := by simpa [uses] using user
      have notStruct : part ≠ .entryStruct := fun same => (unused other held here).2 same using_
      constructor
      · rw [sound.mem_list_after, mem_given_after]
        by_cases link : part = .link
        · exact Or.inr (Or.inl ⟨here, link.symm⟩)
        · exact relied.1.imp (fun listed => ⟨listed, fun same => absurd same link⟩) Or.inr
      · rw [mem_given_after]
        exact not_or.mpr ⟨fun same => notStruct same.2.symm, relied.2⟩
  | syncing held calls =>
      rw [using_] at relied user
      have here : held.serial = entry.serial := by simpa [uses] using user
      have notMemory : part ≠ kind.memory := fun same => (unused other held here).1 same calls using_
      have released : kind.memory ∈ kind.releases := by cases kind <;> decide
      have later : kind.memory ∈ todo := by
        have remains := (not_congr (own.given _ released)).mp (here ▸ relied.2)
        rw [not_not, List.mem_cons] at remains
        exact remains.resolve_left notMemory.symm
      -- a synchronisation has got hold of the entry, so this is only the file
      obtain ⟨-, -, -, beforeMemory⟩ := release_order kind _ own.order
      have file : part = .sysfsFile := by simpa using beforeMemory later
      constructor
      · exact (sound.mem_list_after held).mpr ⟨relied.1, by simp [file]⟩
      · rw [mem_given_after]
        exact not_or.mpr ⟨fun same => notMemory same.2.symm, relied.2⟩

theorem DeviceSound.gave_back (sound : DeviceSound kind device)
    (current : device.operation process = .freeing entry (part :: todo))
    (unused : ∀ other held, held.serial = entry.serial →
      (part = kind.memory → ∀ calls, device.operation other ≠ .syncing held calls) ∧
        (part = .entryStruct → device.operation other ≠ .reporting held)) :
    DeviceSound kind (device.update process
      ((device.store.touch entry [.entryStruct]).giveBack entry part)
      (settle (.freeing entry) todo)) := by
  have own := sound.of_freeing current
  have holds : owns (device.operation process) = some entry.serial := by rw [current, owns]
  obtain ⟨distinct, structLast, -, -⟩ := release_order kind _ own.order
  obtain ⟨gone, distinct⟩ := List.nodup_cons.mp distinct
  have suffix := (List.mem_tails _ _).mp own.order
  have ungiven : ∀ other ∈ part :: todo, (entry.serial, other) ∉ device.store.given :=
    fun other member given => (own.given other (suffix.subset member)).mp given member
  rw [touch_kept (by simpa using ungiven _ (structLast own.more))]
  have givenAfter : ∀ other ∈ kind.releases,
      (entry.serial, other) ∈ (device.store.giveBack entry part).given ↔ other ∉ todo := by
    intro other released
    rw [mem_given_after, own.given other released]
    by_cases this : other = part
    · simp [this, gone]
    · simp [this]
  have move : Move kind device process (device.store.giveBack entry part)
      (settle (.freeing entry) todo) entry.serial := {
    elsewhere := sound.same_elsewhere own
    mine := fun other differ also => differ (sound.exclusive other process _ also holds)
    before := Or.inl holds
    now := by
      cases todo with
      | nil => exact Or.inr rfl
      | cons first rest => exact Or.inl rfl
    users := fun other => sound.user_after own unused
    own := by
      cases todo with
      | nil => trivial
      | cons first rest => exact {
          below := own.below
          order := (List.mem_tails _ _).mpr ((List.suffix_cons part _).trans suffix)
          more := List.cons_ne_nil _ _
          given := givenAfter
          listed := fun linked => (sound.mem_list_after entry).mpr
            ⟨own.listed (List.mem_cons_of_mem _ linked), fun same => absurd (same ▸ linked) gone⟩
          unlisted := sound.unlisted_after own }
    serials := by
      simp only [Store.giveBack]
      split
      · exact sound.store.serials.erase _
      · exact sound.store.serials
    once := List.nodup_cons.mpr ⟨ungiven part List.mem_cons_self, sound.store.once⟩
    unused := sound.store.unused
    addresses := by
      simp only [Store.giveBack]
      split
      · exact sound.store.addresses.erase _
      · exact sound.store.addresses
    belowGiven := fun _ _ => own.below
    belowListed := fun _ _ _ => own.below
    unowned := by
      intro ended other member here
      cases todo with
      | nil => exact absurd here (sound.unlisted_after own List.not_mem_nil other member)
      | cons first rest => cases ended
    memory := by
      intro kmem other member here kept
      obtain ⟨inside, -⟩ := (sound.mem_list_after other).mp member
      rw [mem_given_after, not_or] at kept
      have notDma : part ≠ .dmaMemory := fun same => kept.1 ⟨here, same.symm⟩
      simpa [Store.giveBack, notDma] using sound.store.memory kmem other inside kept.2 }
  exact sound.moves move

end Release

theorem DeviceSound.begun (sound : DeviceSound kind device) {action : Action} {after : Device}
    (idle : device.operation process = .idle) (guarded : Guarded kind device (process, action))
    (step : device.begin kind process action = some after) : DeviceSound kind after := by
  cases action with
  | create =>
      cases step
      exact sound.create idle
  | free lookup =>
      simp only [Device.begin] at step
      cases found : device.store.find kind lookup with
      | none =>
          simp only [found, Option.some.injEq] at step
          exact step ▸ sound
      | some entry =>
          simp only [found, Option.some.injEq] at step
          exact step ▸ sound.frees idle (Store.find_listed found) (guarded entry found)
  | sync lookup direction =>
      simp only [Device.begin] at step
      cases found : device.store.find kind lookup with
      | none =>
          simp only [found, Option.some.injEq] at step
          exact step ▸ sound
      | some entry =>
          simp only [found] at step
          split at step
          · cases step
            exact sound
          · rename_i calls
            cases step
            exact sound.looks (by rw [idle]; rfl) rfl
              ⟨Store.find_listed found, guarded entry found calls⟩
  | proceed answer => cases step

theorem DeviceSound.proceeded (sound : DeviceSound kind device) {answer : Answer} {after : Device}
    (guarded : Guarded kind device (process, .proceed answer))
    (step : device.proceed kind process answer (device.operation process) = some after) :
    DeviceSound kind after := by
  cases current : device.operation process with
  | idle =>
      rw [current] at step
      cases step
  | creating entry todo =>
      rw [current] at step
      cases todo with
      | nil =>
          cases step
          exact sound.linked current
      | cons part todo =>
          simp only [Device.proceed] at step
          split at step
          · cases step
            exact sound.refused current
          · obtain ⟨⟨store, grown⟩, result, rfl⟩ := Option.map_eq_some_iff.mp step
            exact sound.acquired current result
  | givingUp entry todo =>
      rw [current] at step
      cases todo with
      | nil => cases step
      | cons part todo =>
          cases step
          exact sound.gave_up current
  | freeing entry todo =>
      rw [current] at step
      cases todo with
      | nil => cases step
      | cons part todo =>
          cases step
          exact sound.gave_back current (guarded entry part todo current)
  | reporting entry =>
      rw [current] at step
      cases step
      exact sound.reported current
  | syncing entry calls =>
      rw [current] at step
      cases step
      exact sound.synced current

theorem DeviceSound.step (sound : DeviceSound kind device) {label : ProcessId × Action}
    {after : Device} (guarded : Guarded kind device label)
    (step : device.step kind label = some after) : DeviceSound kind after := by
  obtain ⟨process, action⟩ := label
  cases action with
  | proceed answer => exact sound.proceeded guarded step
  | create | free | sync =>
      simp only [Device.step] at step
      split at step
      · exact sound.begun ‹_› guarded step
      · cases step

theorem initial_sound (initial : (entrySystem kind).initial device) : DeviceSound kind device := by
  obtain ⟨empty, idle⟩ := initial
  constructor
  · rw [empty]
    exact ⟨List.nodup_nil, nofun, nofun, List.nodup_nil, rfl, nofun, nofun, List.nodup_nil⟩
  · intro process
    rw [idle process]
    trivial
  · intro one other serial holds
    rw [idle one] at holds
    cases holds

theorem DeviceSound.memory_given_iff (sound : DeviceSound kind device) (kmem : kind = .kmem)
    {entry : Entry} {todo : List Part}
    (current : device.operation process = .freeing entry todo) :
    (entry.serial, Part.dmaMemory) ∈ device.store.given ↔ Part.dmaMemory ∉ todo := by
  have released : Part.dmaMemory ∈ kind.releases := by
    rw [kmem]
    decide
  exact (sound.of_freeing current).given _ released

/-- What has been given back of a listed entry is what its free is past. -/
theorem DeviceSound.released_well_iff (sound : DeviceSound kind device) :
    ReleasedWell kind device.store ↔ ¬InGap kind device := by
  constructor
  · intro well present
    rcases present with ⟨kmem, process, entry, todo, current, linked, gone⟩
    have listed := (sound.of_freeing current).listed linked
    exact (well.owned kmem entry listed).1 ((sound.memory_given_iff kmem current).mpr gone)
  · intro clear
    have kept : kind = .kmem → ∀ entry ∈ device.store.list,
        (entry.serial, Part.dmaMemory) ∉ device.store.given := by
      intro kmem entry listed given
      by_cases owned : ∃ process, owns (device.operation process) = some entry.serial
      · obtain ⟨process, holds⟩ := owned
        obtain ⟨todo, current, linked⟩ := sound.owner_frees listed holds
        exact clear ⟨kmem, process, entry, todo, current, linked,
          (sound.memory_given_iff kmem current).mp given⟩
      · exact sound.store.unowned entry listed owned _ given
    have memory := fun kmem entry listed =>
      sound.store.memory kmem entry listed (kept kmem entry listed)
    refine ⟨sound.store.once, sound.store.unused,
      fun kmem entry listed => ⟨kept kmem entry listed, memory kmem entry listed⟩, fun kmem => ?_⟩
    apply (List.nodup_map_iff_inj_on (List.Nodup.of_map _ sound.store.serials)).mpr
    intro one oneIn other otherIn same
    have pairs := sound.store.addresses.eq (memory kmem one oneIn) (memory kmem other otherIn) same
    rw [Prod.mk.injEq] at pairs
    exact sound.store.serials.eq oneIn otherIn pairs.1

end Steps

theorem entries_released_well (kind : EntryKind) {device : Device}
    (reached : (entrySystem kind).ReachableUnder (Guarded kind) device) :
    device.store.given.Nodup ∧ device.store.usedAfter = false ∧
      (ReleasedWell kind device.store ↔ ¬InGap kind device) := by
  have sound : DeviceSound kind device := System.invariant_under (fun _ => initial_sound)
    (fun _ _ _ sound guarded step => sound.step guarded step) reached
  exact ⟨sound.store.once, sound.store.unused, sound.released_well_iff⟩

def loadedDevice : Device := ⟨emptyStore, fun _ => .idle⟩

def deviceAfter (device : Device) (labels : List (ProcessId × Action)) : Device :=
  ((entrySystem .kmem).runFrom device labels).getD device

def allocation : List (ProcessId × Action) :=
  [(0, .create), (0, .proceed .granted), (0, .proceed .granted),
    (0, .proceed (.address 0x10000)), (0, .proceed .granted)]

theorem loaded_reachable (allowed : Device → ProcessId × Action → Prop) :
    (entrySystem .kmem).ReachableUnder allowed loadedDevice := .start ⟨rfl, fun _ => rfl⟩

section Few

def Operation.frees : Operation → Option Entry
  | .freeing entry _ => some entry
  | _ => none

def Operation.gives : Operation → Option (Entry × Part)
  | .freeing entry (part :: _) => some (entry, part)
  | _ => none

def Operation.syncs : Operation → Option Entry
  | .syncing entry _ => some entry
  | _ => none

def Operation.reports : Operation → Option Entry
  | .reporting entry => some entry
  | _ => none

/-- `Guarded` where only the processes below `bound` do anything. -/
def GuardedBelow (kind : EntryKind) (bound : ℕ) (device : Device) (label : ProcessId × Action) :
    Prop :=
  label.1 < bound ∧ match label.2 with
  | .create => True
  | .free lookup => ∀ entry ∈ device.store.find kind lookup, ∀ other < bound,
      ∀ held ∈ (device.operation other).frees, held.serial ≠ entry.serial
  | .sync lookup direction => ∀ entry ∈ device.store.find kind lookup, direction.calls ≠ 0 →
      (entry.serial, kind.memory) ∉ device.store.given
  | .proceed _ => ∀ given ∈ (device.operation label.1).gives, ∀ other < bound,
      (given.2 = kind.memory → ∀ held ∈ (device.operation other).syncs,
        held.serial ≠ given.1.serial) ∧
      (given.2 = .entryStruct → ∀ held ∈ (device.operation other).reports,
        held.serial ≠ given.1.serial)

instance (kind : EntryKind) (bound : ℕ) (device : Device) (label : ProcessId × Action) :
    Decidable (GuardedBelow kind bound device label) :=
  match label with
  | (_, .create) | (_, .free _) | (_, .sync _ _) | (_, .proceed _) =>
      inferInstanceAs (Decidable (_ ∧ _))

variable {kind : EntryKind} {bound : ℕ} {device after : Device} {label : ProcessId × Action}

def Elsewhere (device after : Device) (process : ProcessId) : Prop :=
  ∀ other ≠ process, after.operation other = device.operation other

theorem update_elsewhere (process : ProcessId) (store : Store) (operation : Operation) :
    Elsewhere device (device.update process store operation) process :=
  fun _ differ => Function.update_of_ne differ _ _

theorem begin_elsewhere {process : ProcessId} {action : Action}
    (begins : device.begin kind process action = some after) : Elsewhere device after process := by
  cases action with
  | create =>
      cases begins
      exact update_elsewhere process _ _
  | free lookup =>
      rw [Device.begin] at begins
      split at begins
      · cases begins
        exact fun _ _ => rfl
      · cases begins
        exact update_elsewhere process _ _
  | sync lookup direction =>
      rw [Device.begin] at begins
      split at begins
      · cases begins
        exact fun _ _ => rfl
      · split at begins
        · cases begins
          exact fun _ _ => rfl
        · cases begins
          exact update_elsewhere process _ _
  | proceed answer => cases begins

theorem proceed_elsewhere {process : ProcessId} {answer : Answer} {operation : Operation}
    (goesOn : device.proceed kind process answer operation = some after) :
    Elsewhere device after process := by
  cases operation with
  | idle => cases goesOn
  | creating entry todo =>
      cases todo with
      | nil =>
          cases goesOn
          exact update_elsewhere process _ _
      | cons part todo =>
          rw [Device.proceed] at goesOn
          split at goesOn
          · cases goesOn
            exact update_elsewhere process _ _
          · obtain ⟨pair, -, rfl⟩ := Option.map_eq_some_iff.mp goesOn
            exact update_elsewhere process _ _
  | givingUp entry todo | freeing entry todo =>
      cases todo with
      | nil => cases goesOn
      | cons part todo =>
          cases goesOn
          exact update_elsewhere process _ _
  | syncing entry calls =>
      cases goesOn
      exact update_elsewhere process _ _
  | reporting entry =>
      cases goesOn
      exact update_elsewhere process _ _

theorem step_elsewhere (step : (entrySystem kind).step device label = some after) :
    Elsewhere device after label.1 := by
  obtain ⟨process, action⟩ := label
  cases action with
  | proceed answer => exact proceed_elsewhere step
  | create | free lookup | sync lookup direction =>
      cases current : device.operation process with
      | idle =>
          simp only [entrySystem, Device.step, current] at step
          exact begin_elsewhere step
      | creating | givingUp | freeing | syncing | reporting =>
          simp only [entrySystem, Device.step, current] at step
          cases step

theorem guarded_of_below (idle : ∀ other, bound ≤ other → device.operation other = .idle)
    (below : GuardedBelow kind bound device label) : Guarded kind device label := by
  obtain ⟨process, action⟩ := label
  have active : ∀ {other operation}, device.operation other = operation → operation ≠ .idle →
      other < bound := by
    intro other operation current busy
    by_contra beyond
    exact busy (current.symm.trans (idle other (Nat.le_of_not_lt beyond)))
  cases action with
  | create => trivial
  | free lookup =>
      intro entry found other held todo freeing
      apply below.2 entry found other (active freeing nofun) held
      rw [freeing]
      rfl
  | sync lookup direction => exact below.2
  | proceed answer =>
      intro entry part todo freeing other held same
      have gives : (entry, part) ∈ (device.operation process).gives := by
        rw [show device.operation process = _ from freeing]
        rfl
      constructor
      · intro memory calls syncing
        have guard := (below.2 _ gives other (active syncing nofun)).1 memory held
        rw [syncing] at guard
        exact guard rfl same
      · intro struct reporting
        have guard := (below.2 _ gives other (active reporting nofun)).2 struct held
        rw [reporting] at guard
        exact guard rfl same

theorem reached_guarded
    (reached : (entrySystem kind).ReachableUnder (GuardedBelow kind bound) device) :
    (∀ other, bound ≤ other → device.operation other = .idle) ∧
      (entrySystem kind).ReachableUnder (Guarded kind) device := by
  induction reached with
  | start initial => exact ⟨fun other _ => initial.2 other, .start initial⟩
  | next earlier below step ih =>
      refine ⟨?_, ih.2.next (guarded_of_below ih.1 below) step⟩
      intro other beyond
      rw [step_elsewhere step other (Nat.lt_of_lt_of_le below.1 beyond).ne', ih.1 other beyond]

end Few

/-- While a process synchronises its buffer another one is made, which is freed through its
sysfs file while the first one is synchronised again. -/
def syncAndFree : List (ProcessId × Action) :=
  allocation ++ [(0, .sync (.handle 0x10000) .bidirectional), (1, .create),
    (1, .proceed .granted), (1, .proceed .granted), (0, .proceed .granted),
    (1, .proceed (.address 0x20000)), (1, .proceed .granted), (0, .proceed .granted),
    (0, .free (.sysfs 1)), (1, .sync (.handle 0x10000) .toDevice), (0, .proceed .granted),
    (0, .proceed .granted), (0, .proceed .granted), (1, .proceed .granted),
    (0, .proceed .granted)]

theorem entries_released_well_sync_and_free :
    (deviceAfter loadedDevice syncAndFree).store.given =
      [(1, .entryStruct), (1, .link), (1, .dmaMemory), (1, .sysfsFile)] ∧
    ReleasedWell .kmem (deviceAfter loadedDevice syncAndFree).store := by
  have guarded : (entrySystem .kmem).ReachableUnder (GuardedBelow .kmem 2)
      (deviceAfter loadedDevice syncAndFree) :=
    System.reachable_of_guarded_run syncAndFree (loaded_reachable _) rfl
  obtain ⟨idle, reached⟩ := reached_guarded guarded
  refine ⟨rfl, (entries_released_well .kmem reached).2.2.mpr ?_⟩
  rintro ⟨-, process, entry, todo, current, -⟩
  have rests : (deviceAfter loadedDevice syncAndFree).operation process = .idle := by
    rcases Nat.lt_or_ge process 2 with few | beyond
    · match process, few with
      | 0, _ => rfl
      | 1, _ => rfl
    · exact idle process beyond
  rw [rests] at current
  cases current

/-- Two processes look the buffer up before either has unlinked it, and both remove its
file. -/
theorem racing_frees_release_twice : ∃ device, (entrySystem .kmem).Reachable device ∧
    ¬device.store.given.Nodup ∧ ¬ReleasedWell .kmem device.store := by
  let labels := allocation ++ [(0, .free (.handle 0x10000)), (1, .free (.handle 0x10000)),
    (0, .proceed .granted), (1, .proceed .granted)]
  have run : (entrySystem .kmem).runFrom loadedDevice labels =
      some (deviceAfter loadedDevice labels) := rfl
  have given : (deviceAfter loadedDevice labels).store.given =
      [(0, .sysfsFile), (0, .sysfsFile)] := rfl
  have twice : ¬(deviceAfter loadedDevice labels).store.given.Nodup := by
    rw [given]
    decide
  exact ⟨_, System.reachable_of_run labels (loaded_reachable _) (fun _ _ _ => trivial) run,
    twice, fun well => twice well.once⟩

end FpgaPcie.Driver.Entries
