import FpgaPcie.Driver.MappingLedger

/-!
# Every object maps its own memory, if its entry is the newest

Threads and objects hold the claims of the ledger. A step moves one claim, and only
inside the mutex does it touch the mode; so a run whose constructors find their own
entries newest keeps every mapping with the entry it was made for. A step that finds
another entry newest maps that one.
-/

namespace FpgaPcie.Driver

open FpgaPcie.Transition FpgaPcie.Keyed

set_option autoImplicit false

namespace Phase

def claim : Phase → Option Claim
  | .allocated handle | .locked handle | .modeSet handle | .mapFailed handle
  | .releasing handle => some ⟨handle.pa, none⟩
  | .mapped handle mem => some ⟨handle.pa, some mem⟩
  | _ => none

def critical : Phase → Bool
  | .locked _ | .modeSet _ | .mapped _ _ | .mapFailed _ | .barLocked _ | .barModeSet _
  | .barAreaSet _ | .barMapped => true
  | _ => false

end Phase

def objectClaim (memory : KernelMemory) : Claim := ⟨memory.handle.pa, some memory.mem⟩

def claimsOf (phase : ThreadId → Phase) (objects : ObjectId → Option KernelMemory) :
    ObjectId ⊕ ThreadId → Option Claim
  | .inl object => (objects object).map objectClaim
  | .inr thread => (phase thread).claim

structure Sound (process : Process) : Prop where
  ledger : Ledger process.driver.kmemList (claimsOf process.phase process.objects)
  mutex : ∀ thread, (process.phase thread).critical = true → process.holder = some thread
  mode : ∀ thread handle, process.phase thread = .modeSet handle →
    process.driver.mmapMode = .kmem

section Claims

variable (phase : ThreadId → Phase) (objects : ObjectId → Option KernelMemory)

theorem claims_phase (thread : ThreadId) (next : Phase) :
    claimsOf (Function.update phase thread next) objects =
      Function.update (claimsOf phase objects) (.inr thread) next.claim := by
  funext owner
  cases owner with
  | inl object => rfl
  | inr other =>
      by_cases same : other = thread
      · subst same
        simp [claimsOf]
      · simp [claimsOf, same]

theorem claims_object (object : ObjectId) (entry : Option KernelMemory) :
    claimsOf phase (Function.update objects object entry) =
      Function.update (claimsOf phase objects) (.inl object) (entry.map objectClaim) := by
  funext owner
  cases owner with
  | inr thread => rfl
  | inl other =>
      by_cases same : other = object
      · subst same
        simp [claimsOf]
      · simp [claimsOf, same]

theorem claims_kept {thread : ThreadId} {next : Phase} (same : next.claim = (phase thread).claim) :
    claimsOf (Function.update phase thread next) objects = claimsOf phase objects := by
  rw [claims_phase, same]
  exact Function.update_eq_self (Sum.inr thread) (claimsOf phase objects)

end Claims

section Steps

variable {process : Process} {thread : ThreadId}

/-- One thread moves on. The others keep what they rely on: either nothing they see
changes, or none of them is inside the mutex. -/
theorem Sound.moves (sound : Sound process) {driver : Privdata} {holder : Option ThreadId}
    {objects : ObjectId → Option KernelMemory} {next : Phase}
    (ledger : Ledger driver.kmemList
      (claimsOf (Function.update process.phase thread next) objects))
    (held : next.critical = true → holder = some thread)
    (mode : ∀ handle, next = .modeSet handle → driver.mmapMode = .kmem)
    (others : ∀ other, other ≠ thread → (process.phase other).critical = true →
      holder = process.holder ∧ driver.mmapMode = process.driver.mmapMode) :
    Sound ⟨driver, holder, Function.update process.phase thread next, objects⟩ where
  ledger := ledger
  mutex := by
    intro other inside
    by_cases same : other = thread
    · subst same
      simp only [Function.update_self] at inside
      exact held inside
    · simp only [Function.update_of_ne same] at inside
      rw [(others other same inside).1]
      exact sound.mutex other inside
  mode := by
    intro other handle set
    by_cases same : other = thread
    · subst same
      simp only [Function.update_self] at set
      exact mode handle set
    · simp only [Function.update_of_ne same] at set
      have inside : (process.phase other).critical = true := by rw [set, Phase.critical]
      rw [(others other same inside).2]
      exact sound.mode other handle set

theorem Sound.alone (sound : Sound process) (inside : (process.phase thread).critical = true)
    {other : ThreadId} (differ : other ≠ thread) : (process.phase other).critical ≠ true := by
  intro also
  have one := sound.mutex thread inside
  have two := sound.mutex other also
  rw [one, Option.some.injEq] at two
  exact differ two.symm

/-- Outside the mutex a thread may change the list, but not the mode. -/
theorem Sound.quiet (sound : Sound process) {driver : Privdata}
    {objects : ObjectId → Option KernelMemory} {next : Phase}
    (ledger : Ledger driver.kmemList
      (claimsOf (Function.update process.phase thread next) objects))
    (same : driver.mmapMode = process.driver.mmapMode)
    (inside : next.critical = true → (process.phase thread).critical = true)
    (notSet : ∀ handle, next ≠ .modeSet handle) :
    Sound ⟨driver, process.holder, Function.update process.phase thread next, objects⟩ :=
  sound.moves ledger (fun critical => sound.mutex thread (inside critical))
    (fun handle set => absurd set (notSet handle)) fun _ _ _ => ⟨rfl, same⟩

theorem Sound.inside (sound : Sound process) {driver : Privdata} {holder : Option ThreadId}
    {objects : ObjectId → Option KernelMemory} {next : Phase}
    (critical : (process.phase thread).critical = true)
    (ledger : Ledger driver.kmemList
      (claimsOf (Function.update process.phase thread next) objects))
    (held : next.critical = true → holder = some thread)
    (mode : ∀ handle, next = .modeSet handle → driver.mmapMode = .kmem) :
    Sound ⟨driver, holder, Function.update process.phase thread next, objects⟩ :=
  sound.moves ledger held mode fun _ differ also => absurd also (sound.alone critical differ)

theorem Sound.kept (sound : Sound process) {next : Phase}
    (claim : next.claim = (process.phase thread).claim) :
    Ledger process.driver.kmemList
      (claimsOf (Function.update process.phase thread next) process.objects) := by
  rw [claims_kept _ _ claim]
  exact sound.ledger

theorem sound_begin (sound : Sound process) {action : Action} {after : Process}
    (idle : process.phase thread = .idle) (step : process.begin thread action = some after) :
    Sound after := by
  cases action with
  | construct size outcome =>
      simp only [Process.begin] at step
      split at step
      · rename_i fresh
        cases step
        cases outcome with
        | noEntry => exact sound.quiet (sound.kept (by rw [idle]; rfl)) rfl nofun nofun
        | noMemory => exact sound.quiet (sound.kept (by rw [idle]; rfl)) rfl nofun nofun
        | granted cpua dmaHandle =>
            have granted := sound.ledger.granted (.inr thread)
              ⟨process.driver.kmemCount, dmaHandle, cpua, size.setWidth 64⟩ fresh
            have next := claims_phase process.phase process.objects thread
              (.allocated ⟨dmaHandle, size.setWidth 64, process.driver.kmemCount⟩)
            exact sound.quiet (next ▸ granted) rfl nofun nofun
      · cases step
  | mapBAR bar =>
      cases step
      exact sound.quiet (sound.kept (by rw [idle]; rfl)) rfl nofun nofun
  | delete object =>
      simp only [Process.begin] at step
      cases found : process.objects object with
      | none => simp [found] at step
      | some memory =>
          simp only [found, Option.some.injEq] at step
          subst step
          have held : claimsOf process.phase process.objects (.inl object) =
              some (objectClaim memory) := by simp [claimsOf, found]
          have free : claimsOf process.phase process.objects (.inr thread) = none := by
            simp [claimsOf, idle, Phase.claim]
          have moved := @Ledger.moved _ _ _ _ sound.ledger _ _ _ ⟨memory.handle.pa, none⟩ held
            (Or.inr free) rfl nofun
          have next : claimsOf
              (Function.update process.phase thread (.releasing memory.handle))
              (Function.update process.objects object none) = Function.update (Function.update
                (claimsOf process.phase process.objects) (.inl object) none) (.inr thread)
                (some ⟨memory.handle.pa, none⟩) := by
            rw [claims_phase, claims_object]
            rfl
          exact sound.quiet (next ▸ moved) rfl nofun nofun
  | lock | mmapMode | mmapArea | mmap | unlock | kmemFree => cases step

theorem sound_acquire (sound : Sound process) {next : Phase} {after : Process}
    (claim : next.claim = (process.phase thread).claim) (notSet : ∀ handle, next ≠ .modeSet handle)
    (step : process.acquire thread next = some after) : Sound after := by
  unfold Process.acquire at step
  split at step
  · rename_i free
    cases step
    apply sound.moves (sound.kept claim) (fun _ => rfl) fun handle set => absurd set (notSet handle)
    intro other _ inside
    have held := sound.mutex other inside
    rw [free] at held
    cases held
  · cases step

theorem sound_unlock_mapped (sound : Sound process) {handle : KmemHandle} {mem : Mapping}
    (current : process.phase thread = .mapped handle mem) {object : ObjectId}
    (free : process.objects object = none) :
    Sound ((process.setObject object (some ⟨handle, mem⟩)).release thread .idle) := by
  have inside : (process.phase thread).critical = true := by rw [current, Phase.critical]
  have held : claimsOf process.phase process.objects (.inr thread) =
      some ⟨handle.pa, some mem⟩ := by simp [claimsOf, current, Phase.claim]
  have unclaimed : claimsOf process.phase process.objects (.inl object) = none := by
    simp [claimsOf, free]
  have own := sound.ledger.own (.inr thread) _ mem held rfl
  have moved := sound.ledger.moved held (Or.inr unclaimed) rfl fun other made => by
    cases made
    exact own
  have next : claimsOf (Function.update process.phase thread .idle)
      (Function.update process.objects object (some ⟨handle, mem⟩)) =
      Function.update (Function.update (claimsOf process.phase process.objects) (.inr thread) none)
        (.inl object) (some ⟨handle.pa, some mem⟩) := by
    rw [claims_object, claims_phase]
    rfl
  exact sound.inside inside (next ▸ moved) nofun nofun

/-- The free finds its entry: it is listed as long as it is claimed. -/
theorem sound_kmem_free (sound : Sound process) {handle : KmemHandle}
    (current : process.phase thread = .releasing handle) {after : Process}
    (step : (match process.driver.kmemFree handle with
      | some driver => some ({ process with driver := driver }.setPhase thread .idle)
      | none => some (process.setPhase thread .idle)) = some after) : Sound after := by
  have held : claimsOf process.phase process.objects (.inr thread) = some ⟨handle.pa, none⟩ := by
    simp [claimsOf, current, Phase.claim]
  obtain ⟨entry, member, address⟩ := sound.ledger.listed (.inr thread) _ held
  have found : ∃ entry, kmemFindEntry process.driver.kmemList handle = some entry := by
    rw [← Option.isSome_iff_exists, kmemFindEntry, List.find?_isSome]
    exact ⟨entry, member, by simpa using address⟩
  obtain ⟨entry, found⟩ := found
  simp only [Privdata.kmemFree, found, Option.map_some, Option.some.injEq] at step
  subst step
  have freed := sound.ledger.freed held
  have next := claims_phase process.phase process.objects thread .idle
  exact sound.quiet (next ▸ freed) rfl nofun nofun

/-- A mapping of the newest entry is the constructor's own when that entry is. -/
theorem sound_mmap (sound : Sound process) {pageSize : ℕ} {handle : KmemHandle}
    (current : process.phase thread = .modeSet handle) {remapped : Bool} {mem : Mapping}
    (newest : ∀ entry, latestEntry process.driver.kmemList = some entry →
      Privdata.sizesMatch pageSize handle.size entry = true → remapped = true →
      entry.dmaHandle = handle.pa)
    (made : process.driver.mmap pageSize handle.size remapped = some mem) :
    Sound (process.setPhase thread (.mapped handle mem)) := by
  have held : claimsOf process.phase process.objects (.inr thread) = some ⟨handle.pa, none⟩ := by
    simp [claimsOf, current, Phase.claim]
  have own : MapsOwn process.driver.kmemList handle.pa mem := by
    simp only [Privdata.mmap, sound.mode thread handle current] at made
    cases latest : latestEntry process.driver.kmemList with
    | none => simp [latest] at made
    | some entry =>
        simp only [latest, Option.ite_none_right_eq_some, Bool.and_eq_true, Option.some.injEq] at made
        obtain ⟨⟨fits, through⟩, rfl⟩ := made
        exact ⟨entry, List.mem_of_getLast? latest, newest entry latest fits through, rfl⟩
  have moved := @Ledger.moved _ _ _ _ sound.ledger _ (.inr thread) _ ⟨handle.pa, some mem⟩ held
    (Or.inl rfl) rfl fun other same => by
      cases same
      exact own
  rw [Function.update_idem] at moved
  have next := claims_phase process.phase process.objects thread (.mapped handle mem)
  have inside : (process.phase thread).critical = true := by rw [current, Phase.critical]
  exact sound.quiet (next ▸ moved) rfl (fun _ => inside) nofun

end Steps

/-- The condition on a step: a constructor's `mmap` that goes through finds its own entry
newest, so no entry allocated after it is still listed. -/
def NewestIsOwn (pageSize : ℕ) (process : Process) (label : Step) : Prop :=
  ∀ handle remapped, process.phase label.thread = .modeSet handle →
    label.action = .mmap remapped →
      ∀ entry, latestEntry process.driver.kmemList = some entry →
        Privdata.sizesMatch pageSize handle.size entry = true → remapped = true →
          entry.dmaHandle = handle.pa

theorem sound_step {pageSize : ℕ} {process after : Process} (sound : Sound process) (label : Step)
    (newest : NewestIsOwn pageSize process label)
    (step : process.step pageSize label = some after) : Sound after := by
  obtain ⟨thread, action⟩ := label
  have inside : ∀ {phase}, process.phase thread = phase → phase.critical = true →
      (process.phase thread).critical = true := by
    intro phase same critical
    subst same
    exact critical
  simp only [Process.step] at step
  split at step
  · rename_i current
    exact sound_begin sound current step
  · rename_i handle current
    exact sound_acquire sound (by rw [current]; rfl) (by simp) step
  · rename_i handle accepted current
    split at step <;> cases step
    · exact sound.inside (inside current rfl) (sound.kept (by rw [current]; rfl))
        (fun _ => sound.mutex thread (inside current rfl)) fun _ _ => rfl
    · exact sound.quiet (sound.kept (by rw [current]; rfl)) rfl (fun _ => inside current rfl) nofun
  · rename_i handle remapped current
    split at step <;> cases step
    · rename_i mem made
      exact sound_mmap sound current (newest handle remapped current rfl) made
    · exact sound.quiet (sound.kept (by rw [current]; rfl)) rfl (fun _ => inside current rfl) nofun
  · rename_i handle mem object current
    split at step
    · cases step
    · rename_i free
      cases step
      exact sound_unlock_mapped sound current free
  · rename_i handle object current
    cases step
    exact sound.inside (inside current rfl) (sound.kept (by rw [current]; rfl)) nofun nofun
  · rename_i handle current
    exact sound_kmem_free sound current step
  · rename_i bar current
    exact sound_acquire sound (by rw [current]; rfl) (by simp) step
  · rename_i bar accepted current
    split at step <;> cases step
    · exact sound.inside (inside current rfl) (sound.kept (by rw [current]; rfl))
        (fun _ => sound.mutex thread (inside current rfl)) nofun
    · exact sound.quiet (sound.kept (by rw [current]; rfl)) rfl nofun nofun
  · rename_i bar accepted current
    split at step <;> cases step
    · exact sound.inside (inside current rfl) (sound.kept (by rw [current]; rfl))
        (fun _ => sound.mutex thread (inside current rfl)) nofun
    · exact sound.quiet (sound.kept (by rw [current]; rfl)) rfl nofun nofun
  · rename_i bar remapped current
    cases step
    exact sound.quiet (sound.kept (by rw [current]; rfl)) rfl (fun _ => inside current rfl) nofun
  · rename_i object current
    cases step
    exact sound.inside (inside current rfl) (sound.kept (by rw [current]; rfl)) nofun nofun
  · cases step

theorem sound_of_reached {pageSize : ℕ} {process : Process}
    (reached : (mappingSystem pageSize).ReachableUnder (NewestIsOwn pageSize) process) :
    Sound process := by
  apply System.invariant_under _ _ reached
  · intro process initial
    rcases initial with ⟨empty, free, idle, none_⟩
    have unclaimed : claimsOf process.phase process.objects = fun _ => none := by
      funext owner
      cases owner with
      | inl object => simp [claimsOf, none_ object]
      | inr thread => simp [claimsOf, idle thread, Phase.claim]
    constructor
    · rw [empty, unclaimed]
      exact Ledger.empty
    · intro thread critical
      rw [idle thread] at critical
      cases critical
    · intro thread handle set
      rw [idle thread] at set
      cases set
  · intro process label after sound newest step
    exact sound_step sound label newest step

/-- In a run whose constructors find their own entries newest, every object maps the
memory whose bus address it stores, and no two objects share memory. A step that does
not meet the condition maps another entry's memory. -/
theorem objects_map_their_own_memory (pageSize : ℕ) {process : Process}
    (reached : (mappingSystem pageSize).ReachableUnder (NewestIsOwn pageSize) process) :
    (∀ object memory, process.objects object = some memory →
      MapsOwn process.driver.kmemList memory.handle.pa memory.mem) ∧
    (∀ left right leftMemory rightMemory, process.objects left = some leftMemory →
      process.objects right = some rightMemory → left ≠ right →
      leftMemory.handle.pa ≠ rightMemory.handle.pa ∧ leftMemory.mem ≠ rightMemory.mem) ∧
    (∀ label after, process.step pageSize label = some after →
      ¬NewestIsOwn pageSize process label → ∃ handle mem,
        after.phase label.thread = .mapped handle mem ∧
          ¬MapsOwn after.driver.kmemList handle.pa mem) := by
  have sound := sound_of_reached reached
  have claimed : ∀ {object memory}, process.objects object = some memory →
      claimsOf process.phase process.objects (.inl object) = some (objectClaim memory) := by
    intro object memory live
    simp [claimsOf, live]
  refine ⟨?_, ?_, ?_⟩
  · intro object memory live
    exact sound.ledger.own _ _ memory.mem (claimed live) rfl
  · intro left right leftMemory rightMemory leftLive rightLive differ
    have addresses : leftMemory.handle.pa ≠ rightMemory.handle.pa := fun same =>
      differ (Sum.inl.inj (sound.ledger.exclusive _ _ _ _ (claimed leftLive) (claimed rightLive)
        same))
    refine ⟨addresses, fun same => ?_⟩
    obtain ⟨one, oneIn, oneAddress, oneMem⟩ := sound.ledger.own _ _ _ (claimed leftLive) rfl
    obtain ⟨two, twoIn, twoAddress, twoMem⟩ := sound.ledger.own _ _ _ (claimed rightLive) rfl
    rw [oneMem, twoMem, Mapping.kernel.injEq] at same
    rw [sound.ledger.memory.eq oneIn twoIn same] at oneAddress
    exact addresses (oneAddress.symm.trans twoAddress)
  · intro label after step violated
    obtain ⟨thread, action⟩ := label
    simp only [NewestIsOwn, not_forall] at violated
    obtain ⟨handle, remapped, current, rfl, entry, latest, fits, through, other⟩ := violated
    have made : process.driver.mmap pageSize handle.size remapped = some (.kernel entry.cpua) := by
      simp only [Privdata.mmap, sound.mode thread handle current, latest, fits, through,
        Bool.and_self, if_true]
    simp only [Process.step, current, made, Option.some.injEq] at step
    subst step
    refine ⟨handle, .kernel entry.cpua, by simp [Process.setPhase], ?_⟩
    intro present
    rcases present with ⟨own, ownIn, address, same⟩
    have entryIn := List.mem_of_getLast? latest
    rw [Mapping.kernel.injEq] at same
    rw [sound.ledger.memory.eq entryIn ownIn same] at other
    exact other address

def openedDevice : Process where
  driver := ⟨[], 0, .pci, 0⟩
  holder := none
  phase := fun _ => .idle
  objects := fun _ => none

def afterRun (process : Process) (labels : List Step) : Process :=
  ((mappingSystem 4096).runFrom process labels).getD process

def allocation : List Step := [⟨0, .construct 64 (.granted 0x10000#64 0x1000#64)⟩]

def mapping (thread : ThreadId) (object : ObjectId) : List Step :=
  [⟨thread, .lock⟩, ⟨thread, .mmapMode true⟩, ⟨thread, .mmap true⟩, ⟨thread, .unlock object⟩]

theorem objects_map_their_own_memory_one_thread :
    MapsOwn (afterRun openedDevice (allocation ++ mapping 0 0)).driver.kmemList 0x1000#64
      (.kernel 0x10000#64) := by
  have opened : (mappingSystem 4096).ReachableUnder (NewestIsOwn 4096) openedDevice :=
    .start ⟨rfl, rfl, fun _ => rfl, fun _ => rfl⟩
  have allocated := @System.ReachableUnder.next _ _ _ _ _
    (afterRun openedDevice allocation) ⟨0, .construct 64 (.granted 0x10000#64 0x1000#64)⟩ opened
    (fun _ _ _ => nofun) rfl
  have locked := @System.ReachableUnder.next _ _ _ _ _
    (afterRun openedDevice (allocation ++ [⟨0, .lock⟩])) ⟨0, .lock⟩ allocated
    (fun _ _ _ => nofun) rfl
  have set := @System.ReachableUnder.next _ _ _ _ _
    (afterRun openedDevice (allocation ++ [⟨0, .lock⟩, ⟨0, .mmapMode true⟩]))
    ⟨0, .mmapMode true⟩ locked (fun _ _ _ => nofun) rfl
  have newest : NewestIsOwn 4096
      (afterRun openedDevice (allocation ++ [⟨0, .lock⟩, ⟨0, .mmapMode true⟩])) ⟨0, .mmap true⟩ := by
    intro handle remapped current _ entry latest _ _
    cases current
    cases latest
    rfl
  have mapped := @System.ReachableUnder.next _ _ _ _ _
    (afterRun openedDevice (allocation ++ [⟨0, .lock⟩, ⟨0, .mmapMode true⟩, ⟨0, .mmap true⟩]))
    ⟨0, .mmap true⟩ set newest rfl
  have finished := @System.ReachableUnder.next _ _ _ _ _
    (afterRun openedDevice (allocation ++ mapping 0 0)) ⟨0, .unlock 0⟩ mapped
    (fun _ _ _ => nofun) rfl
  exact (objects_map_their_own_memory 4096 finished).1 0 ⟨⟨0x1000#64, 64, 0⟩, _⟩ rfl

/-- Two threads allocate before either maps: both objects map the second buffer. -/
theorem racing_constructions_share_memory : ∃ process first second,
    (mappingSystem 4096).Reachable process ∧ process.objects 0 = some first ∧
      process.objects 1 = some second ∧ first.mem = second.mem ∧
      ¬MapsOwn process.driver.kmemList first.handle.pa first.mem := by
  let labels := allocation ++ ⟨1, .construct 64 (.granted 0x20000#64 0x2000#64)⟩ ::
    (mapping 0 0 ++ mapping 1 1)
  have opened : (mappingSystem 4096).Reachable openedDevice :=
    .start ⟨rfl, rfl, fun _ => rfl, fun _ => rfl⟩
  have run : (mappingSystem 4096).runFrom openedDevice labels =
      some (afterRun openedDevice labels) := rfl
  refine ⟨afterRun openedDevice labels, ⟨⟨0x1000#64, 64, 0⟩, .kernel 0x20000#64⟩,
    ⟨⟨0x2000#64, 64, 1⟩, .kernel 0x20000#64⟩,
    System.reachable_of_run labels opened (fun _ _ _ => trivial) run, rfl, rfl, rfl, ?_⟩
  have list : (afterRun openedDevice labels).driver.kmemList =
      [⟨0, 0x1000#64, 0x10000#64, 64⟩, ⟨1, 0x2000#64, 0x20000#64, 64⟩] := rfl
  rw [list]
  intro present
  rcases present with ⟨entry, member, address, same⟩
  simp only [List.mem_cons, List.not_mem_nil, or_false] at member
  rcases member with rfl | rfl
  · exact absurd same (by decide)
  · exact absurd address (by decide)

end FpgaPcie.Driver
