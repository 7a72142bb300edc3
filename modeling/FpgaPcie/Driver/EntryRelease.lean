import FpgaPcie.Driver.EntryStore

/-!
# Entries are given back once, if operations do not cross

Each operation that creates or frees an entry owns it; what an owner has still to
give back has not been given back, and what no owner holds has lost nothing. A step
changes the store at the owner's entry only, so the other operations keep what they
rely on.
-/

namespace FpgaPcie.Driver.Entries

open FpgaPcie.Transition FpgaPcie.Keyed

set_option autoImplicit false

/-- The structure goes last, the memory before the link, and only the file before the
memory. -/
theorem release_order (kind : EntryKind) : ∀ todo ∈ kind.releases.tails,
    todo.Nodup ∧ (todo ≠ [] → Part.entryStruct ∈ todo) ∧
      (kind.memory ∈ todo → Part.link ∈ todo) ∧
      (kind.memory ∈ todo.tail → todo.head? = some Part.sysfsFile) := by
  cases kind <;> decide

theorem memory_of_dma (kind : EntryKind) (released : Part.dmaMemory ∈ kind.releases) :
    kind = .kmem ∧ kind.memory = .dmaMemory := by
  cases kind with
  | kmem => exact ⟨rfl, rfl⟩
  | umem => exact absurd released (by decide)

theorem gives_up_once (kind : EntryKind) (part : Part) : (kind.givesUp part).Nodup ∧
    Part.link ∉ kind.givesUp part ∧ Part.dmaMemory ∉ kind.givesUp part := by
  cases kind <;> cases part <;> decide

def Unlisted (store : Store) (serial : ℕ) : Prop := ∀ other ∈ store.list, other.serial ≠ serial

structure Creating (kind : EntryKind) (store : Store) (entry : Entry) (todo : List Part) :
    Prop where
  below : entry.serial < store.nextSerial
  unlisted : Unlisted store entry.serial
  kept : ∀ part, (entry.serial, part) ∉ store.given
  memory : kind = .kmem → Part.dmaMemory ∉ todo →
    (entry.serial, entry.dmaHandle) ∈ store.allocated

structure GivingUp (store : Store) (entry : Entry) (todo : List Part) : Prop where
  below : entry.serial < store.nextSerial
  unlisted : Unlisted store entry.serial
  once : todo.Nodup
  unshared : Part.link ∉ todo ∧ Part.dmaMemory ∉ todo
  unlinked : (entry.serial, Part.link) ∉ store.given
  kept : ∀ part ∈ todo, (entry.serial, part) ∉ store.given

structure Freeing (kind : EntryKind) (store : Store) (entry : Entry) (todo : List Part) :
    Prop where
  below : entry.serial < store.nextSerial
  order : todo ∈ kind.releases.tails
  more : todo ≠ []
  given : ∀ part ∈ kind.releases, (entry.serial, part) ∈ store.given ↔ part ∉ todo
  listed : Part.link ∈ todo → entry ∈ store.list
  unlisted : Part.link ∉ todo → Unlisted store entry.serial

def OperationSound (kind : EntryKind) (store : Store) : Operation → Prop
  | .idle => True
  | .creating entry todo => Creating kind store entry todo
  | .givingUp entry todo => GivingUp store entry todo
  | .freeing entry todo => Freeing kind store entry todo
  | .syncing entry _ => entry ∈ store.list ∧ (entry.serial, kind.memory) ∉ store.given
  | .reporting entry => (entry ∈ store.list ∨ (entry.serial, Part.link) ∈ store.given) ∧
      (entry.serial, Part.entryStruct) ∉ store.given

def owns : Operation → Option ℕ
  | .creating entry _ | .givingUp entry _ | .freeing entry _ => some entry.serial
  | _ => none

def uses : Operation → Option ℕ
  | .syncing entry _ | .reporting entry => some entry.serial
  | _ => none

structure StoreSound (kind : EntryKind) (store : Store) (owned : ℕ → Prop) : Prop where
  serials : Distinct Entry.serial store.list
  below : ∀ entry ∈ store.list, entry.serial < store.nextSerial
  givenBelow : ∀ serial part, (serial, part) ∈ store.given → serial < store.nextSerial
  once : store.given.Nodup
  unused : store.usedAfter = false
  unowned : ∀ entry ∈ store.list, ¬owned entry.serial → ∀ part, (entry.serial, part) ∉ store.given
  memory : kind = .kmem → ∀ entry ∈ store.list, (entry.serial, Part.dmaMemory) ∉ store.given →
    (entry.serial, entry.dmaHandle) ∈ store.allocated
  addresses : Distinct Prod.snd store.allocated

structure DeviceSound (kind : EntryKind) (device : Device) : Prop where
  store : StoreSound kind device.store fun serial =>
    ∃ process, owns (device.operation process) = some serial
  operations : ∀ process, OperationSound kind device.store (device.operation process)
  exclusive : ∀ one other serial, owns (device.operation one) = some serial →
    owns (device.operation other) = some serial → one = other

structure SameElsewhere (serial : ℕ) (store after : Store) : Prop where
  next : store.nextSerial ≤ after.nextSerial
  list : ∀ entry : Entry, entry.serial ≠ serial → (entry ∈ after.list ↔ entry ∈ store.list)
  given : ∀ other part, other ≠ serial → ((other, part) ∈ after.given ↔ (other, part) ∈ store.given)
  allocated : ∀ other address, other ≠ serial → (other, address) ∈ store.allocated →
    (other, address) ∈ after.allocated

section Frames

variable {kind : EntryKind} {serial : ℕ} {store after : Store}

theorem SameElsewhere.refl : SameElsewhere serial store store :=
  ⟨le_rfl, fun _ _ => Iff.rfl, fun _ _ _ => Iff.rfl, fun _ _ _ held => held⟩

theorem SameElsewhere.unlisted (same : SameElsewhere serial store after) {other : ℕ}
    (differ : other ≠ serial) (unlisted : Unlisted store other) : Unlisted after other := by
  intro entry member same
  subst same
  exact unlisted entry ((same.list entry differ).mp member) rfl

theorem operation_frame (same : SameElsewhere serial store after) {operation : Operation}
    (sound : OperationSound kind store operation) (differ : owns operation ≠ some serial)
    (user : uses operation = some serial → OperationSound kind after operation) :
    OperationSound kind after operation := by
  cases operation with
  | idle => trivial
  | creating entry todo =>
      have other : entry.serial ≠ serial := fun equal => differ (by rw [owns, equal])
      exact {
        below := lt_of_lt_of_le sound.below same.next
        unlisted := same.unlisted other sound.unlisted
        kept := fun part given => sound.kept part ((same.given _ part other).mp given)
        memory := fun kmem had => same.allocated _ _ other (sound.memory kmem had) }
  | givingUp entry todo =>
      have other : entry.serial ≠ serial := fun equal => differ (by rw [owns, equal])
      exact {
        below := lt_of_lt_of_le sound.below same.next
        unlisted := same.unlisted other sound.unlisted
        once := sound.once
        unshared := sound.unshared
        unlinked := fun given => sound.unlinked ((same.given _ _ other).mp given)
        kept := fun part member given => sound.kept part member ((same.given _ part other).mp given) }
  | freeing entry todo =>
      have other : entry.serial ≠ serial := fun equal => differ (by rw [owns, equal])
      exact {
        below := lt_of_lt_of_le sound.below same.next
        order := sound.order
        more := sound.more
        given := fun part released => (same.given _ part other).trans (sound.given part released)
        listed := fun linked => (same.list entry other).mpr (sound.listed linked)
        unlisted := fun unlinked => same.unlisted other (sound.unlisted unlinked) }
  | syncing entry calls =>
      by_cases here : entry.serial = serial
      · exact user (by rw [uses, here])
      · exact ⟨(same.list entry here).mpr sound.1,
          fun given => sound.2 ((same.given _ _ here).mp given)⟩
  | reporting entry =>
      by_cases here : entry.serial = serial
      · exact user (by rw [uses, here])
      · exact ⟨sound.1.imp (same.list entry here).mpr (same.given _ _ here).mpr,
          fun given => sound.2 ((same.given _ _ here).mp given)⟩

theorem user_kept (list : after.list = store.list) (given : after.given = store.given)
    {operation : Operation} (sound : OperationSound kind store operation)
    (user : uses operation = some serial) : OperationSound kind after operation := by
  cases operation with
  | syncing entry calls =>
      rw [OperationSound, list, given]
      exact sound
  | reporting entry =>
      rw [OperationSound, list, given]
      exact sound
  | idle | creating | givingUp | freeing => cases user

theorem unlinked_unused (unlisted : Unlisted store serial)
    (unlinked : (serial, Part.link) ∉ store.given) {operation : Operation}
    (sound : OperationSound kind store operation) : uses operation ≠ some serial := by
  intro user
  cases operation with
  | syncing entry calls =>
      rw [uses, Option.some.injEq] at user
      exact unlisted entry sound.1 user
  | reporting entry =>
      rw [uses, Option.some.injEq] at user
      rcases sound.1 with listed | given
      · exact unlisted entry listed user
      · exact unlinked (user ▸ given)
  | idle | creating | givingUp | freeing => cases user

end Frames

section Moves

variable {kind : EntryKind} {device : Device} {process : ProcessId}

/-- What a step has to show: it works on one serial, which no other operation owns. -/
structure Move (kind : EntryKind) (device : Device) (process : ProcessId) (after : Store)
    (operation : Operation) (serial : ℕ) : Prop where
  elsewhere : SameElsewhere serial device.store after
  mine : ∀ other, other ≠ process → owns (device.operation other) ≠ some serial
  before : owns (device.operation process) = some serial ∨
    owns (device.operation process) = none
  now : owns operation = some serial ∨ owns operation = none
  users : ∀ other, uses (device.operation other) = some serial →
    OperationSound kind after (device.operation other)
  own : OperationSound kind after operation
  serials : Distinct Entry.serial after.list
  once : after.given.Nodup
  unused : after.usedAfter = false
  addresses : Distinct Prod.snd after.allocated
  belowGiven : ∀ part, (serial, part) ∈ after.given → serial < after.nextSerial
  belowListed : ∀ entry ∈ after.list, entry.serial = serial → serial < after.nextSerial
  unowned : owns operation = none → ∀ entry ∈ after.list, entry.serial = serial →
    ∀ part, (entry.serial, part) ∉ after.given
  memory : kind = .kmem → ∀ entry ∈ after.list, entry.serial = serial →
    (entry.serial, Part.dmaMemory) ∉ after.given →
    (entry.serial, entry.dmaHandle) ∈ after.allocated

theorem DeviceSound.moves (sound : DeviceSound kind device) {after : Store}
    {operation : Operation} {serial : ℕ}
    (move : Move kind device process after operation serial) :
    DeviceSound kind (device.update process after operation) := by
  have same := move.elsewhere
  have others : ∀ {other}, other ≠ process →
      (device.update process after operation).operation other = device.operation other :=
    fun differ => Function.update_of_ne differ _ _
  have own : (device.update process after operation).operation process = operation :=
    Function.update_self _ _ _
  have owned : ∀ other, other ≠ serial →
      (∃ one, owns (device.operation one) = some other) →
      ∃ one, owns ((device.update process after operation).operation one) = some other := by
    intro other differ both
    rcases both with ⟨one, holds⟩
    have elsewhere : one ≠ process := by
      intro same
      subst same
      rcases move.before with held | none_
      · rw [held, Option.some.injEq] at holds
        exact differ holds.symm
      · rw [none_] at holds
        cases holds
    exact ⟨one, by rw [others elsewhere]; exact holds⟩
  refine ⟨⟨move.serials, ?_, ?_, move.once, move.unused, ?_, ?_, move.addresses⟩, ?_, ?_⟩
  · intro entry member
    by_cases here : entry.serial = serial
    · rw [here]
      exact move.belowListed entry member here
    · exact lt_of_lt_of_le (sound.store.below entry ((same.list entry here).mp member)) same.next
  · intro other part given
    by_cases here : other = serial
    · subst here
      exact move.belowGiven part given
    · exact lt_of_lt_of_le (sound.store.givenBelow other part ((same.given other part here).mp given))
        same.next
  · intro entry member free part given
    by_cases here : entry.serial = serial
    · rcases move.now with holds | none_
      · exact free ⟨process, by rw [own, here]; exact holds⟩
      · exact move.unowned none_ entry member here part given
    · exact sound.store.unowned entry ((same.list entry here).mp member)
        (fun holds => free (owned _ here holds)) part ((same.given _ part here).mp given)
  · intro kmem entry member kept
    by_cases here : entry.serial = serial
    · exact move.memory kmem entry member here kept
    · exact same.allocated _ _ here (sound.store.memory kmem entry
        ((same.list entry here).mp member) fun given => kept ((same.given _ _ here).mpr given))
  · intro other
    by_cases this : other = process
    · subst this
      rw [own]
      exact move.own
    · rw [others this]
      exact operation_frame same (sound.operations other) (move.mine other this)
        (move.users other)
  · intro one other held oneHolds otherHolds
    by_cases oneThis : one = process <;> by_cases otherThis : other = process
    · rw [oneThis, otherThis]
    · rw [others otherThis] at otherHolds
      rw [oneThis, own] at oneHolds
      rcases move.now with now | none_
      · rw [now, Option.some.injEq] at oneHolds
        exact absurd (oneHolds ▸ otherHolds) (move.mine other otherThis)
      · rw [none_] at oneHolds
        cases oneHolds
    · rw [others oneThis] at oneHolds
      rw [otherThis, own] at otherHolds
      rcases move.now with now | none_
      · rw [now, Option.some.injEq] at otherHolds
        exact absurd (otherHolds ▸ oneHolds) (move.mine one oneThis)
      · rw [none_] at otherHolds
        cases otherHolds
    · rw [others oneThis] at oneHolds
      rw [others otherThis] at otherHolds
      exact sound.exclusive one other held oneHolds otherHolds

-- What an operation relies on, by the kind of operation.

theorem DeviceSound.of_creating (sound : DeviceSound kind device) {entry : Entry}
    {todo : List Part} (current : device.operation process = .creating entry todo) :
    Creating kind device.store entry todo := by
  have relied := sound.operations process
  rwa [current] at relied

theorem DeviceSound.of_giving_up (sound : DeviceSound kind device) {entry : Entry}
    {todo : List Part} (current : device.operation process = .givingUp entry todo) :
    GivingUp device.store entry todo := by
  have relied := sound.operations process
  rwa [current] at relied

theorem DeviceSound.of_freeing (sound : DeviceSound kind device) {entry : Entry}
    {todo : List Part} (current : device.operation process = .freeing entry todo) :
    Freeing kind device.store entry todo := by
  have relied := sound.operations process
  rwa [current] at relied

theorem DeviceSound.owner_below (sound : DeviceSound kind device) {other : ProcessId} {serial : ℕ}
    (holds : owns (device.operation other) = some serial) : serial < device.store.nextSerial := by
  cases current : device.operation other with
  | idle | syncing | reporting => simp [current, owns] at holds
  | creating entry todo =>
      rw [current, owns, Option.some.injEq] at holds
      exact holds ▸ (sound.of_creating current).below
  | givingUp entry todo =>
      rw [current, owns, Option.some.injEq] at holds
      exact holds ▸ (sound.of_giving_up current).below
  | freeing entry todo =>
      rw [current, owns, Option.some.injEq] at holds
      exact holds ▸ (sound.of_freeing current).below

theorem DeviceSound.owner_frees (sound : DeviceSound kind device) {other : ProcessId}
    {entry : Entry} (member : entry ∈ device.store.list)
    (holds : owns (device.operation other) = some entry.serial) :
    ∃ todo, device.operation other = .freeing entry todo ∧ Part.link ∈ todo := by
  cases current : device.operation other with
  | idle | syncing | reporting => simp [current, owns] at holds
  | creating held todo =>
      rw [current, owns, Option.some.injEq] at holds
      exact absurd holds.symm ((sound.of_creating current).unlisted entry member)
  | givingUp held todo =>
      rw [current, owns, Option.some.injEq] at holds
      exact absurd holds.symm ((sound.of_giving_up current).unlisted entry member)
  | freeing held todo =>
      rw [current, owns, Option.some.injEq] at holds
      have own := sound.of_freeing current
      by_cases linked : Part.link ∈ todo
      · have same := sound.store.serials.eq (own.listed linked) member holds
        subst same
        exact ⟨todo, rfl, linked⟩
      · exact absurd holds.symm (own.unlisted linked entry member)

theorem DeviceSound.listed_kept (sound : DeviceSound kind device) {entry : Entry}
    (member : entry ∈ device.store.list) :
    (entry.serial, Part.entryStruct) ∉ device.store.given := by
  by_cases owned : ∃ other, owns (device.operation other) = some entry.serial
  · obtain ⟨other, holds⟩ := owned
    obtain ⟨todo, current, -⟩ := sound.owner_frees member holds
    have own := sound.of_freeing current
    have last := (release_order kind todo own.order).2.1 own.more
    have released : Part.entryStruct ∈ kind.releases := by cases kind <;> decide
    exact fun given => (own.given _ released).mp given last
  · exact sound.store.unowned entry member owned _

theorem touch_kept {store : Store} {entry : Entry} {needs : List Part}
    (kept : ∀ part ∈ needs, (entry.serial, part) ∉ store.given) :
    store.touch entry needs = store := by
  have none_ : (needs.any fun part => (entry.serial, part) ∈ store.given) = false := by
    simpa using kept
  rw [Store.touch, none_, Bool.or_false]

/-- A step that leaves the store alone and owns nothing before and after. -/
theorem DeviceSound.looks (sound : DeviceSound kind device) {operation : Operation}
    (before : owns (device.operation process) = none) (now : owns operation = none)
    (own : OperationSound kind device.store operation) :
    DeviceSound kind (device.update process device.store operation) := by
  have fresh : ∀ entry ∈ device.store.list, entry.serial ≠ device.store.nextSerial :=
    fun entry member => Nat.ne_of_lt (sound.store.below entry member)
  have move : Move kind device process device.store operation device.store.nextSerial := {
    elsewhere := .refl
    mine := fun other _ holds => absurd (sound.owner_below holds) (lt_irrefl _)
    before := Or.inr before
    now := Or.inr now
    users := fun other _ => sound.operations other
    own := own
    serials := sound.store.serials
    once := sound.store.once
    unused := sound.store.unused
    addresses := sound.store.addresses
    belowGiven := fun part given => absurd (sound.store.givenBelow _ part given) (lt_irrefl _)
    belowListed := fun entry member here => absurd here (fresh entry member)
    unowned := fun _ entry member here => absurd here (fresh entry member)
    memory := fun _ entry member here => absurd here (fresh entry member) }
  exact sound.moves move

theorem DeviceSound.create (sound : DeviceSound kind device)
    (idle : device.operation process = .idle) :
    DeviceSound kind (device.update process
      { device.store with nextSerial := device.store.nextSerial + 1 }
      (.creating ⟨device.store.nextSerial, 0, 0⟩ kind.acquires)) := by
  have fresh : ∀ entry ∈ device.store.list, entry.serial ≠ device.store.nextSerial :=
    fun entry member => Nat.ne_of_lt (sound.store.below entry member)
  have ungiven : ∀ part, (device.store.nextSerial, part) ∉ device.store.given :=
    fun part given => absurd (sound.store.givenBelow _ part given) (lt_irrefl _)
  have move : Move kind device process
      { device.store with nextSerial := device.store.nextSerial + 1 }
      (.creating ⟨device.store.nextSerial, 0, 0⟩ kind.acquires) device.store.nextSerial := {
    elsewhere := ⟨Nat.le_succ _, fun _ _ => Iff.rfl, fun _ _ _ => Iff.rfl, fun _ _ _ held => held⟩
    mine := fun other _ holds => absurd (sound.owner_below holds) (lt_irrefl _)
    before := Or.inr (by rw [idle]; rfl)
    now := Or.inl rfl
    users := fun other user => by
      apply user_kept _ _ (sound.operations other) user <;> rfl
    own := by
      refine ⟨Nat.lt_succ_self _, fresh, ungiven, fun kmem none_ => absurd ?_ none_⟩
      rw [kmem]
      decide
    serials := sound.store.serials
    once := sound.store.once
    unused := sound.store.unused
    addresses := sound.store.addresses
    belowGiven := fun part given => absurd given (ungiven part)
    belowListed := fun entry member here => absurd here (fresh entry member)
    unowned := nofun
    memory := fun _ entry member here => absurd here (fresh entry member) }
  exact sound.moves move

theorem DeviceSound.unlisted_move (sound : DeviceSound kind device) {after : Store}
    {operation : Operation} {serial : ℕ} (holds : owns (device.operation process) = some serial)
    (unlisted : Unlisted device.store serial)
    (unlinked : (serial, Part.link) ∉ device.store.given)
    (list : after.list = device.store.list)
    (next : after.nextSerial = device.store.nextSerial) (unused : after.usedAfter = false)
    (given : ∀ other part, other ≠ serial →
      ((other, part) ∈ after.given ↔ (other, part) ∈ device.store.given))
    (allocated : ∀ other address, other ≠ serial → (other, address) ∈ device.store.allocated →
      (other, address) ∈ after.allocated)
    (once : after.given.Nodup) (addresses : Distinct Prod.snd after.allocated)
    (now : owns operation = some serial ∨ owns operation = none)
    (own : OperationSound kind after operation) :
    DeviceSound kind (device.update process after operation) := by
  have below := sound.owner_below holds
  have other_entry : ∀ entry ∈ after.list, entry.serial ≠ serial := by
    rw [list]
    exact unlisted
  have move : Move kind device process after operation serial := {
    elsewhere := ⟨next.ge, fun entry _ => by rw [list], given, allocated⟩
    mine := fun other differ also => differ (sound.exclusive other process serial also holds)
    before := Or.inl holds
    now := now
    users := fun other user =>
      absurd user (unlinked_unused unlisted unlinked (sound.operations other))
    own := own
    serials := list ▸ sound.store.serials
    once := once
    unused := unused
    addresses := addresses
    belowGiven := fun _ _ => next ▸ below
    belowListed := fun entry member here => absurd here (other_entry entry member)
    unowned := fun _ entry member here => absurd here (other_entry entry member)
    memory := fun _ entry member here => absurd here (other_entry entry member) }
  exact sound.moves move

theorem DeviceSound.acquired (sound : DeviceSound kind device) {entry grown : Entry}
    {part : Part} {todo : List Part} {answer : Answer} {after : Store}
    (current : device.operation process = .creating entry (part :: todo))
    (result : acquire device.store entry part answer = some (after, grown)) :
    DeviceSound kind (device.update process after (.creating grown todo)) := by
  have own := sound.of_creating current
  have holds : owns (device.operation process) = some entry.serial := by rw [current, owns]
  -- of the store only the counter or the allocated memory grows
  have shape : after.list = device.store.list ∧ after.nextSerial = device.store.nextSerial ∧
      after.usedAfter = device.store.usedAfter ∧ after.given = device.store.given ∧
      grown.serial = entry.serial ∧
      ((part ≠ .dmaMemory ∧ after.allocated = device.store.allocated ∧
          grown.dmaHandle = entry.dmaHandle) ∨
        ∃ address, (∀ held ∈ device.store.allocated, held.2 ≠ address) ∧
          after.allocated = (entry.serial, address) :: device.store.allocated ∧
          grown.dmaHandle = address) := by
    cases answer with
    | refused => cases result
    | granted =>
        cases part <;> simp only [acquire, Option.some.injEq, Prod.mk.injEq, reduceCtorEq] at result
        all_goals
          obtain ⟨rfl, rfl⟩ := result
          exact ⟨rfl, rfl, rfl, rfl, rfl, Or.inl ⟨nofun, rfl, rfl⟩⟩
    | address dmaHandle =>
        simp only [acquire, Option.ite_none_right_eq_some, Option.some.injEq,
          Prod.mk.injEq] at result
        obtain ⟨⟨-, fresh⟩, rfl, rfl⟩ := result
        exact ⟨rfl, rfl, rfl, rfl, rfl, Or.inr ⟨dmaHandle, fresh, rfl, rfl⟩⟩
  obtain ⟨list, next, used, given, serial, allocated⟩ := shape
  apply sound.unlisted_move holds own.unlisted (own.kept _) list next
    (used.trans sound.store.unused)
  · exact fun other part _ => by rw [given]
  · intro other address _ held
    rcases allocated with ⟨-, same, -⟩ | ⟨_, -, more, -⟩
    · rwa [same]
    · rw [more]
      exact List.mem_cons_of_mem _ held
  · rw [given]
    exact sound.store.once
  · rcases allocated with ⟨-, same, -⟩ | ⟨address, fresh, more, -⟩
    · rw [same]
      exact sound.store.addresses
    · rw [more, Distinct, List.map_cons, List.nodup_cons]
      refine ⟨?_, sound.store.addresses⟩
      intro member
      obtain ⟨held, inside, same⟩ := List.mem_map.mp member
      exact fresh held inside same
  · exact Or.inl (by rw [owns, serial])
  · refine ⟨by rw [serial, next]; exact own.below, ?_, ?_, ?_⟩
    · rw [serial, Unlisted, list]
      exact own.unlisted
    · rw [serial, given]
      exact own.kept
    · intro kmem had
      rw [serial]
      rcases allocated with ⟨other, same, address⟩ | ⟨address, -, more, handle⟩
      · rw [same, address]
        exact own.memory kmem (by simp [other.symm, had])
      · rw [more, handle]
        exact List.mem_cons_self

theorem DeviceSound.refused (sound : DeviceSound kind device) {entry : Entry} {part : Part}
    {todo : List Part} (current : device.operation process = .creating entry (part :: todo)) :
    DeviceSound kind (device.update process device.store
      (settle (.givingUp entry) (kind.givesUp part))) := by
  have own := sound.of_creating current
  have holds : owns (device.operation process) = some entry.serial := by rw [current, owns]
  apply sound.unlisted_move holds own.unlisted (own.kept _) rfl rfl sound.store.unused
    (fun _ _ _ => Iff.rfl) (fun _ _ _ held => held) sound.store.once sound.store.addresses
  · cases kind.givesUp part with
    | nil => exact Or.inr rfl
    | cons first rest => exact Or.inl rfl
  · obtain ⟨once, unshared⟩ := gives_up_once kind part
    cases list : kind.givesUp part with
    | nil => trivial
    | cons first rest =>
        rw [list] at once unshared
        exact ⟨own.below, own.unlisted, once, unshared, own.kept _, fun part _ => own.kept part⟩

theorem DeviceSound.gave_up (sound : DeviceSound kind device) {entry : Entry} {part : Part}
    {todo : List Part} (current : device.operation process = .givingUp entry (part :: todo)) :
    DeviceSound kind (device.update process (device.store.giveBack entry part)
      (settle (.givingUp entry) todo)) := by
  have own := sound.of_giving_up current
  have holds : owns (device.operation process) = some entry.serial := by rw [current, owns]
  obtain ⟨differ, once⟩ := List.nodup_cons.mp own.once
  have notLink : part ≠ .link := fun same => own.unshared.1 (by simp [same])
  have notMemory : part ≠ .dmaMemory := fun same => own.unshared.2 (by simp [same])
  have list : (device.store.giveBack entry part).list = device.store.list := by
    simp [Store.giveBack, notLink]
  have allocated : (device.store.giveBack entry part).allocated = device.store.allocated := by
    simp [Store.giveBack, notMemory]
  have given : (device.store.giveBack entry part).given =
      (entry.serial, part) :: device.store.given := rfl
  apply sound.unlisted_move holds own.unlisted own.unlinked list rfl sound.store.unused
  · intro other another elsewhere
    simp [given, elsewhere]
  · intro other address _ held
    rwa [allocated]
  · rw [given, List.nodup_cons]
    exact ⟨own.kept part (by simp), sound.store.once⟩
  · rw [allocated]
    exact sound.store.addresses
  · cases todo with
    | nil => exact Or.inr rfl
    | cons first rest => exact Or.inl rfl
  · cases todo with
    | nil => trivial
    | cons first rest =>
        refine ⟨own.below, ?_, once, ⟨fun member => own.unshared.1 (by simp [member]),
          fun member => own.unshared.2 (by simp [member])⟩, ?_, ?_⟩
        · rw [Unlisted, list]
          exact own.unlisted
        · simp [given, own.unlinked, notLink.symm]
        · intro other member
          rw [given, List.mem_cons, not_or]
          refine ⟨fun same => differ ?_, own.kept other (by simp [member])⟩
          rw [Prod.mk.injEq] at same
          exact same.2 ▸ member

end Moves

end FpgaPcie.Driver.Entries
