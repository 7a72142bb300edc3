import FpgaPcie.Driver.Interface
import FpgaPcie.Lib.Keyed
import FpgaPcie.Lib.Transition
import Mathlib.Logic.Function.Basic

/-!
# Entries of the driver's lists, acquired and given back step by step

`kmem_list` and `umem_list` live alike: an operation acquires the parts of an entry
one by one and links it, a lookup under the list lock hands the entry to an
operation, and a free gives the parts back one by one. Every kernel call and every
section under the lock is one step. The two lists differ in the parts, their order
and the ways to look an entry up.

What was handed out and given back is kept on record: `given` and `allocated` are
not data of the driver.
-/

namespace FpgaPcie.Driver.Entries

open FpgaPcie.Transition

set_option autoImplicit false

inductive EntryKind where
  | kmem
  | umem
  deriving DecidableEq, Repr

/-- `mapping` is the scatter/gather mapping, `pages` the references to the user's
pages, `pageArray` and `sgTable` the two tables in `vmalloc` memory. -/
inductive Part where
  | link
  | sysfsFile
  | dmaMemory
  | mapping
  | pages
  | pageArray
  | sgTable
  | entryStruct
  deriving DecidableEq, Repr

namespace EntryKind

/-- The order in which `pcidriver_kmem_alloc` and `pcidriver_umem_sgmap` acquire. -/
def acquires : EntryKind → List Part
  | .kmem => [.entryStruct, .sysfsFile, .dmaMemory]
  | .umem => [.pageArray, .sgTable, .pages, .mapping, .entryStruct, .sysfsFile]

/-- What the error path gives back when a part cannot be had. The file of a `kmem`
entry stays behind when the DMA memory fails; of the pages, those that were had are
released. -/
def givesUp : EntryKind → Part → List Part
  | .kmem, .sysfsFile | .kmem, .dmaMemory => [.entryStruct]
  | .kmem, _ => []
  | .umem, .pageArray => []
  | .umem, .sgTable => [.pageArray]
  | .umem, .pages | .umem, .mapping => [.pages, .sgTable, .pageArray]
  | .umem, .entryStruct => [.mapping, .pages, .sgTable, .pageArray]
  | .umem, .sysfsFile => [.entryStruct, .mapping, .pages, .sgTable, .pageArray]
  | .umem, _ => []

/-- The order of `pcidriver_kmem_free_entry` and `pcidriver_umem_sgunmap`. -/
def releases : EntryKind → List Part
  | .kmem => [.sysfsFile, .dmaMemory, .link, .entryStruct]
  | .umem => [.sysfsFile, .mapping, .pages, .link, .pageArray, .sgTable, .entryStruct]

def memory : EntryKind → Part
  | .kmem => .dmaMemory
  | .umem => .mapping

end EntryKind

/-- `serial` tells allocations apart, also when memory is used again. -/
structure Entry where
  serial : ℕ
  id : U32
  dmaHandle : U64
  deriving DecidableEq, Repr

/-- The lookups: `find_entry` of `kmem` by bus address, `find_entry_id` of `umem`, and
the one behind a sysfs write, which compares with the counter first. -/
inductive Lookup where
  | handle (pa : U64)
  | handleId (id : U32)
  | sysfs (id : U32)
  deriving DecidableEq, Repr

inductive Direction where
  | toDevice
  | fromDevice
  | bidirectional
  | invalid
  deriving DecidableEq, Repr

/-- How many kernel calls a synchronisation makes on the entry. -/
def Direction.calls : Direction → ℕ
  | .toDevice | .fromDevice => 1
  | .bidirectional => 2
  | .invalid => 0

abbrev ProcessId := ℕ

inductive Operation where
  | idle
  | creating (entry : Entry) (todo : List Part)
  | givingUp (entry : Entry) (todo : List Part)
  | freeing (entry : Entry) (todo : List Part)
  | syncing (entry : Entry) (calls : ℕ)
  /-- the id of the linked entry is still to be read into the user's handle -/
  | reporting (entry : Entry)
  deriving DecidableEq, Repr

/-- The list with its counter, and the record of what is handed out and given back. -/
structure Store where
  list : List Entry
  count : U32
  nextSerial : ℕ
  /-- DMA memory in use: for which entry, at which bus address -/
  allocated : List (ℕ × U64)
  given : List (ℕ × Part)
  /-- whether an entry was used after it, or the memory needed, was given back -/
  usedAfter : Bool
  deriving Repr

structure Device where
  store : Store
  operation : ProcessId → Operation

inductive Answer where
  | granted
  | address (dmaHandle : U64)
  | refused
  deriving DecidableEq, Repr

inductive Action where
  | create
  | free (lookup : Lookup)
  | sync (lookup : Lookup) (direction : Direction)
  | proceed (answer : Answer)
  deriving DecidableEq, Repr

namespace Store

def find (kind : EntryKind) (store : Store) : Lookup → Option Entry
  | .handle pa =>
      if kind = .kmem then store.list.find? fun entry => entry.dmaHandle = pa else none
  | .handleId id => if kind = .umem then store.list.find? fun entry => entry.id = id else none
  | .sysfs id =>
      if store.count ≤ id then none else store.list.find? fun entry => entry.id = id

/-- An operation follows its pointer to the entry and to what it needs of it. -/
def touch (store : Store) (entry : Entry) (needs : List Part) : Store :=
  { store with
    usedAfter := store.usedAfter || needs.any fun part => (entry.serial, part) ∈ store.given }

/-- Returned memory leaves `allocated`, an unlinked entry leaves the list. -/
def giveBack (store : Store) (entry : Entry) (part : Part) : Store :=
  { store with
    given := (entry.serial, part) :: store.given
    allocated := if part = .dmaMemory then
        store.allocated.eraseP fun held => held.2 = entry.dmaHandle
      else store.allocated
    list := if part = .link then store.list.eraseP fun other => other.serial = entry.serial
      else store.list }

end Store

/-- The part `part` of a new entry. The id comes with the structure, the bus address
with the DMA memory, which is disjoint from all that is allocated. -/
def acquire (store : Store) (entry : Entry) (part : Part) : Answer → Option (Store × Entry)
  | .address dmaHandle =>
      if part = .dmaMemory ∧ ∀ held ∈ store.allocated, held.2 ≠ dmaHandle then
        some ({ store with allocated := (entry.serial, dmaHandle) :: store.allocated },
          { entry with dmaHandle := dmaHandle })
      else none
  | .granted =>
      match part with
      | .dmaMemory => none
      | .entryStruct =>
          some ({ store with count := store.count + 1 }, { entry with id := store.count })
      | _ => some (store, entry)
  | .refused => none

def settle (operation : List Part → Operation) : List Part → Operation
  | [] => .idle
  | todo => operation todo

namespace Device

def update (device : Device) (process : ProcessId) (store : Store) (operation : Operation) :
    Device :=
  { store := store, operation := Function.update device.operation process operation }

def begin (kind : EntryKind) (device : Device) (process : ProcessId) : Action → Option Device
  | .create =>
      some (device.update process { device.store with nextSerial := device.store.nextSerial + 1 }
        (.creating ⟨device.store.nextSerial, 0, 0⟩ kind.acquires))
  | .free lookup =>
      match device.store.find kind lookup with
      | none => some device
      | some entry => some (device.update process device.store (.freeing entry kind.releases))
  | .sync lookup direction =>
      match device.store.find kind lookup with
      | none => some device
      | some entry =>
          if direction.calls = 0 then some device
          else some (device.update process device.store (.syncing entry direction.calls))
  | .proceed _ => none

/-- The next step of an operation. `pcidriver_kmem_alloc` copies the id before it links
the entry, `pcidriver_umem_sgmap` afterwards. Giving up touches no entry: `sgmap` works
on its local variables. -/
def proceed (kind : EntryKind) (device : Device) (process : ProcessId) (answer : Answer) :
    Operation → Option Device
  | .idle => none
  | .creating entry [] =>
      some (device.update process { device.store with list := device.store.list ++ [entry] }
        (if kind = .kmem then .idle else .reporting entry))
  | .creating entry (part :: todo) =>
      if answer = .refused then
        some (device.update process device.store (settle (.givingUp entry) (kind.givesUp part)))
      else (acquire device.store entry part answer).map fun (store, entry) =>
        device.update process store (.creating entry todo)
  | .givingUp entry todo =>
      match todo with
      | [] => none
      | part :: todo =>
          some (device.update process (device.store.giveBack entry part)
            (settle (.givingUp entry) todo))
  | .freeing entry todo =>
      match todo with
      | [] => none
      | part :: todo =>
          some (device.update process
            ((device.store.touch entry [.entryStruct]).giveBack entry part)
            (settle (.freeing entry) todo))
  | .syncing entry calls =>
      some (device.update process (device.store.touch entry [.entryStruct, kind.memory])
        (if calls ≤ 1 then .idle else .syncing entry (calls - 1)))
  | .reporting entry => some (device.update process (device.store.touch entry [.entryStruct]) .idle)

def step (kind : EntryKind) (device : Device) (label : ProcessId × Action) : Option Device :=
  match label.2 with
  | .proceed answer => device.proceed kind label.1 answer (device.operation label.1)
  | action =>
      match device.operation label.1 with
      | .idle => device.begin kind label.1 action
      | _ => none

end Device

def emptyStore : Store := ⟨[], 0, 0, [], [], false⟩

def entrySystem (kind : EntryKind) : System Device (ProcessId × Action) where
  initial device := device.store = emptyStore ∧ ∀ process, device.operation process = .idle
  step := Device.step kind

/-- Every part given back once, nothing used afterwards, and the listed entries of
kernel memory with memory of their own. -/
structure ReleasedWell (kind : EntryKind) (store : Store) : Prop where
  once : store.given.Nodup
  unused : store.usedAfter = false
  owned : kind = .kmem → ∀ entry ∈ store.list,
    (entry.serial, Part.dmaMemory) ∉ store.given ∧
      (entry.serial, entry.dmaHandle) ∈ store.allocated
  distinct : kind = .kmem → (store.list.map Entry.dmaHandle).Nodup

/-- A free of kernel memory stands between `pci_free_consistent` and `list_del`. -/
def InGap (kind : EntryKind) (device : Device) : Prop :=
  kind = .kmem ∧ ∃ process entry todo, device.operation process = .freeing entry todo ∧
    Part.link ∈ todo ∧ Part.dmaMemory ∉ todo

/-- No operation gets or keeps hold of an entry across another one's release: a free is
handed an entry that no free holds, a synchronisation one whose memory is still there,
memory is given back while no synchronisation is at work on it, and the structure when
the operation that made the entry has read its id. -/
def Guarded (kind : EntryKind) (device : Device) (label : ProcessId × Action) : Prop :=
  match label.2 with
  | .create => True
  | .free lookup => ∀ entry, device.store.find kind lookup = some entry →
      ∀ other held todo, device.operation other = .freeing held todo → held.serial ≠ entry.serial
  | .sync lookup direction => ∀ entry, device.store.find kind lookup = some entry →
      direction.calls ≠ 0 → (entry.serial, kind.memory) ∉ device.store.given
  | .proceed _ => ∀ entry part todo, device.operation label.1 = .freeing entry (part :: todo) →
      ∀ other held, held.serial = entry.serial →
        (part = kind.memory → ∀ calls, device.operation other ≠ .syncing held calls) ∧
          (part = .entryStruct → device.operation other ≠ .reporting held)

end FpgaPcie.Driver.Entries
