import FpgaPcie.Lib.Ram
import FpgaPcie.Mprace.DescriptorListWG

/-!
# Filled lists in native memory

The whole of `fillDescriptorList`: the constructor links the descriptor objects to their slots,
and the loop behind it stores the words of each descriptor there. What the list is afterwards
is what the slots hold, and as no two slots share a word, this is what was stored.
-/

namespace FpgaPcie.Mprace

open FpgaPcie.Segments FpgaPcie.Ram DMADescriptorWG DMADescriptorListWG

set_option autoImplicit false

abbrev NativeMemory := U64 → Descriptor

/-- `size` of the constructor: `kernel_pieces` or `getSGcount()`. -/
def listSize (memory : Memory) : U32 :=
  match memory with
  | .kernel _ => 0
  | .kernelPieces _ pieces => pieces
  | .user entries => BitVec.ofNat 32 entries.length

/-- The stores of the loop. Each turn writes all the words of one descriptor. -/
def slotStores (slots : List Slot) (list : List DMADescriptorWG) : List (Store U64 Descriptor) :=
  List.zipWith (fun slot d => (slot.native, d.native)) slots list

/-- `DMAEngineWG::fillDescriptorList`: the slots of the list and the memory after the loop. -/
def fillNative (heap : PageAllocator) (driver : Driver.Umem.PageDriver) (memory : Memory)
    (size : U32) (native : NativeMemory) : Except ListError (List Slot × NativeMemory) :=
  match memory with
  | .kernel _ => .ok ([], native)
  | _ =>
      match construct heap driver (listSize memory) with
      | .error error => .error error
      | .ok (_, slots) => .ok (slots, contents
          (slotStores slots (fillDescriptorList memory size (slots.map Slot.pa))) native)

def readSlots (native : NativeMemory) (slots : List Slot) : List DMADescriptorWG :=
  slots.map fun slot => ⟨native slot.native, slot.pa⟩

theorem slot_stores_addresses {slots : List Slot} {list : List DMADescriptorWG}
    (paired : list.length = slots.length) :
    (slotStores slots list).map Prod.fst = slots.map Slot.native := by
  unfold slotStores
  induction slots generalizing list with
  | nil => simp
  | cons slot slots ih =>
      cases list with
      | nil => cases paired
      | cons d list => simpa using ih (by simpa using paired)

theorem read_stored {slots : List Slot} {list : List DMADescriptorWG}
    (distinct : (slots.map Slot.native).Nodup)
    (own : list.map DMADescriptorWG.pa = slots.map Slot.pa)
    (native : NativeMemory) : readSlots (contents (slotStores slots list) native) slots = list := by
  induction slots generalizing list native with
  | nil => simpa [readSlots] using own.symm
  | cons slot slots ih =>
      cases list with
      | nil => simp at own
      | cons d list =>
          simp only [List.map_cons, List.cons.injEq] at own
          simp only [List.map_cons, List.nodup_cons] at distinct
          have paired : list.length = slots.length := by
            simpa using congrArg List.length own.2
          have untouched : slot.native ∉ (slotStores slots list).map Prod.fst := by
            rw [slot_stores_addresses paired]
            exact distinct.1
          have later := ih distinct.2 own.2 (Function.update native slot.native d.native)
          have first : contents (slotStores slots list)
              (Function.update native slot.native d.native) slot.native = d.native := by
            rw [contents_elsewhere untouched, Function.update_self]
          unfold readSlots slotStores at later ⊢
          rw [List.zipWith_cons_cons, contents_cons, List.map_cons]
          unfold slotStores at first
          rw [later, first, ← own.1]

theorem attached_distinct {heap : PageAllocator} {driver : Driver.Umem.PageDriver} {n : U32}
    {list : NativeList} {slots : List Slot} (attached : Attached heap driver n list slots) :
    (slots.map Slot.native).Nodup := by
  rw [List.Nodup, List.pairwise_map]
  apply attached.apart.imp
  intro slot later apart same
  rw [same] at apart
  omega

/-- Buffers with a list: pieces of kernel memory, or entries that each have a length of 32
bits. -/
def Listed (memory : Memory) : Prop :=
  match memory with
  | .kernel _ => False
  | .kernelPieces _ pieces => 0 < pieces.toNat
  | .user entries => entries ≠ [] ∧ ∀ entry ∈ entries, entry.size.toNat < 2 ^ 32

/-- The ranges are the buffer: byte by byte for kernel memory, entry by entry for the user's. -/
def Tiles (memory : Memory) (size : U32) (list : List DMADescriptorWG) : Prop :=
  match memory with
  | .kernel _ => True
  | .kernelPieces base _ => expandAll (segments list) = expand ⟨base, size.toNat⟩
  | .user entries => segments list = entries.map fun entry => ⟨entry.addr, entry.size.toNat⟩

structure WellFormed (memory : Memory) (size : U32) (list : List DMADescriptorWG) : Prop where
  count : list.length = descriptorCount memory
  tiles : Tiles memory size list
  linked : Linked list
  cleared : ∀ d ∈ list, d.native.control = 0 ∧ d.getPeripheralAddress = 0

theorem fill_pieces_peripheral (base : U64) (size pieces step : U32) (pas : List U64)
    (i count : U32) : ∀ d ∈ fillPieces base size pieces step pas i count,
      d.getPeripheralAddress = 0 := by
  induction pas generalizing i count with
  | nil => simp [fillPieces]
  | cons pa rest ih => simpa [fillPieces] using ih (i + 1) (count + step)

theorem fill_entries_peripheral (entries : List UmemSgEntry) (pas : List U64) :
    ∀ d ∈ fillEntries entries pas, d.getPeripheralAddress = 0 := by
  induction entries generalizing pas with
  | nil => simp [fillEntries]
  | cons entry entries ih =>
      cases pas with
      | nil => simp [fillEntries]
      | cons pa rest => simpa [fillEntries] using ih rest

theorem fill_descriptor_list_well_formed {memory : Memory} {size : U32} {pas : List U64}
    (listed : Listed memory) (linked : pas.length = descriptorCount memory) :
    WellFormed memory size (fillDescriptorList memory size pas) := by
  have addresses := fill_descriptor_list_pas memory size pas linked
  have count : (fillDescriptorList memory size pas).length = descriptorCount memory := by
    rw [← linked, ← congrArg List.length addresses, List.length_map]
  cases memory with
  | kernel base => exact listed.elim
  | kernelPieces base pieces =>
      have positive : 0 < pieces.toNat := listed
      have paired : pas.length = pieces.toNat := linked
      have zero : (0 : U32).toNat = 0 := rfl
      have index : (0 : U32).toNat + pas.length = pieces.toNat := by rw [zero, paired, Nat.zero_add]
      have step : (size / pieces).toNat * pieces.toNat ≤ size.toNat := by
        rw [BitVec.toNat_udiv]
        exact Nat.div_mul_le_self _ _
      have bytes := fill_pieces_bytes base size pieces (size / pieces) pas 0 0
        (List.length_pos_iff.mp (by omega)) index (by simp) step
      constructor
      · exact count
      · simpa [Tiles, fillDescriptorList] using bytes
      · exact fill_pieces_linked _ _ _ _ _ _ _ index
      · intro d member
        exact ⟨fill_pieces_cleared _ _ _ _ _ _ _ d member,
          fill_pieces_peripheral _ _ _ _ _ _ _ d member⟩
  | user entries =>
      constructor
      · exact count
      · exact fill_entries_segments entries pas linked.symm listed.2
      · exact fill_entries_linked entries pas linked.symm
      · intro d member
        exact ⟨fill_entries_cleared entries pas d member,
          fill_entries_peripheral entries pas d member⟩

theorem link_from_length {blocks : List Block} {left index : ℕ} {count : U32} {slots : List Slot}
    (linked : linkFrom blocks left index count = some slots) : slots.length = left := by
  induction left generalizing index count slots with
  | zero =>
      cases linked
      rfl
  | succ left ih =>
      rw [linkFrom] at linked
      split at linked
      · cases linked
      · split at linked
        · split at linked
          · cases linked
          · obtain ⟨rest, later, rfl⟩ := Option.map_eq_some_iff.mp linked
            rw [List.length_cons, ih later]
        · obtain ⟨rest, later, rfl⟩ := Option.map_eq_some_iff.mp linked
          rw [List.length_cons, ih later]

section Fill

variable (heap : PageAllocator) (driver : Driver.Umem.PageDriver) {memory : Memory} {size : U32}
  (native : NativeMemory)

/-- The call comes to its end and leaves a list of the right shape. -/
def FillsWell (memory : Memory) (size : U32) : Prop :=
  ∃ slots after, fillNative heap driver memory size native = .ok (slots, after) ∧
    WellFormed memory size (readSlots after slots)

theorem construct_length {n : U32} {list : NativeList} {slots : List Slot}
    (constructed : construct heap driver n = .ok (list, slots)) : slots.length = n.toNat := by
  unfold construct at constructed
  split at constructed
  · cases constructed
  · split at constructed
    · cases constructed
    · rename_i linked
      cases constructed
      exact link_from_length linked

theorem fill_native_listed (listed : Listed memory) :
    fillNative heap driver memory size native =
      match construct heap driver (listSize memory) with
      | .error error => .error error
      | .ok (_, slots) => .ok (slots, contents
          (slotStores slots (fillDescriptorList memory size (slots.map Slot.pa))) native) := by
  cases memory with
  | kernel base => exact listed.elim
  | kernelPieces base pieces => rfl
  | user entries => rfl

theorem list_size_toNat (small : descriptorCount memory < 2 ^ 32) :
    (listSize memory).toNat = descriptorCount memory := by
  cases memory with
  | kernel base => rfl
  | kernelPieces base pieces => rfl
  | user entries => exact Nat.mod_eq_of_lt small

theorem listed_positive (listed : Listed memory) : 0 < descriptorCount memory := by
  cases memory with
  | kernel base => exact listed.elim
  | kernelPieces base pieces => exact listed
  | user entries => exact List.length_pos_iff.mpr listed.1

theorem fills_well_iff (listed : Listed memory) :
    FillsWell heap driver native memory size ↔ descriptorCount memory ≤ maxDescriptors := by
  unfold FillsWell
  rw [fill_native_listed heap driver native listed]
  constructor
  · intro fills
    rcases fills with ⟨slots, after, filled, wellFormed⟩
    split at filled
    · cases filled
    · rename_i list linked constructed
      cases filled
      have length := construct_length heap driver constructed
      have count := wellFormed.count
      rw [readSlots, List.length_map, length] at count
      rw [← count]
      by_contra large
      exact construct_large heap driver (Nat.lt_of_not_le large) _ constructed
  · intro small
    have bound : maxDescriptors < 2 ^ 32 := by decide
    have same : (listSize memory).toNat = descriptorCount memory := list_size_toNat (by omega)
    have positive := listed_positive listed
    obtain ⟨list, constructed, attached⟩ := construct_small heap driver
      (by rw [same]; exact positive) (by rw [same]; exact small)
    have paired : ((slots heap driver (listSize memory)).map Slot.pa).length =
        descriptorCount memory := by
      rw [List.length_map, attached.count, same]
    have own := fill_descriptor_list_pas memory size _ paired
    rw [constructed]
    refine ⟨_, _, rfl, ?_⟩
    rw [read_stored (attached_distinct attached) own]
    exact fill_descriptor_list_well_formed listed paired

end Fill

theorem fills_well_iff_three_pieces :
    FillsWell secondPage Driver.Umem.plainDriver (fun _ => unset.native)
        (.kernelPieces 0x10000#64 3) 10 ↔
      descriptorCount (.kernelPieces 0x10000#64 3) ≤ maxDescriptors :=
  fills_well_iff secondPage Driver.Umem.plainDriver (fun _ => unset.native)
    (show 0 < (3 : U32).toNat by decide)

theorem largest_pieces_fail :
    ¬FillsWell secondPage Driver.Umem.plainDriver (fun _ => unset.native)
      (.kernelPieces 0x10000#64 67108801) 4096 := by
  intro fills
  rcases fills with ⟨slots, after, filled, -⟩
  rw [fill_native_listed] at filled
  · split at filled
    · cases filled
    · rename_i constructed
      exact construct_large secondPage Driver.Umem.plainDriver (by decide) _ constructed
  · exact show 0 < (67108801 : U32).toNat by decide

end FpgaPcie.Mprace
