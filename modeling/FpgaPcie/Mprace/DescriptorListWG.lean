import FpgaPcie.Driver.PageEntries
import FpgaPcie.Mprace.FillDescriptorList

/-!
# Native descriptors in pages

`DMADescriptorListWG` with memory of the user: the native descriptors fill the pages of one
buffer, 64 to a page, and each descriptor object is linked to its slot and to the bus address
of the slot. The length of the buffer has 32 bits.
-/

namespace FpgaPcie.Mprace

open FpgaPcie.Driver.Umem FpgaPcie.Paging

set_option autoImplicit false

/-- `posix_memalign` with the alignment of a page, where it succeeds. -/
structure PageAllocator where
  memalign : U32 → U64
  aligned : ∀ size, (memalign size).toNat % pageSize = 0
  fits : ∀ size, (memalign size).toNat + size.toNat ≤ 2 ^ 64

structure Block where
  size : U32
  ptr : U64
  pa : U64
  deriving DecidableEq, Repr

/-- What a descriptor object is linked to: the address of its native descriptor, and the same
on the bus. -/
structure Slot where
  native : U64
  pa : U64
  deriving DecidableEq, Repr

inductive ListError where
  | userMmapFailed
  /-- an array is read behind its end -/
  | pastEnd
  deriving DecidableEq, Repr

namespace DMADescriptorListWG

structure NativeList where
  nrBlocks : U32
  byteSize : U32
  nativePtr : U64
  blocks : List Block
  deriving DecidableEq, Repr

/-- `4096 / sizeof(DMADescriptorWG::descriptor)`. -/
def descPerPage : U32 := 64

def blockSize (nrDescriptors nrBlocks i : U32) : U32 :=
  if i = nrBlocks - 1 ∧ nrDescriptors % descPerPage ≠ 0 then nrDescriptors % descPerPage
  else descPerPage

/-- The block list from block `i` on; the product `i*page_size` is of 32 bits. -/
def makeBlocks (uBuf : UserMemory) (buf : U64) (nrDescriptors nrBlocks : U32) :
    ℕ → U32 → Option (List Block)
  | 0, _ => some []
  | left + 1, i =>
      match uBuf.getSGentryAddress i with
      | none => none
      | some pa => (makeBlocks uBuf buf nrDescriptors nrBlocks left (i + 1)).map fun rest =>
          ⟨blockSize nrDescriptors nrBlocks i, buf + (i * BitVec.ofNat 32 pageSize).setWidth 64,
            pa⟩ :: rest

def nrBlocks (nrDescriptors : U32) : U32 :=
  let nrPages := nrDescriptors / descPerPage
  if nrDescriptors % descPerPage = 0 then nrPages else nrPages + 1

def init (heap : PageAllocator) (driver : PageDriver) (nrDescriptors : U32) :
    Except ListError NativeList :=
  let nrBlocks := nrBlocks nrDescriptors
  let byteSize := nrBlocks * BitVec.ofNat 32 pageSize
  let buf := heap.memalign byteSize
  match driver.mapUserMemory buf byteSize with
  | .error _ => .error .userMmapFailed
  | .ok uBuf =>
      match makeBlocks uBuf buf nrDescriptors nrBlocks nrBlocks.toNat 0 with
      | none => .error .pastEnd
      | some blocks => .ok ⟨nrBlocks, byteSize, buf, blocks⟩

def slotAt (block : Block) (count : U32) : Slot :=
  ⟨block.ptr + count.setWidth 64 * 64, block.pa + count.setWidth 64 * 64⟩

/-- The loop of `link` with `cur_block_index` and `cur_block_count`. -/
def linkFrom (blocks : List Block) : ℕ → ℕ → U32 → Option (List Slot)
  | 0, _, _ => some []
  | left + 1, index, count =>
      match blocks[index]? with
      | none => none
      | some block =>
          if block.size ≤ count then
            match blocks[index + 1]? with
            | none => none
            | some next => (linkFrom blocks left (index + 1) 1).map fun rest =>
                slotAt next 0 :: rest
          else (linkFrom blocks left index (count + 1)).map fun rest => slotAt block count :: rest

def link (list : NativeList) (size : U32) : Option (List Slot) :=
  linkFrom list.blocks size.toNat 0 0

def construct (heap : PageAllocator) (driver : PageDriver) (size : U32) :
    Except ListError (NativeList × List Slot) :=
  match init heap driver size with
  | .error error => .error error
  | .ok list =>
      match link list size with
      | none => .error .pastEnd
      | some slots => .ok (list, slots)

theorem next_toNat {i : U32} (bound : i.toNat + 1 < 2 ^ 32) : (i + 1).toNat = i.toNat + 1 := by
  have one : (1 : U32).toNat = 1 := rfl
  rw [BitVec.toNat_add, one, Nat.mod_eq_of_lt bound]

section Blocks

variable {uBuf : UserMemory} {buf : U64} {nrDescriptors nrBlocks : U32}

/-- Block `i` for entries known by their index. -/
def blockOf (buf : U64) (bus : ℕ → U64) (nrDescriptors nrBlocks : U32) (i : ℕ) : Block :=
  ⟨blockSize nrDescriptors nrBlocks (BitVec.ofNat 32 i),
    buf + (BitVec.ofNat 32 i * BitVec.ofNat 32 pageSize).setWidth 64, bus i⟩

theorem make_blocks_some {bus : ℕ → U64} (left : ℕ) (first : U32)
    (bound : first.toNat + left < 2 ^ 32)
    (present : ∀ index : U32, first.toNat ≤ index.toNat → index.toNat < first.toNat + left →
      uBuf.getSGentryAddress index = some (bus index.toNat)) :
    makeBlocks uBuf buf nrDescriptors nrBlocks left first =
      some ((List.range' first.toNat left).map (blockOf buf bus nrDescriptors nrBlocks)) := by
  induction left generalizing first with
  | zero => rfl
  | succ left ih =>
      have next : (first + 1).toNat = first.toNat + 1 := next_toNat (by omega)
      have later := ih (first + 1) (by omega) fun index from_ below =>
        present index (by omega) (by omega)
      have same : BitVec.ofNat 32 first.toNat = first := BitVec.ofNat_toNat 32 first
      rw [makeBlocks, present first (Nat.le_refl _) (by omega), later, next, List.range'_succ]
      simp [blockOf, same]

theorem make_blocks_none (left : ℕ) (first : U32) (bound : first.toNat + left < 2 ^ 32)
    {missing : U32} (from_ : first.toNat ≤ missing.toNat)
    (below : missing.toNat < first.toNat + left)
    (absent : uBuf.getSGentryAddress missing = none) :
    makeBlocks uBuf buf nrDescriptors nrBlocks left first = none := by
  induction left generalizing first with
  | zero => omega
  | succ left ih =>
      have next : (first + 1).toNat = first.toNat + 1 := next_toNat (by omega)
      rw [makeBlocks]
      by_cases here : missing = first
      · rw [← here, absent]
      · have apart : missing.toNat ≠ first.toNat := fun same => here (BitVec.eq_of_toNat_eq same)
        cases uBuf.getSGentryAddress first with
        | none => rfl
        | some pa =>
            simp only [ih (first + 1) (by omega) (by omega) (by omega)]
            rfl

end Blocks

section Counts

variable (n : U32)

theorem desc_mod : (n % descPerPage).toNat = n.toNat % 64 := BitVec.toNat_umod

theorem desc_div : (n / descPerPage).toNat = n.toNat / 64 := BitVec.toNat_udiv

theorem full_pages_iff : n % descPerPage = 0 ↔ n.toNat % 64 = 0 := by
  rw [← BitVec.toNat_inj, desc_mod]
  rfl

theorem nr_blocks_toNat : (nrBlocks n).toNat = (n.toNat + 63) / 64 := by
  have bound := n.isLt
  have div := desc_div n
  simp only [nrBlocks]
  split
  · rename_i full
    rw [full_pages_iff] at full
    omega
  · rename_i partial_
    rw [full_pages_iff] at partial_
    rw [next_toNat (by omega)]
    omega

theorem block_size_toNat {i : ℕ} (below : i < (nrBlocks n).toNat) :
    (blockSize n (nrBlocks n) (BitVec.ofNat 32 i)).toNat = min 64 (n.toNat - 64 * i) := by
  have bound := n.isLt
  have blocks := nr_blocks_toNat n
  have mod := desc_mod n
  have own : (BitVec.ofNat 32 i).toNat = i := by
    rw [BitVec.toNat_ofNat]
    omega
  have one : (1 : U32).toNat = 1 := rfl
  have last : BitVec.ofNat 32 i = nrBlocks n - 1 ↔ i + 1 = (nrBlocks n).toNat := by
    rw [← BitVec.toNat_inj, own, BitVec.toNat_sub_of_le (by rw [BitVec.le_def, one]; omega), one]
    omega
  have whole : descPerPage.toNat = 64 := rfl
  have full := full_pages_iff n
  unfold blockSize
  split
  · rename_i both
    rw [last, ne_eq, full] at both
    omega
  · rename_i other
    rw [last, ne_eq, full] at other
    omega

theorem block_sizes_sum (blocks total : ℕ) :
    ((List.range blocks).map fun i => min 64 (total - 64 * i)).sum = min (64 * blocks) total := by
  induction blocks with
  | zero => simp
  | succ blocks ih =>
      rw [List.range_succ, List.map_append, List.sum_append, ih, List.map_singleton,
        List.sum_singleton]
      omega

end Counts

/-- Slot `i` of a list, by page and position in the page. -/
def slotOf (blocks : ℕ → Block) (i : ℕ) : Slot :=
  slotAt (blocks (i / 64)) (BitVec.ofNat 32 (i % 64))

/-- The loop moves on to the next block exactly when the descriptors before it fill the block:
`cur_block_count` is then 64, and it is at most 64 always. -/
theorem link_from_slots {blocks : List Block} {block : ℕ → Block} {total : ℕ}
    (present : ∀ i, 64 * i < total → blocks[i]? = some (block i))
    (sizes : ∀ i, 64 * i < total → (block i).size.toNat = min 64 (total - 64 * i))
    (left index : ℕ) (count : U32) (filling : count.toNat ≤ 64)
    (position : 64 * index + count.toNat + left = total) :
    linkFrom blocks left index count =
      some ((List.range' (64 * index + count.toNat) left).map (slotOf block)) := by
  induction left generalizing index count with
  | zero => rfl
  | succ left ih =>
      have one : (1 : U32).toNat = 1 := rfl
      have zero : (0 : U32).toNat = 0 := rfl
      have size := sizes index (by omega)
      rw [linkFrom, present index (by omega), List.range'_succ, List.map_cons]
      by_cases full : count.toNat = 64
      · have full : (block index).size ≤ count := by
          rw [BitVec.le_def]
          omega
        have later := ih (index + 1) 1 (by omega) (by omega)
        have start : 64 * index + count.toNat = 64 * (index + 1) := by omega
        have own : slotOf block (64 * (index + 1)) = slotAt (block (index + 1)) 0 := by
          have page : 64 * (index + 1) / 64 = index + 1 := by omega
          have inPage : 64 * (index + 1) % 64 = 0 := by omega
          rw [slotOf, page, inPage]
          rfl
        simp only [if_pos full, present (index + 1) (by omega), later, one, start, own,
          Option.map_some]
      · have room : ¬(block index).size ≤ count := by
          rw [BitVec.le_def]
          omega
        have next : (count + 1).toNat = count.toNat + 1 := next_toNat (by omega)
        have later := ih index (count + 1) (by omega) (by omega)
        have own : slotOf block (64 * index + count.toNat) = slotAt (block index) count := by
          have page : (64 * index + count.toNat) / 64 = index := by omega
          have inPage : (64 * index + count.toNat) % 64 = count.toNat := by omega
          rw [slotOf, page, inPage, BitVec.ofNat_toNat]
          rfl
        simp only [if_neg room, later, next, own, Option.map_some, Nat.add_assoc]

def bufferOf (heap : PageAllocator) (n : U32) : U64 :=
  heap.memalign (nrBlocks n * BitVec.ofNat 32 pageSize)

def bufferSize (n : U32) : U32 := nrBlocks n * BitVec.ofNat 32 pageSize

/-- Each descriptor has a slot of its own in the buffer, in order and 64 to a page, and knows
the bus address of its slot. -/
structure Attached (heap : PageAllocator) (driver : PageDriver) (n : U32) (list : NativeList)
    (slots : List Slot) : Prop where
  blocks : list.blocks.length = list.nrBlocks.toNat
  sizes : (list.blocks.map fun block => block.size.toNat).sum = n.toNat
  buffer : list.nativePtr = heap.memalign list.byteSize
  count : slots.length = n.toNat
  native : ∀ i slot, slots[i]? = some slot →
    slot.native.toNat = list.nativePtr.toNat + (pageSize * (i / 64) + 64 * (i % 64))
  apart : slots.Pairwise fun slot later => slot.native.toNat + 64 ≤ later.native.toNat
  inside : ∀ slot ∈ slots, list.nativePtr.toNat ≤ slot.native.toNat ∧
    slot.native.toNat + 64 ≤ list.nativePtr.toNat + list.byteSize.toNat
  onePage : ∀ slot ∈ slots, slot.native.toNat % pageSize + 64 ≤ pageSize
  bus : ∀ slot ∈ slots, slot.pa = translateAt pageSize (driver.bus list.nativePtr list.byteSize)
    (slot.native.toNat - list.nativePtr.toNat)

section Construction

variable (heap : PageAllocator) (driver : PageDriver) {n : U32}

/-- How many descriptors fit into a buffer whose length has 32 bits. -/
def maxDescriptors : ℕ := (2 ^ 20 - 1) * 64

theorem buffer_size_toNat (n : U32) :
    (bufferSize n).toNat = (n.toNat + 63) / 64 * pageSize % 2 ^ 32 := by
  rw [bufferSize, BitVec.toNat_mul, nr_blocks_toNat]
  rfl

theorem init_mapped {uBuf : UserMemory}
    (mapped : driver.mapUserMemory (bufferOf heap n) (bufferSize n) = .ok uBuf) :
    init heap driver n =
      match makeBlocks uBuf (bufferOf heap n) n (nrBlocks n) (nrBlocks n).toNat 0 with
      | none => .error .pastEnd
      | some blocks => .ok ⟨nrBlocks n, bufferSize n, bufferOf heap n, blocks⟩ := by
  unfold bufferOf bufferSize at mapped ⊢
  simp only [init, mapped]

theorem init_small (some_ : 0 < n.toNat) (small : n.toNat ≤ maxDescriptors) :
    init heap driver n = .ok ⟨nrBlocks n, bufferSize n, bufferOf heap n,
      (List.range (nrBlocks n).toNat).map (blockOf (bufferOf heap n)
        (driver.bus (bufferOf heap n) (bufferSize n)) n (nrBlocks n))⟩ := by
  have bound := n.isLt
  have blocks := nr_blocks_toNat n
  have size := buffer_size_toNat n
  have aligned : (bufferOf heap n).toNat % pageSize = 0 := heap.aligned _
  simp only [maxDescriptors, pageSize] at small size aligned
  have nonzero : bufferSize n ≠ 0#32 := by
    intro zero
    rw [zero, BitVec.toNat_ofNat] at size
    omega
  have zero : (0 : U32).toNat = 0 := rfl
  have pages : ∀ index : U32, (0 : U32).toNat ≤ index.toNat →
      index.toNat < (0 : U32).toNat + (nrBlocks n).toNat →
      (driver.object (bufferOf heap n) (bufferSize n)).getSGentryAddress index =
        some (driver.bus (bufferOf heap n) (bufferSize n) index.toNat) := by
    intro index _ below
    have page := driver.object_page (bufferOf heap n) nonzero (show index.toNat < _ by
      simp only [pageSize]
      omega)
    simpa [pageSize, aligned] using page
  rw [init_mapped heap driver (driver.map_user_memory_pages nonzero),
    make_blocks_some (nrBlocks n).toNat 0 (by omega) pages, List.range_eq_range']
  rfl

theorem init_large (large : maxDescriptors < n.toNat) :
    ∀ list, init heap driver n ≠ .ok list := by
  have bound := n.isLt
  have blocks := nr_blocks_toNat n
  have size := buffer_size_toNat n
  have aligned : (bufferOf heap n).toNat % pageSize = 0 := heap.aligned _
  have zero : (0 : U32).toNat = 0 := rfl
  simp only [maxDescriptors, pageSize] at large size aligned
  intro list
  by_cases empty : bufferSize n = 0#32
  · have refused : driver.mapUserMemory (bufferOf heap n) (bufferSize n) =
        .error .sgmapFailed := by
      rw [empty]
      exact driver.map_user_memory_empty
    unfold bufferOf bufferSize at refused
    simp only [init, refused]
    intro same
    cases same
  · have index : (bufferSize n / 4096).toNat = (bufferSize n).toNat / 4096 := BitVec.toNat_udiv
    have missing := driver.object_past (bufferOf heap n) empty
      (show _ ≤ (bufferSize n / 4096).toNat by
        simp only [pageSize]
        omega)
    rw [init_mapped heap driver (driver.map_user_memory_pages empty), make_blocks_none
      (nrBlocks n).toNat 0 (by omega) (Nat.zero_le _) (by omega) missing]
    intro same
    cases same

section Slots

variable {bus : ℕ → U64} {buf : U64} {nb : U32} {i : ℕ}

theorem slot_native (fits : buf.toNat + pageSize * (i / 64) + 64 * (i % 64) < 2 ^ 64)
    (page : pageSize * (i / 64) < 2 ^ 32) : (slotOf (blockOf buf bus n nb) i).native.toNat =
      buf.toNat + (pageSize * (i / 64) + 64 * (i % 64)) := by
  have size : (BitVec.ofNat 32 pageSize).toNat = 4096 := by decide
  have slot : (64 : U64).toNat = 64 := rfl
  simp only [pageSize] at fits page ⊢
  have index : (BitVec.ofNat 32 (i / 64)).toNat = i / 64 := by
    rw [BitVec.toNat_ofNat]
    omega
  have inPage : (BitVec.ofNat 32 (i % 64)).toNat = i % 64 := by
    rw [BitVec.toNat_ofNat]
    omega
  simp only [slotOf, slotAt, blockOf, BitVec.toNat_add, BitVec.toNat_mul, BitVec.toNat_setWidth,
    index, inPage, slot, size]
  omega

theorem slot_pa : (slotOf (blockOf buf bus n nb) i).pa =
    bus (i / 64) + ((64 * (i % 64) : ℕ) : U64) := by
  simp only [slotOf, slotAt, blockOf]
  congr 1
  apply BitVec.eq_of_toNat_eq
  have slot : (64 : U64).toNat = 64 := rfl
  have cast : (((64 * (i % 64) : ℕ) : U64)).toNat = 64 * (i % 64) := by
    rw [BitVec.natCast_eq_ofNat, BitVec.toNat_ofNat]
    omega
  have inPage : (BitVec.ofNat 32 (i % 64)).toNat = i % 64 := by
    rw [BitVec.toNat_ofNat]
    omega
  rw [cast, BitVec.toNat_mul, BitVec.toNat_setWidth, inPage, slot]
  omega

end Slots

def slots (heap : PageAllocator) (driver : PageDriver) (n : U32) : List Slot :=
  (List.range n.toNat).map
    (slotOf (blockOf (bufferOf heap n) (driver.bus (bufferOf heap n) (bufferSize n)) n
      (nrBlocks n)))

theorem blocks_sizes (blocks : ℕ → Block)
    (sizes : ∀ i < (nrBlocks n).toNat, (blocks i).size.toNat = min 64 (n.toNat - 64 * i)) :
    (((List.range (nrBlocks n).toNat).map blocks).map fun block => block.size.toNat).sum =
      n.toNat := by
  have count := nr_blocks_toNat n
  have same : ((List.range (nrBlocks n).toNat).map blocks).map (fun block => block.size.toNat) =
      (List.range (nrBlocks n).toNat).map fun i => min 64 (n.toNat - 64 * i) := by
    rw [List.map_map]
    apply List.map_congr_left
    intro i member
    exact sizes i (List.mem_range.mp member)
  rw [same, block_sizes_sum]
  omega

theorem link_small (list : NativeList) (blocks : ℕ → Block)
    (made : list.blocks = (List.range (nrBlocks n).toNat).map blocks)
    (sizes : ∀ i < (nrBlocks n).toNat, (blocks i).size.toNat = min 64 (n.toNat - 64 * i)) :
    link list n = some ((List.range n.toNat).map (slotOf blocks)) := by
  have count := nr_blocks_toNat n
  have zero : (0 : U32).toNat = 0 := rfl
  have present : ∀ i, 64 * i < n.toNat → list.blocks[i]? = some (blocks i) := by
    intro i below
    have inside : i < (nrBlocks n).toNat := by omega
    rw [made, List.getElem?_map, List.getElem?_range inside]
    rfl
  have linked := link_from_slots present (fun i below => sizes i (by omega)) n.toNat 0 0 (by omega)
    (by omega)
  rw [link, linked, List.range_eq_range']
  rfl

theorem slots_at {i : ℕ} {slot : Slot} (found : (slots heap driver n)[i]? = some slot) :
    i < n.toNat ∧ slot = slotOf (blockOf (bufferOf heap n)
      (driver.bus (bufferOf heap n) (bufferSize n)) n (nrBlocks n)) i := by
  unfold slots at found
  rw [List.getElem?_map, Option.map_eq_some_iff] at found
  rcases found with ⟨index, own, rfl⟩
  have inside := (List.getElem?_eq_some_iff.mp own).1
  rw [List.length_range] at inside
  rw [List.getElem?_range inside] at own
  cases own
  exact ⟨inside, rfl⟩

/-- The position in the buffer is 64 times the index, cut into page and rest. -/
theorem slots_native (small : n.toNat ≤ maxDescriptors) {i : ℕ} {slot : Slot}
    (found : (slots heap driver n)[i]? = some slot) :
    slot.native.toNat = (bufferOf heap n).toNat + (pageSize * (i / 64) + 64 * (i % 64)) ∧
      pageSize * (i / 64) + 64 * (i % 64) + 64 ≤ (bufferSize n).toNat := by
  obtain ⟨inside, rfl⟩ := slots_at heap driver found
  have size := buffer_size_toNat n
  have fits : (bufferOf heap n).toNat + (bufferSize n).toNat ≤ 2 ^ 64 := heap.fits _
  have bound := (bufferSize n).isLt
  have room : pageSize * (i / 64) + 64 * (i % 64) + 64 ≤ (bufferSize n).toNat := by
    simp only [maxDescriptors, pageSize] at small size ⊢
    omega
  exact ⟨slot_native (by omega) (by omega), room⟩

/-- The bus address recorded for a slot is that of its place in the buffer. -/
theorem slots_pa (small : n.toNat ≤ maxDescriptors) {i : ℕ} {slot : Slot}
    (found : (slots heap driver n)[i]? = some slot) :
    slot.pa = translateAt pageSize (driver.bus (bufferOf heap n) (bufferSize n))
      (slot.native.toNat - (bufferOf heap n).toNat) := by
  obtain ⟨native, -⟩ := slots_native heap driver small found
  obtain ⟨-, same⟩ := slots_at heap driver found
  have position : slot.native.toNat - (bufferOf heap n).toNat = 64 * i := by
    simp only [pageSize] at native
    omega
  have page : 64 * i / pageSize = i / 64 := by
    simp only [pageSize]
    omega
  have inPage : 64 * i % pageSize = 64 * (i % 64) := by
    simp only [pageSize]
    omega
  rw [position, translateAt, page, inPage, same, slot_pa]

theorem construct_small (some_ : 0 < n.toNat) (small : n.toNat ≤ maxDescriptors) :
    ∃ list, construct heap driver n = .ok (list, slots heap driver n) ∧
      Attached heap driver n list (slots heap driver n) := by
  have aligned : (bufferOf heap n).toNat % pageSize = 0 := heap.aligned _
  have sizes : ∀ i < (nrBlocks n).toNat, (blockOf (bufferOf heap n)
      (driver.bus (bufferOf heap n) (bufferSize n)) n (nrBlocks n) i).size.toNat =
        min 64 (n.toNat - 64 * i) := fun i below => block_size_toNat n below
  have at_ : ∀ slot ∈ slots heap driver n, ∃ i : ℕ, (slots heap driver n)[i]? = some slot :=
    fun slot member => List.mem_iff_getElem?.mp member
  refine ⟨⟨nrBlocks n, bufferSize n, bufferOf heap n, (List.range (nrBlocks n).toNat).map
    (blockOf (bufferOf heap n) (driver.bus (bufferOf heap n) (bufferSize n)) n (nrBlocks n))⟩, ?_,
    ?_⟩
  · unfold construct
    simp only [init_small heap driver some_ small]
    rw [link_small _ _ rfl sizes]
    rfl
  · constructor
    · rw [List.length_map, List.length_range]
    · exact blocks_sizes _ sizes
    · rfl
    · rw [slots, List.length_map, List.length_range]
    · exact fun i slot found => (slots_native heap driver small found).1
    · rw [List.pairwise_iff_getElem]
      intro i j first second less
      have own := (slots_native heap driver small (List.getElem?_eq_getElem first)).1
      have later := (slots_native heap driver small (List.getElem?_eq_getElem second)).1
      rw [own, later]
      simp only [pageSize]
      omega
    · intro slot member
      obtain ⟨i, found⟩ := at_ slot member
      obtain ⟨native, room⟩ := slots_native heap driver small found
      simp only
      omega
    · intro slot member
      obtain ⟨i, found⟩ := at_ slot member
      obtain ⟨native, -⟩ := slots_native heap driver small found
      simp only [pageSize] at aligned native ⊢
      omega
    · intro slot member
      obtain ⟨i, found⟩ := at_ slot member
      exact slots_pa heap driver small found

theorem construct_large (large : maxDescriptors < n.toNat) :
    ∀ result, construct heap driver n ≠ .ok result := by
  intro result constructed
  unfold construct at constructed
  split at constructed
  · cases constructed
  · rename_i made
    exact init_large heap driver large _ made

end Construction

/-- The constructor comes to its end and attaches every descriptor. -/
def Attaches (heap : PageAllocator) (driver : PageDriver) (n : U32) : Prop :=
  ∃ list slots, construct heap driver n = .ok (list, slots) ∧ Attached heap driver n list slots

/-- The length of the buffer wraps at 2^20 blocks. -/
theorem attaches_iff (heap : PageAllocator) (driver : PageDriver) {n : U32} (some_ : 1 ≤ n.toNat) :
    Attaches heap driver n ↔ n.toNat ≤ maxDescriptors := by
  constructor
  · intro attaches
    rcases attaches with ⟨list, slots, constructed, -⟩
    by_contra large
    exact construct_large heap driver (Nat.lt_of_not_le large) _ constructed
  · intro small
    obtain ⟨list, constructed, attached⟩ := construct_small heap driver some_ small
    exact ⟨list, _, constructed, attached⟩

def secondPage : PageAllocator where
  memalign _ := 4096
  aligned _ := rfl
  fits size := by
    have bound := size.isLt
    have start : (4096 : U64).toNat = 4096 := rfl
    omega

theorem attaches_iff_two_pages :
    Attaches secondPage plainDriver 65 ↔ (65 : U32).toNat ≤ maxDescriptors :=
  attaches_iff secondPage plainDriver (by decide)

theorem largest_list_fails : ¬Attaches secondPage plainDriver 67108801 := by
  intro attaches
  rcases attaches with ⟨list, slots, constructed, -⟩
  exact construct_large secondPage plainDriver (by decide) _ constructed

end DMADescriptorListWG

end FpgaPcie.Mprace
