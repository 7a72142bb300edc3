import FpgaPcie.Driver.UserMemoryExact

/-!
# One entry a page

Where the bus keeps the pages of a buffer apart, an unmerged list has one entry for each page
touched. Users of `UserMemory` index its list by pages; what they find under an index is here.
-/

namespace FpgaPcie.Driver.Umem

open FpgaPcie.Segments FpgaPcie.Paging

set_option autoImplicit false

namespace UserMemory

def getSGcount (memory : UserMemory) : U32 := BitVec.ofNat 32 memory.sg.length

/-- `sg[entry].addr`; `none` behind the end of the array. -/
def getSGentryAddress (memory : UserMemory) (entry : U32) : Option U64 :=
  memory.sg[entry.toNat]?.map UmemSgEntry.addr

end UserMemory

structure PageDriver where
  kernel : Kernel
  privdata : Privdata
  resident : ∀ vma count, (kernel.getUserPages vma count).length = count.toNat
  apart : ∀ sg, (kernel.pciMapSg sg).dma = busSegments (kernel.pciMapSg sg).bus 0 sg
  unused : ∀ entry ∈ privdata.umemList, entry.id ≠ privdata.umemCount

namespace PageDriver

def mapUserMemory (driver : PageDriver) (mem : U64) (size : U32) : Except Exception UserMemory :=
  (UserMemory.construct driver.kernel sgmapGranted sggetGranted driver.privdata mem size false).2

def bus (driver : PageDriver) (mem : U64) (size : U32) : ℕ → U64 :=
  (driver.kernel.pciMapSg (bufferScatterlist driver.kernel mem size)).bus

end PageDriver

theorem bus_segments_getElem? (bus : ℕ → U64) (first index : ℕ) (sg : List ScatterEntry) :
    (busSegments bus first sg)[index]? =
      sg[index]?.map fun entry => ⟨bus (first + index) + (entry.offset : U64), entry.length⟩ := by
  induction sg generalizing first index with
  | nil => rfl
  | cons entry rest ih =>
      cases index with
      | zero => rfl
      | succ index =>
          have later := ih (first + 1) index
          rw [Nat.add_assoc, Nat.add_comm 1 index] at later
          simpa [busSegments] using later

theorem fill_pages_offset (count : U64) (pages : List Page) :
    ∀ entry ∈ fillPages count pages, entry.offset = 0 := by
  induction pages generalizing count with
  | nil => intro entry member; cases member
  | cons page rest ih =>
      intro entry member
      rcases List.mem_cons.mp member with rfl | later
      · rfl
      · exact ih _ entry later

theorem copy_filled {sg : List (Segment U64)} (filled : ∀ entry ∈ sg, entry.length ≠ 0)
    (nonempty : sg ≠ []) : copySg sg nonempty = sg.map sgEntry :=
  if_neg (filled _ (List.getLast_mem nonempty))

theorem scatterlist_offset {vma size : U64} {pages : List Page} {index : ℕ} {entry : ScatterEntry}
    (found : (scatterlist vma size pages)[index]? = some entry) :
    entry.offset = if index = 0 then vma.toNat % pageSize else 0 := by
  cases pages with
  | nil => cases found
  | cons first rest =>
      cases index with
      | zero =>
          cases found
          exact page_offset vma
      | succ index =>
          rw [if_neg (Nat.succ_ne_zero index)]
          exact fill_pages_offset _ rest entry (List.mem_of_getElem? found)

namespace PageDriver

variable (driver : PageDriver) {mem : U64} {size : U32}

theorem buffer_pages_length :
    (bufferPages driver.kernel mem (size.setWidth 64)).length =
      touchedPages mem (size.setWidth 64) := by
  rw [bufferPages, driver.resident, page_count (few_pages mem _)]
  rw [widen_size]
  exact size.isLt

theorem buffer_per_page (nonzero : size ≠ 0#32) :
    PerPage (bufferScatterlist driver.kernel mem size) mem.toNat size.toNat
      (bufferPages driver.kernel mem (size.setWidth 64)) := by
  have positive := size_positive nonzero
  rw [← widen_size] at positive ⊢
  exact scatterlist_per_page positive driver.buffer_pages_length

def entries (mem : U64) (size : U32) : List (Segment U64) :=
  busSegments (driver.bus mem size) 0 (bufferScatterlist driver.kernel mem size)

variable (mem) in
theorem entries_length (nonzero : size ≠ 0#32) :
    (driver.entries mem size).length = (mem.toNat % pageSize + size.toNat + (pageSize - 1)) /
      pageSize := by
  rw [entries, bus_segments_length, (driver.buffer_per_page nonzero).touched,
    pages_touched mem.toNat size.toNat (size_positive nonzero)]

theorem entries_address {index : ℕ} {entry : Segment U64}
    (found : (driver.entries mem size)[index]? = some entry) : entry.address =
      driver.bus mem size index + ((if index = 0 then mem.toNat % pageSize else 0 : ℕ) : U64) := by
  rw [entries, bus_segments_getElem?, Option.map_eq_some_iff, Nat.zero_add] at found
  rcases found with ⟨scatter, own, rfl⟩
  simp only [scatterlist_offset own]

theorem entries_filled (nonzero : size ≠ 0#32) :
    ∀ entry ∈ driver.entries mem size, entry.length ≠ 0 := by
  intro entry member
  obtain ⟨index, found⟩ := List.mem_iff_getElem?.mp member
  rw [entries, bus_segments_getElem?, Option.map_eq_some_iff] at found
  rcases found with ⟨scatter, own, rfl⟩
  have inside := (driver.buffer_per_page nonzero).inside scatter (List.mem_of_getElem? own)
  exact Nat.ne_of_gt inside.1

theorem entries_nonempty (nonzero : size ≠ 0#32) : driver.entries mem size ≠ [] := by
  have positive := size_positive nonzero
  have length := driver.entries_length mem nonzero
  intro empty
  rw [empty, List.length_nil] at length
  simp only [pageSize] at length
  omega

def object (mem : U64) (size : U32) : UserMemory :=
  ⟨mem, size, driver.privdata.umemCount, (driver.entries mem size).map sgEntry⟩

variable (mem) in
theorem sgmap_succeeds (nonzero : size ≠ 0#32) :
    ∃ after, ioctlUmemSgmap driver.kernel sgmapGranted driver.privdata mem (size.setWidth 64) =
      (after, .ok driver.privdata.umemCount) := by
  have wide : size.setWidth 64 ≠ 0#64 := by
    intro zero
    have same := congrArg BitVec.toNat zero
    rw [widen_size] at same
    exact nonzero (BitVec.eq_of_toNat_eq same)
  have enough : ¬(driver.kernel.getUserPages mem (pageCount mem (size.setWidth 64))).length <
      (pageCount mem (size.setWidth 64)).toNat := by
    rw [driver.resident]
    exact Nat.lt_irrefl _
  have mapped : ¬(driver.kernel.pciMapSg (scatterlist mem (size.setWidth 64)
      (driver.kernel.getUserPages mem (pageCount mem (size.setWidth 64))))).dma = [] := by
    rw [driver.apart]
    exact driver.entries_nonempty nonzero
  exists ⟨driver.privdata.umemList ++ [⟨driver.privdata.umemCount,
    bufferPages driver.kernel mem (size.setWidth 64), _, mapped⟩],
      driver.privdata.umemCount + 1#32⟩
  simp [ioctlUmemSgmap, umemSgmap, sgmapGranted, wide, enough, mapped, bufferPages]

/-- The object of a buffer that is not empty lists its pages one by one. -/
theorem map_user_memory_pages (nonzero : size ≠ 0#32) :
    driver.mapUserMemory mem size = .ok (driver.object mem size) := by
  obtain ⟨after, mapped⟩ := driver.sgmap_succeeds mem nonzero
  obtain ⟨-, -, -, nonempty, added⟩ := sgmap_adds mapped
  have found := find_added added driver.unused
  have same : (driver.kernel.pciMapSg (scatterlist mem (size.setWidth 64)
      (bufferPages driver.kernel mem (size.setWidth 64)))).dma = driver.entries mem size :=
    driver.apart _
  have requested := requested_nents mem.toNat size (size_positive nonzero)
  rw [← pages_touched mem.toNat size.toNat (size_positive nonzero),
    ← driver.entries_length _ nonzero] at requested
  have room : ¬requestedNents size < BitVec.ofNat 32 (driver.entries mem size).length := by
    rw [BitVec.lt_def, BitVec.toNat_ofNat]
    exact Nat.not_lt.mpr ((Nat.mod_le _ _).trans requested)
  unfold mapUserMemory UserMemory.construct
  rw [mapped]
  simp only [ioctlUmemSgget, sggetGranted, umemSgget, found, same, room,
    copy_filled (driver.entries_filled nonzero)]
  rfl

theorem map_user_memory_empty : driver.mapUserMemory mem 0#32 = .error .sgmapFailed := rfl

theorem object_count (nonzero : size ≠ 0#32) : (driver.object mem size).getSGcount.toNat =
    (mem.toNat % pageSize + size.toNat + (pageSize - 1)) / pageSize := by
  have length := driver.entries_length mem nonzero
  have bound := size.isLt
  have inside : mem.toNat % pageSize < pageSize := Nat.mod_lt _ (by decide)
  unfold UserMemory.getSGcount object
  rw [List.length_map, length, BitVec.toNat_ofNat, Nat.mod_eq_of_lt]
  simp only [pageSize] at inside ⊢
  omega

variable (mem) in
theorem object_page (nonzero : size ≠ 0#32) {index : U32}
    (inside : index.toNat < (mem.toNat % pageSize + size.toNat + (pageSize - 1)) / pageSize) :
    (driver.object mem size).getSGentryAddress index = some (driver.bus mem size index.toNat +
      ((if index.toNat = 0 then mem.toNat % pageSize else 0 : ℕ) : U64)) := by
  rw [← driver.entries_length _ nonzero] at inside
  have own := driver.entries_address (List.getElem?_eq_getElem inside)
  unfold UserMemory.getSGentryAddress object
  rw [List.getElem?_map, List.getElem?_eq_getElem inside, Option.map_some, Option.map_some, ← own]
  rfl

variable (mem) in
theorem object_past (nonzero : size ≠ 0#32) {index : U32}
    (past : (mem.toNat % pageSize + size.toNat + (pageSize - 1)) / pageSize ≤ index.toNat) :
    (driver.object mem size).getSGentryAddress index = none := by
  rw [← driver.entries_length _ nonzero] at past
  unfold UserMemory.getSGentryAddress object
  rw [List.getElem?_map, List.getElem?_eq_none past]
  rfl

end PageDriver

theorem plain_resident (vma : U64) (count : U32) :
    (plainKernel.getUserPages vma count).length = count.toNat := by
  simp [plainKernel]

theorem none_in_use : ∀ entry ∈ noMappings.umemList, entry.id ≠ noMappings.umemCount := by
  simp [noMappings]

def plainDriver : PageDriver where
  kernel := plainKernel
  privdata := noMappings
  resident := plain_resident
  apart _ := rfl
  unused := none_in_use

end FpgaPcie.Driver.Umem
