import FpgaPcie.Driver.PageEntries

/-!
# The page list of the old interface

`MemoryPageList` hands out the entries of an unmerged list as addresses of pages of 32 bits.
The first entry starts inside of its page; it is rounded down, and its offset is there to be
asked for.
-/

namespace FpgaPcie.Driver.Umem

open FpgaPcie.Paging

set_option autoImplicit false

/-- `um` is the null pointer where the buffer is not locked. -/
structure MemoryPageList where
  um : Option UserMemory
  pagesize : U32
  pageshift : U32
  deriving DecidableEq, Repr

/-- The loop that halves `temp` until it is 1, for at most `fuel` turns. -/
def findPageshift : ℕ → U32 → U32 → Option U32
  | 0, _, _ => none
  | fuel + 1, temp, pageshift =>
      if temp = 1 then some pageshift else findPageshift fuel (temp >>> 1) (pageshift + 1)

namespace MemoryPageList

/-- `getpagesize()` is a power of two below 2^32, for which 32 turns are enough. -/
def empty : Option MemoryPageList :=
  (findPageshift 32 (BitVec.ofNat 32 pageSize) 0).map fun pageshift =>
    ⟨none, BitVec.ofNat 32 pageSize, pageshift⟩

def lockBuffer (list : MemoryPageList) (driver : PageDriver) (buffer : U64) (size : U32) :
    Except Exception MemoryPageList :=
  match driver.mapUserMemory buffer size with
  | .error exception => .error exception
  | .ok um => .ok { list with um := some um }

def construct (driver : PageDriver) (buffer : U64) (size : U32) :
    Option (Except Exception MemoryPageList) :=
  empty.map fun list => list.lockBuffer driver buffer size

section Accessors

variable (list : MemoryPageList)

def roundDown (addr : U32) : U32 := addr >>> list.pageshift.toNat <<< list.pageshift.toNat

/-- `none` where a null pointer is followed, here and below. -/
def getNumberOfPages : Option U32 := list.um.map UserMemory.getSGcount

/-- `addr` is an `unsigned int`, the entry an `unsigned long`. -/
def getPhysicalAddress (index : U32) : Option U32 :=
  list.um.bind fun um => (um.getSGentryAddress index).map fun entry =>
    let addr := entry.setWidth 32
    if index = 0 then list.roundDown addr else addr

def pageAt (index : U32) : Option U32 :=
  list.um.bind fun um => (um.getSGentryAddress index).map fun entry =>
    let addr := entry.setWidth 32
    if index = 0 then list.roundDown addr else addr

def getFirstPageOffset : Option U32 :=
  list.um.bind fun um => (um.getSGentryAddress 0).map fun entry =>
    let pgAddr := entry.setWidth 32
    pgAddr - list.roundDown pgAddr

end Accessors

end MemoryPageList

open MemoryPageList

/-- Every byte of the buffer is found through the list: `bus` is where its pages are, and the
sums are computed without overflow. -/
structure FindsBytes (list : MemoryPageList) (bus : ℕ → U64) (mem : U64) (size f count : U32) :
    Prop where
  offset : list.getFirstPageOffset = some f
  counted : list.getNumberOfPages = some count
  found : ∀ k < size.toNat, ∃ addr,
    list.getPhysicalAddress (BitVec.ofNat 32 ((k + f.toNat) / pageSize)) = some addr ∧
    list.pageAt (BitVec.ofNat 32 ((k + f.toNat) / pageSize)) = some addr ∧
    addr.toNat + (k + f.toNat) % pageSize =
      (translateAt pageSize bus (mem.toNat % pageSize + k)).toNat ∧
    (k + f.toNat) / pageSize < count.toNat

theorem pageshift_found :
    MemoryPageList.empty = some ⟨none, 4096, 12⟩ := by
  decide

theorem round_down_toNat {list : MemoryPageList} (shift : list.pageshift = 12) (addr : U32) :
    (list.roundDown addr).toNat = addr.toNat - addr.toNat % pageSize := by
  have bound := addr.isLt
  have twelve : (12 : U32).toNat = 12 := rfl
  rw [roundDown, shift, twelve, BitVec.toNat_shiftLeft, BitVec.toNat_ushiftRight,
    Nat.shiftRight_eq_div_pow, Nat.shiftLeft_eq]
  simp only [pageSize]
  omega

section Locked

variable (driver : PageDriver) {mem : U64} {size : U32}

def lockedList (mem : U64) (size : U32) : MemoryPageList :=
  ⟨some (driver.object mem size), 4096, 12⟩

theorem construct_locked (nonzero : size ≠ 0#32) :
    MemoryPageList.construct driver mem size = some (.ok (lockedList driver mem size)) := by
  unfold MemoryPageList.construct lockBuffer
  rw [pageshift_found, Option.map_some, driver.map_user_memory_pages nonzero]
  rfl

def pagesOf (mem : U64) (size : U32) : ℕ :=
  (mem.toNat % pageSize + size.toNat + (pageSize - 1)) / pageSize

theorem inside_page {bus : U64} (aligned : bus.toNat % pageSize = 0) {offset : ℕ}
    (inside : offset < pageSize) : (bus + (offset : U64)).toNat = bus.toNat + offset := by
  have bound := bus.isLt
  have cast : (offset : U64).toNat = offset := by
    rw [BitVec.natCast_eq_ofNat, BitVec.toNat_ofNat]
    simp only [pageSize] at inside
    omega
  rw [BitVec.toNat_add, cast]
  simp only [pageSize] at aligned inside
  omega

variable {driver}

theorem first_entry (nonzero : size ≠ 0#32) :
    (driver.object mem size).getSGentryAddress 0 =
      some (driver.bus mem size 0 + ((mem.toNat % pageSize : ℕ) : U64)) := by
  have positive := size_positive nonzero
  exact driver.object_page mem nonzero (show (0 : U32).toNat < pagesOf mem size by
    have zero : (0 : U32).toNat = 0 := rfl
    simp only [pagesOf, pageSize]
    omega)

theorem first_page_offset (nonzero : size ≠ 0#32)
    (aligned : (driver.bus mem size 0).toNat % pageSize = 0) :
    ∃ f, (lockedList driver mem size).getFirstPageOffset = some f ∧
      f.toNat = mem.toNat % pageSize := by
  have address := inside_page aligned (Nat.mod_lt mem.toNat (by decide))
  simp only [getFirstPageOffset, lockedList, Option.bind_some, first_entry nonzero,
    Option.map_some]
  refine ⟨_, rfl, ?_⟩
  have rounded := fun addr => @round_down_toNat (lockedList driver mem size) rfl addr
  unfold lockedList at rounded
  rw [BitVec.toNat_sub_of_le, rounded, BitVec.toNat_setWidth, address]
  · simp only [pageSize] at aligned ⊢
    omega
  · rw [BitVec.le_def, rounded]
    exact Nat.sub_le _ _

theorem page_address (nonzero : size ≠ 0#32)
    (aligned : ∀ page, (driver.bus mem size page).toNat % pageSize = 0) {page : ℕ}
    (below : page < pagesOf mem size) : ∃ addr,
      (lockedList driver mem size).getPhysicalAddress (BitVec.ofNat 32 page) = some addr ∧
      (lockedList driver mem size).pageAt (BitVec.ofNat 32 page) = some addr ∧
      addr.toNat = (driver.bus mem size page).toNat % 2 ^ 32 := by
  have few : (BitVec.ofNat 32 page).toNat = page := by
    have bound := size.isLt
    rw [BitVec.toNat_ofNat]
    simp only [pagesOf, pageSize] at below
    omega
  have same : (lockedList driver mem size).pageAt (BitVec.ofNat 32 page) =
      (lockedList driver mem size).getPhysicalAddress (BitVec.ofNat 32 page) := rfl
  rw [same]
  cases page with
  | zero =>
      have address := inside_page (aligned 0) (Nat.mod_lt mem.toNat (by decide))
      have entry : (driver.object mem size).getSGentryAddress (BitVec.ofNat 32 0) = _ :=
        first_entry nonzero
      simp only [getPhysicalAddress, lockedList, Option.bind_some, entry, Option.map_some]
      refine ⟨_, rfl, rfl, ?_⟩
      have rounded := fun addr => @round_down_toNat (lockedList driver mem size) rfl addr
      have first := aligned 0
      unfold lockedList at rounded
      have start : (0#32 : U32) = 0 := rfl
      rw [if_pos start, rounded, BitVec.toNat_setWidth, address]
      simp only [pageSize] at first ⊢
      omega
  | succ page =>
      have entry := driver.object_page mem nonzero
        (show (BitVec.ofNat 32 (page + 1)).toNat < pagesOf mem size by rwa [few])
      have other : ¬BitVec.ofNat 32 (page + 1) = 0 := by
        intro zero
        have impossible := congrArg BitVec.toNat zero
        rw [few] at impossible
        cases impossible
      rw [few, if_neg (Nat.succ_ne_zero page)] at entry
      simp only [getPhysicalAddress, lockedList, Option.bind_some, entry, Option.map_some,
        if_neg other]
      refine ⟨_, rfl, rfl, ?_⟩
      simp

/-- For byte `k` of the buffer, the list is right exactly when the page of the byte has an
address of 32 bits. -/
theorem byte_found_iff (aligned : ∀ page, (driver.bus mem size page).toNat % pageSize = 0)
    {k : ℕ} {addr : U32}
    (own : addr.toNat =
      (driver.bus mem size ((k + mem.toNat % pageSize) / pageSize)).toNat % 2 ^ 32) :
    addr.toNat + (k + mem.toNat % pageSize) % pageSize =
        (translateAt pageSize (driver.bus mem size) (mem.toNat % pageSize + k)).toNat ↔
      (driver.bus mem size ((k + mem.toNat % pageSize) / pageSize)).toNat < 2 ^ 32 := by
  rw [translateAt, Nat.add_comm (mem.toNat % pageSize) k, own,
    inside_page (aligned _) (Nat.mod_lt _ (by decide))]
  omega

theorem byte_of_page (nonzero : size ≠ 0#32) {page : ℕ} (below : page < pagesOf mem size) :
    ∃ k < size.toNat, (k + mem.toNat % pageSize) / pageSize = page := by
  have positive := size_positive nonzero
  have inside : mem.toNat % pageSize < pageSize := Nat.mod_lt _ (by decide)
  simp only [pagesOf, pageSize] at below inside ⊢
  exact ⟨page * 4096 - mem.toNat % 4096, by omega, by omega⟩

theorem page_of_byte {k : ℕ} (below : k < size.toNat) :
    (k + mem.toNat % pageSize) / pageSize < pagesOf mem size := by
  simp only [pagesOf, pageSize]
  omega

/-- The list names every byte of a buffer if the bus has all of its pages below 4 GiB. -/
theorem finds_bytes_iff (nonzero : size ≠ 0#32)
    (aligned : ∀ page, (driver.bus mem size page).toNat % pageSize = 0) :
    (∃ list f count, MemoryPageList.construct driver mem size = some (.ok list) ∧
      FindsBytes list (driver.bus mem size) mem size f count) ↔
      ∀ page < pagesOf mem size, (driver.bus mem size page).toNat < 2 ^ 32 := by
  obtain ⟨f, offset, value⟩ := first_page_offset nonzero (aligned 0)
  constructor
  · intro finds page below
    rcases finds with ⟨list, f', count, constructed, exact_⟩
    rw [construct_locked driver nonzero] at constructed
    cases constructed
    have sameOffset := exact_.offset
    rw [offset, Option.some.injEq] at sameOffset
    subst sameOffset
    obtain ⟨k, inside, here⟩ := byte_of_page nonzero below
    obtain ⟨addr, own, low⟩ := page_address nonzero aligned below
    obtain ⟨found, given, -, named, -⟩ := exact_.found k inside
    rw [value, here, own, Option.some.injEq] at given
    subst given
    rw [value] at named
    rw [← here] at low ⊢
    exact (byte_found_iff aligned low.2).mp named
  · intro low
    refine ⟨lockedList driver mem size, f, _, construct_locked driver nonzero, offset, rfl, ?_⟩
    intro k inside
    have below := @page_of_byte mem size k inside
    obtain ⟨addr, own, again, half⟩ := page_address nonzero aligned below
    rw [value]
    refine ⟨addr, own, again, (byte_found_iff aligned half).mpr (low _ below), ?_⟩
    rw [driver.object_count nonzero]
    exact below

end Locked

theorem plain_aligned (mem : U64) (size : U32) (page : ℕ) :
    (plainDriver.bus mem size page).toNat % pageSize = 0 := by
  show (BitVec.ofNat 64 (0x100000 + page * 8192)).toNat % 4096 = 0
  rw [BitVec.toNat_ofNat]
  omega

theorem finds_bytes_iff_two_pages :
    (∃ list f count, MemoryPageList.construct plainDriver 0x7ff0#64 32#32 = some (.ok list) ∧
      FindsBytes list (plainDriver.bus 0x7ff0#64 32#32) 0x7ff0#64 32#32 f count) ↔
      ∀ page < pagesOf 0x7ff0#64 32#32,
        (plainDriver.bus 0x7ff0#64 32#32 page).toNat < 2 ^ 32 :=
  finds_bytes_iff (by decide) (plain_aligned _ _)

def highDriver : PageDriver where
  kernel := { plainKernel with
    pciMapSg := fun sg => ⟨busSegments (fun _ => 0x100000000#64) 0 sg, fun _ => 0x100000000#64⟩ }
  privdata := noMappings
  resident := plain_resident
  apart _ := rfl
  unused := none_in_use

theorem high_page_cut : ¬∃ list f count,
    MemoryPageList.construct highDriver 0x8000#64 16#32 = some (.ok list) ∧
      FindsBytes list (highDriver.bus 0x8000#64 16#32) 0x8000#64 16#32 f count := by
  intro finds
  rcases finds with ⟨list, f, count, constructed, exact_⟩
  rw [construct_locked highDriver (by decide)] at constructed
  cases constructed
  obtain ⟨addr, given, -, named, -⟩ := exact_.found 0 (by decide)
  cases exact_.offset
  cases given
  exact absurd named (by decide)

end FpgaPcie.Driver.Umem
