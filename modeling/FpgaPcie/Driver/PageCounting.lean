import FpgaPcie.Driver.UserMemoryExact

/-!
# How sgmap counts its pages

`pcidriver_umem_sgmap` with its two tables: how large they are made, and which entries of
them are read or written. The count is a 64-bit sum cut down to an `int`, and the sizes
are products of it. What `vmalloc` does not give out keeps the wrong ones away, unless they
come out small.
-/

namespace FpgaPcie.Driver.Umem

set_option autoImplicit false

/-- `sizeof(*pages)` and `sizeof(*sg)`. -/
def sizeofPage : ℕ := 8
def sizeofScatterlist : ℕ := 32

/-- `vmalloc` as a call finds it: it refuses a size of zero, and one that is more than the
memory of the machine. -/
structure Vmalloc where
  grants : U64 → Bool
  memory : ℕ
  machine : memory ≤ 2 ^ 52
  refuses : ∀ size, grants size = true → 0 < size.toNat ∧ size.toNat ≤ memory

structure EntryOutcome where
  kmallocEntry : Bool
  sysfsInitialize : Bool
  deriving DecidableEq, Repr

/-- `nr_pages * sizeof(..)`: the `int` is widened before the product. -/
def tableBytes (nrPages : U32) (sizeofEntry : ℕ) : U64 :=
  nrPages.signExtend 64 * BitVec.ofNat 64 sizeofEntry

/-- An entry of `pages` or of `sg` that is read or written. -/
inductive TableAccess where
  | page (index : ℕ)
  | sg (index : ℕ)
  deriving DecidableEq, Repr

def everyEntry (access : ℕ → TableAccess) (count : ℕ) : List TableAccess :=
  (List.range count).map access

structure SgmapTables where
  nrPages : U32
  pagesBytes : U64
  sgBytes : U64
  sg : List ScatterEntry
  deriving DecidableEq, Repr

structure Sgmapped where
  result : Except Errno SgmapTables
  accesses : List TableAccess

/-- `pcidriver_umem_sgmap`. The two tables are asked for one after the other. -/
def pcidriverUmemSgmap (kernel : Kernel) (vmallocPages vmallocSg : Vmalloc)
    (outcome : EntryOutcome) (vma size : U64) : Sgmapped :=
  if size = 0#64 then ⟨.error .einval, []⟩
  else
    let nrPages := pageCount vma size
    let pagesBytes := tableBytes nrPages sizeofPage
    let sgBytes := tableBytes nrPages sizeofScatterlist
    if ¬vmallocPages.grants pagesBytes then ⟨.error .enomem, []⟩
    else if ¬vmallocSg.grants sgBytes then ⟨.error .enomem, []⟩
    else
      -- sg_init_table, then the pages that get_user_pages found
      let pages := kernel.getUserPages vma nrPages
      let got := everyEntry .sg nrPages.toNat ++ everyEntry .page pages.length
      if (pages.length : ℤ) < nrPages.toInt then
        ⟨.error .enomem, got ++ everyEntry .page pages.length⟩
      else
        let sg := scatterlist vma size (pages.take nrPages.toNat)
        let mapped := got ++ everyEntry .page nrPages.toNat ++ everyEntry .sg nrPages.toNat
        let released := mapped ++ everyEntry .page nrPages.toNat
        if (kernel.pciMapSg sg).dma = [] then ⟨.error .enomem, released⟩
        else if ¬outcome.kmallocEntry then ⟨.error .enomem, released⟩
        else if ¬outcome.sysfsInitialize then ⟨.error .enomem, released⟩
        else ⟨.ok ⟨nrPages, pagesBytes, sgBytes, sg⟩, mapped⟩

/-- The pages from the first byte of the buffer to the last, with nothing lost. -/
def pagesFromTo (vma size : U64) : ℕ :=
  (vma.toNat + size.toNat - 1) / pageSize - vma.toNat / pageSize + 1

/-- A call that succeeds has counted the pages right, and sized and filled its tables. -/
structure TablesExact (vma size : U64) (tables : SgmapTables) : Prop where
  counted : tables.nrPages.toInt = pagesFromTo vma size
  pagesBytes : tables.pagesBytes.toNat = tables.nrPages.toNat * sizeofPage
  sgBytes : tables.sgBytes.toNat = tables.nrPages.toNat * sizeofScatterlist
  entries : tables.sg.length = tables.nrPages.toNat
  lengths : ∀ entry ∈ tables.sg, 1 ≤ entry.length ∧ entry.length ≤ pageSize
  total : (tables.sg.map ScatterEntry.length).sum = size.toNat

structure CountsExactly (vma size : U64) (call : Sgmapped) : Prop where
  succeeds : ∀ tables, call.result = .ok tables → TablesExact vma size tables
  fails : ∀ errno, call.result = .error errno → call.accesses = []

section Sizes

variable {nrPages : U32} {sizeofEntry : ℕ}

theorem table_bytes_toNat (small : sizeofEntry < 2 ^ 32) :
    (tableBytes nrPages sizeofEntry).toNat =
      (nrPages.toInt % 2 ^ 64).toNat * sizeofEntry % 2 ^ 64 := by
  rw [tableBytes, BitVec.toNat_mul, BitVec.signExtend, BitVec.toNat_ofInt, BitVec.toNat_ofNat,
    Nat.mod_eq_of_lt (by omega : sizeofEntry < 2 ^ 64)]
  rfl

/-- A count that is not positive makes a table of no bytes, or of more than there are. -/
theorem granted_positive {vmalloc : Vmalloc}
    (granted : vmalloc.grants (tableBytes nrPages sizeofPage) = true) : 0 < nrPages.toInt := by
  have size := vmalloc.refuses _ granted
  have machine := vmalloc.machine
  have lower := BitVec.le_toInt nrPages
  have upper := @BitVec.toInt_lt 32 nrPages
  rw [table_bytes_toNat (by decide)] at size
  simp only [sizeofPage] at size
  omega

theorem positive_toNat (positive : 0 < nrPages.toInt) :
    nrPages.toInt = nrPages.toNat ∧ nrPages.toNat < 2 ^ 31 := by
  have upper := @BitVec.toInt_lt 32 nrPages
  have word := @BitVec.toInt_eq_toNat_cond 32 nrPages
  have bound := nrPages.isLt
  split at word <;> omega

theorem table_bytes_exact (positive : 0 < nrPages.toInt) (small : sizeofEntry < 2 ^ 32) :
    (tableBytes nrPages sizeofEntry).toNat = nrPages.toNat * sizeofEntry := by
  have word := positive_toNat positive
  have product : nrPages.toNat * sizeofEntry < 2 ^ 31 * 2 ^ 32 :=
    Nat.mul_lt_mul'' word.2 small
  have plain : (nrPages.toInt % 2 ^ 64).toNat = nrPages.toNat := by omega
  rw [table_bytes_toNat small, plain, Nat.mod_eq_of_lt (by omega)]

end Sizes

section Calls

variable {kernel : Kernel} {vmallocPages vmallocSg : Vmalloc} {outcome : EntryOutcome}
  {vma size : U64}

def TablesGranted (vmallocPages vmallocSg : Vmalloc) (vma size : U64) : Prop :=
  size ≠ 0#64 ∧ vmallocPages.grants (tableBytes (pageCount vma size) sizeofPage) = true ∧
    vmallocSg.grants (tableBytes (pageCount vma size) sizeofScatterlist) = true

/-- The pages of the buffer, as the tables have room for them. -/
def tablePages (kernel : Kernel) (vma size : U64) : List Page :=
  (bufferPages kernel vma size).take (pageCount vma size).toNat

/-- Nothing fails behind the tables: the pages are there and can be mapped, and an entry can
be made. -/
structure LaterStepsSucceed (kernel : Kernel) (outcome : EntryOutcome) (vma size : U64) : Prop where
  pages : (pageCount vma size).toInt ≤ (bufferPages kernel vma size).length
  mapped : (kernel.pciMapSg (scatterlist vma size (tablePages kernel vma size))).dma ≠ []
  kmallocEntry : outcome.kmallocEntry = true
  sysfsInitialize : outcome.sysfsInitialize = true

theorem sgmap_without_tables (refused : ¬TablesGranted vmallocPages vmallocSg vma size) :
    ∃ errno, pcidriverUmemSgmap kernel vmallocPages vmallocSg outcome vma size =
      ⟨.error errno, []⟩ := by
  rw [pcidriverUmemSgmap]
  split
  · exact ⟨_, rfl⟩
  rename_i nonzero
  dsimp only
  split
  · exact ⟨_, rfl⟩
  rename_i pages
  split
  · exact ⟨_, rfl⟩
  rename_i sg
  exact absurd ⟨nonzero, not_not.mp pages, not_not.mp sg⟩ refused

theorem every_entry_nonempty (access : ℕ → TableAccess) {count : ℕ} (positive : 0 < count) :
    everyEntry access count ≠ [] := by
  intro none_
  have length := congrArg List.length none_
  rw [everyEntry, List.length_map, List.length_range] at length
  exact absurd length (Nat.ne_of_gt positive)

theorem granted_count (granted : TablesGranted vmallocPages vmallocSg vma size) :
    0 < (pageCount vma size).toInt := granted_positive granted.2.1

theorem sgmap_later_failure (granted : TablesGranted vmallocPages vmallocSg vma size)
    (fails : ¬LaterStepsSucceed kernel outcome vma size) : ∃ errno accesses,
    pcidriverUmemSgmap kernel vmallocPages vmallocSg outcome vma size =
      ⟨.error errno, accesses⟩ ∧ accesses ≠ [] := by
  have positive := granted_count granted
  have initialised := every_entry_nonempty .sg (by
    have word := positive_toNat positive
    omega : 0 < (pageCount vma size).toNat)
  rw [pcidriverUmemSgmap, if_neg granted.1]
  simp only [granted.2.1, granted.2.2, not_true, if_false]
  split
  · exact ⟨_, _, rfl, by simp [initialised]⟩
  rename_i pages
  split
  · exact ⟨_, _, rfl, by simp [initialised]⟩
  rename_i mapped
  split
  · exact ⟨_, _, rfl, by simp [initialised]⟩
  rename_i kmallocEntry
  split
  · exact ⟨_, _, rfl, by simp [initialised]⟩
  rename_i sysfsInitialize
  apply absurd _ fails
  exact ⟨Int.not_lt.mp pages, mapped, not_not.mp kmallocEntry, not_not.mp sysfsInitialize⟩

theorem sgmap_succeeds (granted : TablesGranted vmallocPages vmallocSg vma size)
    (later : LaterStepsSucceed kernel outcome vma size) : ∃ accesses,
    pcidriverUmemSgmap kernel vmallocPages vmallocSg outcome vma size =
      ⟨.ok ⟨pageCount vma size, tableBytes (pageCount vma size) sizeofPage,
        tableBytes (pageCount vma size) sizeofScatterlist,
        scatterlist vma size (tablePages kernel vma size)⟩, accesses⟩ := by
  have pages := Int.not_lt.mpr later.pages
  have mapped := later.mapped
  rw [bufferPages] at pages
  rw [tablePages, bufferPages] at mapped
  rw [pcidriverUmemSgmap, if_neg granted.1]
  simp only [granted.2.1, granted.2.2, not_true, if_false, if_neg pages, if_neg mapped,
    later.kmallocEntry, later.sysfsInitialize]
  exact ⟨_, rfl⟩

theorem tables_exact_iff (granted : TablesGranted vmallocPages vmallocSg vma size)
    (later : LaterStepsSucceed kernel outcome vma size) :
    TablesExact vma size ⟨pageCount vma size, tableBytes (pageCount vma size) sizeofPage,
        tableBytes (pageCount vma size) sizeofScatterlist,
        scatterlist vma size (tablePages kernel vma size)⟩ ↔
      touchedPages vma size < 2 ^ 32 := by
  have positive := granted_count granted
  have word := positive_toNat positive
  have nonzero : 0 < size.toNat := by
    rw [Nat.pos_iff_ne_zero]
    exact fun zero => granted.1 (BitVec.eq_of_toNat_eq zero)
  have touched : touchedPages vma size = pagesFromTo vma size :=
    pages_touched vma.toNat size.toNat nonzero
  constructor
  · intro exact_
    have counted : (pageCount vma size).toInt = pagesFromTo vma size := exact_.counted
    omega
  · intro few
    have counted := page_count few
    have length : (tablePages kernel vma size).length = touchedPages vma size := by
      have pages := later.pages
      rw [tablePages, List.length_take]
      omega
    have perPage := scatterlist_per_page nonzero length
    constructor
    · show (pageCount vma size).toInt = _
      omega
    · exact table_bytes_exact positive (by decide)
    · exact table_bytes_exact positive (by decide)
    · show (scatterlist vma size (tablePages kernel vma size)).length = (pageCount vma size).toNat
      rw [perPage.touched, counted, touched, pagesFromTo]
    · intro entry member
      have inside := perPage.inside entry member
      omega
    · exact perPage.total

end Calls

/-- Only a count that 32 bits cannot hold gets past `vmalloc` and is wrong. -/
theorem sgmap_counts_exactly_iff (kernel : Kernel) (vmallocPages vmallocSg : Vmalloc)
    (outcome : EntryOutcome) (vma size : U64) :
    CountsExactly vma size (pcidriverUmemSgmap kernel vmallocPages vmallocSg outcome vma size) ↔
      (TablesGranted vmallocPages vmallocSg vma size →
        LaterStepsSucceed kernel outcome vma size ∧ touchedPages vma size < 2 ^ 32) := by
  by_cases granted : TablesGranted vmallocPages vmallocSg vma size
  · by_cases later : LaterStepsSucceed kernel outcome vma size
    · rcases sgmap_succeeds granted later with ⟨accesses, call⟩
      rw [call]
      constructor
      · intro counts _
        exact ⟨later, (tables_exact_iff granted later).mp (counts.succeeds _ rfl)⟩
      · intro condition
        constructor
        · intro tables is
          cases is
          exact (tables_exact_iff granted later).mpr (condition granted).2
        · intro errno is
          cases is
    · rcases @sgmap_later_failure kernel _ _ outcome _ _ granted later with
        ⟨errno, accesses, call, used⟩
      rw [call]
      constructor
      · intro counts
        exact absurd (counts.fails errno rfl) used
      · intro condition
        exact absurd (condition granted).1 later
  · rcases @sgmap_without_tables kernel _ _ outcome _ _ granted with ⟨errno, call⟩
    rw [call]
    constructor
    · intro _ are
      exact absurd are granted
    · intro _
      constructor
      · intro tables is
        cases is
      · intro _ _
        rfl

def terabyte : Vmalloc where
  grants size := decide (0 < size.toNat ∧ size.toNat ≤ 2 ^ 40)
  memory := 2 ^ 40
  machine := by decide
  refuses _ granted := of_decide_eq_true granted

theorem sgmap_counts_one_page : ∃ accesses,
    pcidriverUmemSgmap plainKernel terabyte terabyte ⟨true, true⟩ 0x7000#64 0x100000001000#64 =
      ⟨.ok ⟨1#32, 8#64, 32#64, [⟨7, 4096, 0⟩]⟩, accesses⟩ ∧
    ¬CountsExactly 0x7000#64 0x100000001000#64
      (pcidriverUmemSgmap plainKernel terabyte terabyte ⟨true, true⟩ 0x7000#64
        0x100000001000#64) := by
  apply Exists.intro
  constructor
  · rfl
  · intro counts
    have total := (counts.succeeds _ rfl).total
    exact absurd total (by decide)

end FpgaPcie.Driver.Umem
