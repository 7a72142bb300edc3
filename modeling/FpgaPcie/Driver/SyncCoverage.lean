import FpgaPcie.Driver.PageCounting

/-!
# What a sync of user memory reaches

An entry keeps two counts: of its pages, which `pci_map_sg` was called with, and of the bus
segments it returned. The DMA API wants the first one again for a sync. Called with a count
it acts on the memory of so many page entries.
-/

namespace FpgaPcie.Driver.Umem

set_option autoImplicit false

def dmaBidirectional : U32 := 0
def dmaToDevice : U32 := 1
def dmaFromDevice : U32 := 2

/-- The calls of the DMA API on the scatterlist of an entry, with their count and the
direction of the sync, which for the other two is always bidirectional. -/
inductive DmaSgCall where
  | mapSg (nents : U32)
  | unmapSg (nents : U32)
  | syncSgForDevice (nents dir : U32)
  | syncSgForCpu (nents dir : U32)
  deriving DecidableEq, Repr

def DmaSgCall.nents : DmaSgCall → U32
  | .mapSg nents => nents
  | .unmapSg nents => nents
  | .syncSgForDevice nents _ => nents
  | .syncSgForCpu nents _ => nents

/-- `pcidriver_umem_entry_t`: the counts and the page entries. -/
structure PageEntry where
  id : U32
  nrPages : U32
  nents : U32
  sg : List ScatterEntry
  deriving DecidableEq, Repr

/-- What `pcidriver_umem_sgmap` keeps of a mapping of `nents` bus segments. -/
def SgmapTables.pageEntry (tables : SgmapTables) (id nents : U32) : PageEntry :=
  ⟨id, tables.nrPages, nents, tables.sg⟩

def SgmapTables.mapCall (tables : SgmapTables) : DmaSgCall := .mapSg tables.nrPages

def PageEntry.unmapCall (entry : PageEntry) : DmaSgCall := .unmapSg entry.nrPages

/-- `pcidriver_umem_sync`: the calls it makes, in their order, and its result. -/
def pcidriverUmemSync (umemList : List PageEntry) (handleId dir : U32) :
    List DmaSgCall × Except Errno Unit :=
  match umemList.find? fun entry => entry.id = handleId with
  | none => ([], .error .einval)
  | some entry =>
      if dir = dmaToDevice then ([.syncSgForDevice entry.nents dmaToDevice], .ok ())
      else if dir = dmaFromDevice then ([.syncSgForCpu entry.nents dmaFromDevice], .ok ())
      else if dir = dmaBidirectional then
        ([.syncSgForDevice entry.nents dmaBidirectional, .syncSgForCpu entry.nents dmaBidirectional],
          .ok ())
      else ([], .error .einval)

/-- Byte `index` of the buffer lies in one of the first `count` page entries. -/
def Reaches (vma : U64) (sg : List ScatterEntry) (count index : ℕ) : Prop :=
  ∃ entry, (sg.take count)[(vma.toNat % pageSize + index) / pageSize]? = some entry ∧
    entry.offset ≤ (vma.toNat % pageSize + index) % pageSize ∧
    (vma.toNat % pageSize + index) % pageSize < entry.offset + entry.length

/-- Every byte of the buffer is made consistent in the direction, and the counts are the one
that the list was mapped with. -/
structure SyncsWhole (vma size : U64) (dir : U32) (tables : SgmapTables) (entry : PageEntry)
    (calls : List DmaSgCall) : Prop where
  forDevice : dir = dmaToDevice ∨ dir = dmaBidirectional → ∀ index < size.toNat, ∃ nents,
    .syncSgForDevice nents dir ∈ calls ∧ Reaches vma entry.sg nents.toNat index
  forCpu : dir = dmaFromDevice ∨ dir = dmaBidirectional → ∀ index < size.toNat, ∃ nents,
    .syncSgForCpu nents dir ∈ calls ∧ Reaches vma entry.sg nents.toNat index
  counts : ∀ call ∈ calls, call.nents = tables.mapCall.nents ∧ call.nents = entry.unmapCall.nents

def ValidDir (dir : U32) : Prop :=
  dir = dmaToDevice ∨ dir = dmaFromDevice ∨ dir = dmaBidirectional

section Entries

variable {vma size : U64} {pages : List Page}

theorem fill_pages_holds {count : U64} {position : ℕ} (inside : position < count.toNat)
    (room : position / pageSize < pages.length) :
    ∃ entry, (fillPages count pages)[position / pageSize]? = some entry ∧ entry.offset = 0 ∧
      position % pageSize < entry.length := by
  induction pages generalizing count position with
  | nil => exact absurd room (Nat.not_lt_zero _)
  | cons page rest ih =>
      simp only [pageSize] at room
      by_cases first : position < pageSize
      · rw [Nat.div_eq_of_lt first, Nat.mod_eq_of_lt first, fillPages]
        refine ⟨_, List.getElem?_cons_zero, rfl, ?_⟩
        dsimp only
        rw [fill_length]
        exact Nat.lt_min.mpr ⟨first, inside⟩
      · rw [List.length_cons] at room
        simp only [pageSize] at first
        have later := @ih _ (position - pageSize)
          (by rw [fill_rest]; simp only [pageSize]; omega : _ < (count - _).toNat)
          (by simp only [pageSize]; omega)
        rcases later with ⟨entry, found, offset, holds⟩
        have quotient : position / pageSize = (position - pageSize) / pageSize + 1 := by
          simp only [pageSize]
          omega
        have remainder : position % pageSize = (position - pageSize) % pageSize := by
          simp only [pageSize]
          omega
        rw [quotient, remainder, fillPages, List.getElem?_cons_succ]
        exact ⟨entry, found, offset, holds⟩

theorem scatterlist_length (vma size : U64) (pages : List Page) :
    (scatterlist vma size pages).length = pages.length := by
  have same : ((scatterlist vma size pages).map ScatterEntry.page).length = pages.length := by
    cases pages with
    | nil => rfl
    | cons first rest => simp [scatterlist, fill_pages_pages]
  rwa [List.length_map] at same

/-- With an entry for each of its pages, each byte of the buffer is in one. -/
theorem scatterlist_reaches (counted : pages.length = touchedPages vma size) {index : ℕ}
    (inside : index < size.toNat) :
    Reaches vma (scatterlist vma size pages) pages.length index := by
  have offset := Nat.mod_lt vma.toNat (by decide : 0 < pageSize)
  have whole : (scatterlist vma size pages).take pages.length = scatterlist vma size pages :=
    List.take_of_length_le (by rw [scatterlist_length])
  rw [Reaches, whole]
  rw [touchedPages] at counted
  simp only [pageSize] at offset counted
  cases pages with
  | nil =>
      rw [List.length_nil] at counted
      omega
  | cons first rest =>
      rw [List.length_cons] at counted
      by_cases inFirst : vma.toNat % pageSize + index < pageSize
      · rw [Nat.div_eq_of_lt inFirst, Nat.mod_eq_of_lt inFirst, scatterlist]
        refine ⟨_, List.getElem?_cons_zero, ?_, ?_⟩
        · dsimp only
          rw [page_offset]
          exact Nat.le_add_right _ _
        · dsimp only
          rw [first_length, page_offset]
          omega
      · simp only [pageSize] at inFirst
        have behind := @fill_pages_holds rest
          (size - if BitVec.ofNat 64 pageSize - (vma &&& ~~~pageMask) < size then
            BitVec.ofNat 64 pageSize - (vma &&& ~~~pageMask) else size)
          (vma.toNat % pageSize + index - pageSize)
          (by rw [first_rest]; simp only [pageSize]; omega) (by simp only [pageSize]; omega)
        rcases behind with ⟨entry, found, start, holds⟩
        have quotient : (vma.toNat % pageSize + index) / pageSize =
            (vma.toNat % pageSize + index - pageSize) / pageSize + 1 := by
          simp only [pageSize]
          omega
        have remainder : (vma.toNat % pageSize + index) % pageSize =
            (vma.toNat % pageSize + index - pageSize) % pageSize := by
          simp only [pageSize]
          omega
        rw [quotient, remainder, scatterlist, List.getElem?_cons_succ]
        refine ⟨entry, found, ?_, ?_⟩
        · rw [start]
          exact Nat.zero_le _
        · rwa [start, Nat.zero_add]

end Entries

/-- Whatever the direction, the sync is called with the number of bus segments. -/
theorem umem_sync_calls {umemList : List PageEntry} {handleId dir : U32} {entry : PageEntry}
    (found : (umemList.find? fun other => other.id = handleId) = some entry)
    (valid : ValidDir dir) :
    (∀ call ∈ (pcidriverUmemSync umemList handleId dir).1, call.nents = entry.nents) ∧
    (dir = dmaToDevice ∨ dir = dmaBidirectional →
      .syncSgForDevice entry.nents dir ∈ (pcidriverUmemSync umemList handleId dir).1) ∧
    (dir = dmaFromDevice ∨ dir = dmaBidirectional →
      .syncSgForCpu entry.nents dir ∈ (pcidriverUmemSync umemList handleId dir).1) := by
  rw [pcidriverUmemSync, found]
  rcases valid with is | is | is
  · subst is
    simp [dmaToDevice, dmaFromDevice, dmaBidirectional, DmaSgCall.nents]
  · subst is
    simp [dmaToDevice, dmaFromDevice, dmaBidirectional, DmaSgCall.nents]
  · subst is
    simp [dmaToDevice, dmaFromDevice, dmaBidirectional, DmaSgCall.nents]

theorem Reaches.inside {vma : U64} {sg : List ScatterEntry} {count index : ℕ}
    (reaches : Reaches vma sg count index) :
    (vma.toNat % pageSize + index) / pageSize < sg.length := by
  rcases reaches with ⟨entry, found, _, _⟩
  have bound := (List.getElem?_eq_some_iff.mp found).1
  rw [List.length_take] at bound
  omega

section Created

variable {kernel : Kernel} {vmallocPages vmallocSg : Vmalloc} {outcome : EntryOutcome}
  {vma size : U64} {tables : SgmapTables}

theorem created_tables
    (created : (pcidriverUmemSgmap kernel vmallocPages vmallocSg outcome vma size).result =
      .ok tables) :
    TablesGranted vmallocPages vmallocSg vma size ∧
      tables.nrPages = pageCount vma size ∧
      tables.sg = scatterlist vma size (tablePages kernel vma size) ∧
      (tablePages kernel vma size).length = (pageCount vma size).toNat := by
  by_cases granted : TablesGranted vmallocPages vmallocSg vma size
  · by_cases later : LaterStepsSucceed kernel outcome vma size
    · rcases sgmap_succeeds granted later with ⟨accesses, call⟩
      rw [call] at created
      cases created
      have word := positive_toNat (granted_count granted)
      have pages := later.pages
      refine ⟨granted, rfl, rfl, ?_⟩
      rw [tablePages, List.length_take]
      omega
    · rcases @sgmap_later_failure kernel _ _ outcome _ _ granted later with
        ⟨errno, accesses, call, _⟩
      rw [call] at created
      cases created
  · rcases @sgmap_without_tables kernel _ _ outcome _ _ granted with ⟨errno, call⟩
    rw [call] at created
    cases created

/-- A sync reaches the buffer when the bus got a segment for each page, of a buffer that has
an entry for each page. -/
theorem umem_sync_whole_iff
    (created : (pcidriverUmemSgmap kernel vmallocPages vmallocSg outcome vma size).result =
      .ok tables)
    (umemList : List PageEntry) (handleId nents dir : U32)
    (found : (umemList.find? fun other => other.id = handleId) =
      some (tables.pageEntry handleId nents)) (valid : ValidDir dir) :
    SyncsWhole vma size dir tables (tables.pageEntry handleId nents)
        (pcidriverUmemSync umemList handleId dir).1 ↔
      nents = tables.nrPages ∧ touchedPages vma size < 2 ^ 32 := by
  rcases created_tables created with ⟨granted, count, sg, length⟩
  rcases umem_sync_calls found valid with ⟨counts, device, cpu⟩
  have nonzero : 0 < size.toNat := by
    rw [Nat.pos_iff_ne_zero]
    exact fun zero => granted.1 (BitVec.eq_of_toNat_eq zero)
  constructor
  · intro whole
    -- each direction has one call at least
    have called : ∃ call ∈ (pcidriverUmemSync umemList handleId dir).1,
        ∃ count : U32, Reaches vma tables.sg count.toNat (size.toNat - 1) := by
      rcases valid with is | is | is
      · rcases whole.forDevice (Or.inl is) _ (Nat.sub_one_lt_of_lt nonzero) with
          ⟨count, member, reaches⟩
        exact ⟨_, member, count, reaches⟩
      · rcases whole.forCpu (Or.inl is) _ (Nat.sub_one_lt_of_lt nonzero) with
          ⟨count, member, reaches⟩
        exact ⟨_, member, count, reaches⟩
      · rcases whole.forDevice (Or.inr is) _ (Nat.sub_one_lt_of_lt nonzero) with
          ⟨count, member, reaches⟩
        exact ⟨_, member, count, reaches⟩
    rcases called with ⟨call, member, reached, reaches⟩
    constructor
    · exact (counts call member).symm.trans (whole.counts call member).1
    · have last := reaches.inside
      have bound := (pageCount vma size).isLt
      rw [sg, scatterlist_length, length] at last
      simp only [touchedPages, pageSize] at last ⊢
      omega
  · intro condition
    rcases condition with ⟨same, few⟩
    have counted : (tablePages kernel vma size).length = touchedPages vma size := by
      rw [length, page_count few]
    have reaches : ∀ index < size.toNat,
        Reaches vma (tables.pageEntry handleId nents).sg nents.toNat index := by
      intro index inside
      have each := scatterlist_reaches counted inside
      rw [length, ← count, ← same] at each
      rwa [SgmapTables.pageEntry, sg]
    constructor
    · intro direction index inside
      exact ⟨nents, device direction, reaches index inside⟩
    · intro direction index inside
      exact ⟨nents, cpu direction, reaches index inside⟩
    · intro call member
      rw [counts call member]
      exact ⟨same, same⟩

end Created

def twoPageTables : SgmapTables :=
  ⟨2#32, 16#64, 64#64, [⟨7, 16, 0xff0⟩, ⟨8, 16, 0⟩]⟩

theorem umem_sync_whole_iff_two_pages :
    SyncsWhole 0x7ff0#64 32#64 dmaToDevice twoPageTables (twoPageTables.pageEntry 0#32 2#32)
        (pcidriverUmemSync [twoPageTables.pageEntry 0#32 2#32] 0#32 dmaToDevice).1 ↔
      2#32 = twoPageTables.nrPages ∧ touchedPages 0x7ff0#64 32#64 < 2 ^ 32 :=
  @umem_sync_whole_iff plainKernel terabyte terabyte ⟨true, true⟩ 0x7ff0#64 32#64 twoPageTables rfl
    [twoPageTables.pageEntry 0#32 2#32] 0#32 2#32 dmaToDevice rfl (Or.inl rfl)

/-- An IOMMU put both pages into one segment: the second page is not synced. -/
theorem sync_misses_second_page :
    (pcidriverUmemSync [twoPageTables.pageEntry 0#32 1#32] 0#32 dmaToDevice).1 =
        [.syncSgForDevice 1#32 dmaToDevice] ∧
      ¬Reaches 0x7ff0#64 twoPageTables.sg 1 16 ∧
      ¬SyncsWhole 0x7ff0#64 32#64 dmaToDevice twoPageTables (twoPageTables.pageEntry 0#32 1#32)
        (pcidriverUmemSync [twoPageTables.pageEntry 0#32 1#32] 0#32 dmaToDevice).1 := by
  constructor
  · rfl
  constructor
  · intro reaches
    rcases reaches with ⟨entry, found, _⟩
    cases found
  · intro whole
    have counts := (whole.counts (.syncSgForDevice 1#32 dmaToDevice) List.mem_cons_self).1
    exact absurd counts (by decide)

end FpgaPcie.Driver.Umem
