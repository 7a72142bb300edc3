import FpgaPcie.Driver.PageScatter

/-!
# A UserMemory object describes its buffer

From the user's address to the list of the object: `pci_map_sg` keeps the bytes of the
scatterlist, copying and merging keep the bytes of the mapping, and the library asks for
room enough. What is left to go wrong are the calls of `SGGET` that may fail, and an id
that is drawn again while it is in use.
-/

namespace FpgaPcie.Driver.Umem

open FpgaPcie.Segments FpgaPcie.Paging

set_option autoImplicit false

/-- `get_user_pages` returns pages backing consecutive virtual pages. -/
def Kernel.Backs (kernel : Kernel) (backing : ℕ → Page) : Prop := ∀ vma count,
  kernel.getUserPages vma count <+:
    (List.range count.toNat).map fun index => backing (vma.toNat / pageSize + index)

/-- `pci_map_sg` keeps the bytes in order, in as many entries at most. -/
structure SgMapping.Keeps (mapping : SgMapping) (sg : List ScatterEntry) : Prop where
  entries : mapping.dma.length ≤ sg.length
  bytes : expandAll mapping.dma = expandAll (busSegments mapping.bus 0 sg)

def segmentsOf (entries : List UmemSgEntry) : List (Segment U64) :=
  entries.map fun entry => ⟨entry.addr, entry.size.toNat⟩

theorem size_toNat {length : ℕ} (small : length < 2 ^ 64) :
    (BitVec.ofNat 64 length).toNat = length := by
  rw [BitVec.toNat_ofNat, Nat.mod_eq_of_lt small]

theorem merge_bytes (front : List UmemSgEntry) (last : UmemSgEntry) (rest : List (Segment U64))
    (small : last.size.toNat + totalLength rest < 2 ^ 64) :
    expandAll (segmentsOf (mergeSg front last rest)) =
      expandAll (segmentsOf front) ++ (expand ⟨last.addr, last.size.toNat⟩ ++ expandAll rest) := by
  induction rest generalizing front last with
  | nil => simp [mergeSg, segmentsOf]
  | cons entry rest ih =>
      rw [total_length_cons] at small
      rw [mergeSg]
      split
      · rename_i adjoining
        have size : (last.size + BitVec.ofNat 64 entry.length).toNat =
            last.size.toNat + entry.length := by
          rw [BitVec.toNat_add, size_toNat (by omega), Nat.mod_eq_of_lt (by omega)]
        have start : last.addr + ((last.size.toNat : ℕ) : U64) = entry.address := by
          rw [adjoining]
          congr 1
          exact BitVec.ofNat_toNat _ _
        rw [ih _ _ (by rw [size]; omega), size, expand_split, start, expand_all_cons,
          List.append_assoc]
      · split
        · rename_i empty
          rw [ih _ _ (by omega), expand_all_cons]
          have nothing : expand entry = [] := by
            rw [expand, empty]
            rfl
          rw [nothing, List.nil_append]
        · have size : (BitVec.ofNat 64 entry.length).toNat = entry.length := size_toNat (by omega)
          rw [ih _ _ (by rw [sgEntry, size]; omega), expand_all_cons]
          simp [segmentsOf, sgEntry, size]

theorem copied_bytes {sg : List (Segment U64)} (small : totalLength sg < 2 ^ 64) :
    expandAll (segmentsOf (sg.map sgEntry)) = expandAll sg := by
  induction sg with
  | nil => rfl
  | cons entry rest ih =>
      rw [total_length_cons] at small
      have size : (BitVec.ofNat 64 entry.length).toNat = entry.length := size_toNat (by omega)
      have later := ih (by omega)
      rw [segmentsOf, List.map_map] at later
      simp only [segmentsOf, List.map_cons, List.map_map, expand_all_cons, later, sgEntry, size]

theorem copy_bytes {sg : List (Segment U64)} (nonempty : sg ≠ []) (small : totalLength sg < 2 ^ 64) :
    expandAll (segmentsOf (copySg sg nonempty)) = expandAll sg := by
  have split := List.dropLast_append_getLast nonempty
  rw [copySg]
  by_cases empty : (sg.getLast nonempty).length = 0
  · rw [if_pos empty]
    have total : totalLength sg.dropLast < 2 ^ 64 := by
      rw [← split, total_length_append] at small
      omega
    rw [copied_bytes total]
    conv_rhs => rw [← split, expand_all_append]
    have nothing : expand (sg.getLast nonempty) = [] := by
      rw [expand, empty]
      rfl
    simp [nothing]
  · rw [if_neg empty, copied_bytes small]

section Calls

variable {kernel : Kernel} {privdata after : Privdata} {vma size : U64} {handleId : U32}

/-- The pages of the buffer, as `pcidriver_umem_sgmap` gets them. -/
def bufferPages (kernel : Kernel) (vma size : U64) : List Page :=
  kernel.getUserPages vma (pageCount vma size)

theorem sgmap_adds {outcome : SgmapOutcome}
    (mapped : ioctlUmemSgmap kernel outcome privdata vma size = (after, .ok handleId)) :
    size ≠ 0#64 ∧ (pageCount vma size).toNat ≤ (bufferPages kernel vma size).length ∧
    handleId = privdata.umemCount ∧ ∃ nonempty, after.umemList = privdata.umemList ++
      [⟨handleId, bufferPages kernel vma size,
        (kernel.pciMapSg (scatterlist vma size (bufferPages kernel vma size))).dma, nonempty⟩] := by
  rw [ioctlUmemSgmap] at mapped
  split at mapped
  · cases mapped
  split at mapped
  · cases mapped
  rename_i result umem
  have same := (Prod.mk.inj mapped).1
  have written := (Prod.mk.inj mapped).2
  subst same
  split at written
  swap
  · cases written
  cases written
  rw [umemSgmap] at umem
  split at umem
  · cases umem
  rename_i nonzero
  split at umem
  · cases umem
  simp only at umem
  split at umem
  · cases umem
  rename_i enough
  split at umem
  · cases umem
  rename_i nonempty
  split at umem
  · cases umem
  split at umem
  · cases umem
  cases umem
  exact ⟨nonzero, Nat.le_of_not_lt enough, rfl, nonempty, rfl⟩

theorem find_added {entry : UmemEntry} (added : after.umemList = privdata.umemList ++ [entry])
    (unused : ∀ other ∈ privdata.umemList, other.id ≠ entry.id) :
    after.umemFindEntryId entry.id = some entry := by
  rw [Privdata.umemFindEntryId, added, List.find?_append]
  have none_ : (privdata.umemList.find? fun other => other.id = entry.id) = none := by
    rw [List.find?_eq_none]
    intro other member
    simpa using unused other member
  simp [none_]

theorem sgget_bytes {list : UmemSgList} {entry : UmemEntry}
    (found : after.umemFindEntryId list.handleId = some entry)
    (room : entry.sg.length ≤ list.nents.toNat) (small : totalLength entry.sg < 2 ^ 64) :
    ∃ entries, umemSgget after list = .ok entries ∧
      expandAll (segmentsOf entries) = expandAll entry.sg := by
  have enough : ¬list.nents < BitVec.ofNat 32 entry.sg.length := by
    rw [BitVec.lt_def, BitVec.toNat_ofNat]
    exact Nat.not_lt.mpr ((Nat.mod_le _ _).trans room)
  rw [umemSgget, found]
  simp only [if_neg enough]
  by_cases merged : list.merged = true
  · refine ⟨_, if_pos merged, ?_⟩
    have split := List.cons_head_tail entry.mapped
    have total : (entry.sg.head entry.mapped).length + totalLength entry.sg.tail < 2 ^ 64 := by
      rwa [← total_length_cons, split]
    have size : (sgEntry (entry.sg.head entry.mapped)).size.toNat =
        (entry.sg.head entry.mapped).length :=
      size_toNat (by omega)
    rw [merge_bytes [] _ _ (by rw [size]; exact total), size]
    conv_rhs => rw [← split, expand_all_cons]
    rfl
  · exact ⟨_, if_neg merged, copy_bytes entry.mapped small⟩

end Calls

/-- `SGGET` is given the memory it needs and can read and write the user's. -/
def SggetOutcome.Granted (outcome : SggetOutcome) : Prop :=
  outcome.readList ∧ outcome.vmallocSg ∧ outcome.readEntries ∧ outcome.writeEntries ∧
    outcome.writeList

/-- The library asks for an entry for each page that a buffer of this size can touch. -/
theorem requested_nents (mem : ℕ) (size : U32) (positive : 0 < size.toNat) :
    (mem + size.toNat - 1) / pageSize - mem / pageSize + 1 ≤ (requestedNents size).toNat := by
  have small := size.isLt
  have page : (BitVec.ofNat 32 pageSize).toNat = 4096 := by decide
  have two : (2#32).toNat = 2 := by decide
  rw [requestedNents, BitVec.toNat_add, BitVec.toNat_udiv, page, two]
  simp only [pageSize]
  omega

section Exact

variable (kernel : Kernel) (mem : U64) (size : U32)

def bufferScatterlist : List ScatterEntry :=
  scatterlist mem (size.setWidth 64) (bufferPages kernel mem (size.setWidth 64))

def busTranslation : List U64 :=
  translateRange pageSize
    (fun page => (kernel.pciMapSg (bufferScatterlist kernel mem size)).bus
      (page - mem.toNat / pageSize)) mem.toNat size.toNat

variable {kernel mem size}

theorem widen_size (size : U32) : (size.setWidth 64).toNat = size.toNat := by
  have small := size.isLt
  rw [BitVec.toNat_setWidth, Nat.mod_eq_of_lt (by omega)]

theorem size_positive (nonzero : size ≠ 0#32) : 0 < size.toNat := by
  rw [Nat.pos_iff_ne_zero]
  exact fun zero => nonzero (BitVec.eq_of_toNat_eq zero)

theorem buffer_counted {backing : ℕ → Page} (backs : kernel.Backs backing)
    (got : (pageCount mem (size.setWidth 64)).toNat ≤
      (bufferPages kernel mem (size.setWidth 64)).length) :
    (bufferPages kernel mem (size.setWidth 64)).length =
      (pageCount mem (size.setWidth 64)).toNat ∧
    bufferPages kernel mem (size.setWidth 64) =
      (List.range (pageCount mem (size.setWidth 64)).toNat).map
        fun index => backing (mem.toNat / pageSize + index) := by
  have backed := backs mem (pageCount mem (size.setWidth 64))
  have shorter := backed.length_le
  rw [List.length_map, List.length_range] at shorter
  have length := le_antisymm shorter got
  exact ⟨length, backed.eq_of_length (by rw [List.length_map, List.length_range, length])⟩

theorem buffer_per_page {backing : ℕ → Page} (backs : kernel.Backs backing)
    (nonzero : size ≠ 0#32)
    (got : (pageCount mem (size.setWidth 64)).toNat ≤
      (bufferPages kernel mem (size.setWidth 64)).length) :
    PerPage (bufferScatterlist kernel mem size) mem.toNat size.toNat
      ((List.range (bufferScatterlist kernel mem size).length).map
        fun index => backing (mem.toNat / pageSize + index)) := by
  obtain ⟨counted, backed⟩ := buffer_counted backs got
  have wide := widen_size size
  have few : touchedPages mem (size.setWidth 64) < 2 ^ 32 :=
    few_pages mem (by rw [wide]; exact size.isLt)
  have perPage := scatterlist_per_page (by rw [wide]; exact size_positive nonzero)
    (counted.trans (page_count few))
  have length : (bufferScatterlist kernel mem size).length =
      (pageCount mem (size.setWidth 64)).toNat := by
    have same := congrArg List.length perPage.pages
    rwa [List.length_map, counted] at same
  rw [length, ← backed, ← wide]
  exact perPage

theorem mapping_bytes {backing : ℕ → Page} (backs : kernel.Backs backing)
    (keeps : ∀ sg, (kernel.pciMapSg sg).Keeps sg) (nonzero : size ≠ 0#32)
    (got : (pageCount mem (size.setWidth 64)).toNat ≤
      (bufferPages kernel mem (size.setWidth 64)).length) :
    expandAll (kernel.pciMapSg (bufferScatterlist kernel mem size)).dma =
      busTranslation kernel mem size := by
  have wide := widen_size size
  have few : touchedPages mem (size.setWidth 64) < 2 ^ 32 :=
    few_pages mem (by rw [wide]; exact size.isLt)
  rw [(keeps _).bytes, busTranslation, translate_range_from, bufferScatterlist,
    scatterlist_bytes _ (by rw [wide]; exact size_positive nonzero)
      ((buffer_counted backs got).1.trans (page_count few)), wide]

end Exact

theorem user_memory_exact (kernel : Kernel) (backing : ℕ → Page) (backs : kernel.Backs backing)
    (keeps : ∀ sg, (kernel.pciMapSg sg).Keeps sg) (privdata : Privdata) (mem : U64) (size : U32)
    (merged : Bool) (nonzero : size ≠ 0#32) :
    ((pageCount mem (size.setWidth 64)).toNat ≤
        (bufferPages kernel mem (size.setWidth 64)).length →
      PerPage (bufferScatterlist kernel mem size) mem.toNat size.toNat
        ((List.range (bufferScatterlist kernel mem size).length).map
          fun index => backing (mem.toNat / pageSize + index))) ∧
    ∀ sgmap sgget after handleId,
      ioctlUmemSgmap kernel sgmap privdata mem (size.setWidth 64) = (after, .ok handleId) →
      (kernel.pciMapSg (bufferScatterlist kernel mem size)).dma.length ≤
        (requestedNents size).toNat ∧
      ((∀ entry ∈ privdata.umemList, entry.id ≠ privdata.umemCount) → sgget.Granted →
        ∃ object, UserMemory.construct kernel sgmap sgget privdata mem size merged =
            (after, .ok object) ∧
          expandAll (segmentsOf object.sg) = busTranslation kernel mem size) := by
  refine ⟨buffer_per_page backs nonzero, ?_⟩
  intro sgmap sgget after handleId mapped
  obtain ⟨-, got, drawn, nonempty, added⟩ := sgmap_adds mapped
  have perPage := buffer_per_page backs nonzero got
  have bytes := mapping_bytes backs keeps nonzero got
  have room : (kernel.pciMapSg (bufferScatterlist kernel mem size)).dma.length ≤
      (requestedNents size).toNat := by
    have entries := (keeps (bufferScatterlist kernel mem size)).entries
    have requested := requested_nents mem.toNat size (size_positive nonzero)
    rw [perPage.touched] at entries
    exact entries.trans requested
  refine ⟨room, ?_⟩
  intro unused facts
  rcases facts with ⟨readList, vmallocSg, readEntries, writeEntries, writeList⟩
  have found := find_added added (by rw [drawn]; exact unused)
  have small : totalLength (kernel.pciMapSg (bufferScatterlist kernel mem size)).dma < 2 ^ 64 := by
    rw [← expand_all_length, bytes, busTranslation, translateRange, List.length_map,
      List.length_range']
    exact size.isLt.trans (by decide)
  obtain ⟨entries, copied, same⟩ := @sgget_bytes after
    ⟨handleId, merged, requestedNents size⟩ _ found room small
  refine ⟨⟨mem, size, handleId, entries⟩, ?_, same.trans bytes⟩
  simp only [UserMemory.construct, mapped, ioctlUmemSgget, readList, vmallocSg, readEntries, copied,
    writeEntries, writeList]
  rfl

/-- Every page is backed by the page of its number, and mapped for itself. -/
def plainKernel : Kernel where
  getUserPages vma count := (List.range count.toNat).map fun index => vma.toNat / pageSize + index
  pciMapSg sg := ⟨busSegments (fun index => BitVec.ofNat 64 (0x100000 + index * 8192)) 0 sg,
    fun index => BitVec.ofNat 64 (0x100000 + index * 8192)⟩

def sgmapGranted : SgmapOutcome := ⟨true, true, true, true, true, true⟩

def sggetGranted : SggetOutcome := ⟨true, true, true, true, true⟩

def noMappings : Privdata := ⟨[], 0#32⟩

theorem plain_keeps (sg : List ScatterEntry) : (plainKernel.pciMapSg sg).Keeps sg :=
  ⟨(bus_segments_length _ _ _).le, rfl⟩

theorem user_memory_exact_two_pages : ∃ object,
    UserMemory.construct plainKernel sgmapGranted ⟨true, true, true, true, true⟩ noMappings
      0x7ff0#64 32#32 true =
      ((ioctlUmemSgmap plainKernel sgmapGranted noMappings 0x7ff0#64 32#64).1, .ok object) ∧
    expandAll (segmentsOf object.sg) = busTranslation plainKernel 0x7ff0#64 32#32 :=
  ((user_memory_exact plainKernel id (fun _ _ => List.prefix_rfl) plain_keeps noMappings
    0x7ff0#64 32#32 true (by decide)).2 sgmapGranted ⟨true, true, true, true, true⟩ _ 0#32 rfl).2
    nofun ⟨rfl, rfl, rfl, rfl, rfl⟩

/-- `SGMAP` succeeds, and there is no memory for `SGGET`'s copy of the list: the
constructor fails. Where the id is that of an older mapping, the object describes that
one. -/
theorem construct_can_fail :
    (∃ after, ioctlUmemSgmap plainKernel sgmapGranted noMappings 0x7ff0#64 32#64 =
        (after, .ok 0#32) ∧
      (UserMemory.construct plainKernel sgmapGranted ⟨true, false, true, true, true⟩ noMappings
        0x7ff0#64 32#32 true).2 = .error .sgmapFailed) ∧
    ∃ privdata after object,
      UserMemory.construct plainKernel sgmapGranted ⟨true, true, true, true, true⟩ privdata
        0x7ff0#64 32#32 true = (after, .ok object) ∧
      expandAll (segmentsOf object.sg) ≠ busTranslation plainKernel 0x7ff0#64 32#32 := by
  refine ⟨⟨_, rfl, rfl⟩, ⟨[⟨0#32, [5], [⟨0x5000#64, 1⟩], by simp⟩], 0#32⟩, _,
    ⟨0x7ff0#64, 32#32, 0#32, [⟨0x5000#64, 1#64⟩]⟩, rfl, fun same => ?_⟩
  have lengths := congrArg List.length same
  rw [busTranslation, translateRange, List.length_map, List.length_range', expand_all_length]
    at lengths
  exact absurd lengths (by decide)

end FpgaPcie.Driver.Umem
