import FpgaPcie.Driver.UserMemoryExact
import FpgaPcie.Mprace.SendExact
import Mathlib.Algebra.Order.BigOperators.Group.List
import Mathlib.Algebra.Order.Group.Nat

/-!
# Descriptor lists of mapped user memory

The constructor of a `DMABuffer` maps the user's memory and fills the descriptor list from the
entries it is given. Whenever the mapping succeeds under an id that is not in use, the entries
cover the buffer, and the bus addresses of the list are those of the buffer's bytes.
-/

namespace FpgaPcie.Mprace

open FpgaPcie.Segments FpgaPcie.Driver FpgaPcie.Driver.Umem

set_option autoImplicit false

structure KernelHonest (kernel : Kernel) : Prop where
  backs : ∃ backing, kernel.Backs backing
  keeps : ∀ sg, (kernel.pciMapSg sg).Keeps sg

def IdUnused (privdata : Umem.Privdata) : Prop :=
  ∀ entry ∈ privdata.umemList, entry.id ≠ privdata.umemCount

section Mapped

variable {kernel : Kernel} {sgmap : SgmapOutcome} {sgget : SggetOutcome}
  {privdata after : Umem.Privdata} {mem : U64} {size : U32} {merged : Bool} {object : UserMemory}

theorem construct_some
    (made : UserMemory.construct kernel sgmap sgget privdata mem size merged = (after, .ok object)) :
    ioctlUmemSgmap kernel sgmap privdata mem (size.setWidth 64) = (after, .ok object.handleId) ∧
      umemSgget after ⟨object.handleId, merged, requestedNents size⟩ = .ok object.sg ∧
      object.size = size := by
  unfold UserMemory.construct at made
  split at made
  · cases made
  · rename_i later handleId mapped
    split at made
    · cases made
    · rename_i entries copied
      cases made
      refine ⟨mapped, ?_, rfl⟩
      unfold ioctlUmemSgget at copied
      split at copied
      · cases copied
      split at copied
      · cases copied
      split at copied
      · cases copied
      split at copied
      · cases copied
      · rename_i got
        split at copied
        · cases copied
          exact got
        · cases copied

theorem constructed_bytes (honest : KernelHonest kernel) (unused : IdUnused privdata)
    (made : UserMemory.construct kernel sgmap sgget privdata mem size merged = (after, .ok object)) :
    0 < size.toNat ∧ expandAll (segmentsOf object.sg) = busTranslation kernel mem size := by
  obtain ⟨mapped, got, -⟩ := construct_some made
  obtain ⟨wide, pages, drawn, nonempty, added⟩ := sgmap_adds mapped
  have nonzero : size ≠ 0#32 := by
    intro zero
    rw [zero] at wide
    exact wide rfl
  obtain ⟨backing, backs⟩ := honest.backs
  have perPage := buffer_per_page backs nonzero pages
  have bytes := mapping_bytes backs honest.keeps nonzero pages
  have room : (kernel.pciMapSg (bufferScatterlist kernel mem size)).dma.length ≤
      (requestedNents size).toNat := by
    have entries := (honest.keeps (bufferScatterlist kernel mem size)).entries
    rw [perPage.touched] at entries
    exact entries.trans (requested_nents mem.toNat size (size_positive nonzero))
  have found := find_added added (by rw [drawn]; exact unused)
  have small : totalLength (kernel.pciMapSg (bufferScatterlist kernel mem size)).dma < 2 ^ 64 := by
    rw [← expand_all_length, bytes, busTranslation, Paging.translateRange, List.length_map,
      List.length_range']
    exact size.isLt.trans (by decide)
  obtain ⟨entries, copied, same⟩ := @sgget_bytes after
    ⟨object.handleId, merged, requestedNents size⟩ _ found room small
  rw [got, Except.ok.injEq] at copied
  rw [copied]
  exact ⟨size_positive nonzero, same.trans bytes⟩

theorem bus_translation_length : (busTranslation kernel mem size).length = size.toNat := by
  rw [busTranslation, Paging.translateRange, List.length_map, List.length_range']

theorem total_of_bytes {entries : List UmemSgEntry}
    (bytes : expandAll (segmentsOf entries) = busTranslation kernel mem size) :
    (entries.map fun entry => entry.size.toNat).sum = size.toNat := by
  have lengths := congrArg List.length bytes
  rw [expand_all_length, bus_translation_length, totalLength, segmentsOf, List.map_map] at lengths
  exact lengths

theorem constructed_covers (honest : KernelHonest kernel) (unused : IdUnused privdata)
    (made : UserMemory.construct kernel sgmap sgget privdata mem size merged = (after, .ok object)) :
    CoversBuffer object.sg size := by
  obtain ⟨positive, bytes⟩ := constructed_bytes honest unused made
  have total := total_of_bytes bytes
  constructor
  · intro empty
    rw [empty] at total
    exact absurd total positive.ne
  · intro entry member
    have listed : entry.size.toNat ∈ object.sg.map fun entry => entry.size.toNat :=
      List.mem_map_of_mem member
    have part := List.le_sum_of_mem listed
    rw [total] at part
    exact part.trans_lt size.isLt
  · exact total

theorem constructed_addresses (honest : KernelHonest kernel) (unused : IdUnused privdata)
    (made : UserMemory.construct kernel sgmap sgget privdata mem size merged = (after, .ok object))
    {pas : List U64} (paired : object.sg.length = pas.length) :
    busAddresses (fillEntries object.sg pas) = busTranslation kernel mem size := by
  have covers := constructed_covers honest unused made
  rw [busAddresses, fill_entries_segments object.sg pas paired covers.short]
  exact (constructed_bytes honest unused made).2

end Mapped

end FpgaPcie.Mprace
