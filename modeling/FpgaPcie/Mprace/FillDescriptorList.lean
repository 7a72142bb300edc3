import FpgaPcie.Mprace.EngineWG
import FpgaPcie.Mprace.DescriptorChain

/-!
# Filled lists have the shape transfers rely on

Both loops of `fillDescriptorList` write one descriptor for each linked bus
address, so the induction is over these addresses. For `KERNEL_PIECES` the running
`count` is the product of the piece number and the step, and the last piece makes
up for what the division dropped.
-/

namespace FpgaPcie.Mprace

open FpgaPcie.Segments DMADescriptorWG

set_option autoImplicit false

@[simp] theorem filled_descriptor_pa (pa hostAddress length next : U64) :
    (filledDescriptor pa hostAddress length next).pa = pa := rfl

@[simp] theorem filled_descriptor_control (pa hostAddress length next : U64) :
    (filledDescriptor pa hostAddress length next).native.control = 0 := rfl

@[simp] theorem filled_descriptor_next (pa hostAddress length next : U64) :
    (filledDescriptor pa hostAddress length next).getNextDescriptorAddress = next := by
  simp [filledDescriptor]

@[simp] theorem filled_descriptor_length (pa hostAddress length next : U64) :
    (filledDescriptor pa hostAddress length next).native.length = length.setWidth 32 := rfl

@[simp] theorem filled_descriptor_peripheral (pa hostAddress length next : U64) :
    (filledDescriptor pa hostAddress length next).getPeripheralAddress = 0 :=
  high_low_join 0

theorem filled_descriptor_segment (pa hostAddress length next : U64) :
    (filledDescriptor pa hostAddress length next).native.segment =
      ⟨hostAddress, (length.setWidth 32).toNat⟩ := by
  have address := high_low_join hostAddress
  unfold Descriptor.segment
  rw [filled_descriptor_length]
  exact congrArg (fun start => Segment.mk start (length.setWidth 32).toNat) address

/-- Putting a descriptor in front keeps a list linked when it points to the head. -/
theorem linked_cons (d : DMADescriptorWG) (rest : List DMADescriptorWG)
    (link : d.getNextDescriptorAddress = (rest.map DMADescriptorWG.pa).headD 0)
    (linked : Linked rest) : Linked (d :: rest) := by
  cases rest with
  | nil => exact link
  | cons next later => exact ⟨link, linked⟩

theorem fill_entries_pas (entries : List UmemSgEntry) (pas : List U64)
    (paired : entries.length = pas.length) :
    (fillEntries entries pas).map DMADescriptorWG.pa = pas := by
  induction entries generalizing pas with
  | nil => simp [fillEntries, List.length_eq_zero_iff.mp paired.symm]
  | cons entry entries ih =>
      cases pas with
      | nil => simp at paired
      | cons pa rest => simp [fillEntries, ih rest (by simpa using paired)]

theorem fill_pieces_pas (base : U64) (size pieces step : U32) (pas : List U64) (i count : U32) :
    (fillPieces base size pieces step pas i count).map DMADescriptorWG.pa = pas := by
  induction pas generalizing i count with
  | nil => rfl
  | cons pa rest ih => simp [fillPieces, ih]

theorem fill_entries_linked (entries : List UmemSgEntry) (pas : List U64)
    (paired : entries.length = pas.length) : Linked (fillEntries entries pas) := by
  induction entries generalizing pas with
  | nil => trivial
  | cons entry entries ih =>
      cases pas with
      | nil => simp at paired
      | cons pa rest =>
          have later : entries.length = rest.length := by simpa using paired
          apply linked_cons
          · rw [fill_entries_pas entries rest later, filled_descriptor_next]
          · exact ih rest later

theorem fill_entries_cleared (entries : List UmemSgEntry) (pas : List U64) :
    ∀ d ∈ fillEntries entries pas, d.native.control = 0 := by
  induction entries generalizing pas with
  | nil => simp [fillEntries]
  | cons entry entries ih =>
      cases pas with
      | nil => simp [fillEntries]
      | cons pa rest => simpa [fillEntries] using ih rest

/-- What the driver promises of a mapping: the entries add up to the buffer and
each is shorter than 4 GiB. -/
structure CoversBuffer (entries : List UmemSgEntry) (size : U32) : Prop where
  nonempty : entries ≠ []
  short : ∀ entry ∈ entries, entry.size.toNat < 2 ^ 32
  total : (entries.map fun entry => entry.size.toNat).sum = size.toNat

theorem fill_entries_segments (entries : List UmemSgEntry) (pas : List U64)
    (paired : entries.length = pas.length)
    (short : ∀ entry ∈ entries, entry.size.toNat < 2 ^ 32) :
    segments (fillEntries entries pas) =
      entries.map fun entry => ⟨entry.addr, entry.size.toNat⟩ := by
  induction entries generalizing pas with
  | nil => rfl
  | cons entry entries ih =>
      cases pas with
      | nil => simp at paired
      | cons pa rest =>
          have later := ih rest (by simpa using paired) fun other member =>
            short other (List.mem_cons_of_mem entry member)
          have own := short entry List.mem_cons_self
          rw [fillEntries, segments_cons, filled_descriptor_segment, later, List.map_cons,
            BitVec.toNat_setWidth, Nat.mod_eq_of_lt own]

theorem fill_entries_total (entries : List UmemSgEntry) (pas : List U64)
    (paired : entries.length = pas.length)
    (short : ∀ entry ∈ entries, entry.size.toNat < 2 ^ 32) :
    totalLength (segments (fillEntries entries pas)) =
      (entries.map fun entry => entry.size.toNat).sum := by
  rw [fill_entries_segments entries pas paired short, totalLength, List.map_map]
  rfl

theorem fill_pieces_cleared (base : U64) (size pieces step : U32) (pas : List U64)
    (i count : U32) : ∀ d ∈ fillPieces base size pieces step pas i count,
      d.native.control = 0 := by
  induction pas generalizing i count with
  | nil => simp [fillPieces]
  | cons pa rest ih => simpa [fillPieces] using ih (i + 1) (count + step)

theorem piece_is_last (pieces i : U32) (rest : List U64)
    (index : i.toNat + (rest.length + 1) = pieces.toNat) : i = pieces - 1 ↔ rest = [] := by
  have bound := pieces.isLt
  have one : (1 : U32).toNat = 1 := rfl
  have last : (pieces - 1).toNat = pieces.toNat - 1 := by
    rw [BitVec.toNat_sub_of_le (by rw [BitVec.le_def, one]; omega), one]
  rw [← BitVec.toNat_inj, last, ← List.length_eq_zero_iff]
  omega

theorem fill_pieces_linked (base : U64) (size pieces step : U32) (pas : List U64) (i count : U32)
    (index : i.toNat + pas.length = pieces.toNat) :
    Linked (fillPieces base size pieces step pas i count) := by
  induction pas generalizing i count with
  | nil => trivial
  | cons pa rest ih =>
      have bound := pieces.isLt
      have one : (1 : U32).toNat = 1 := rfl
      simp only [List.length_cons] at index
      apply linked_cons
      · rw [fill_pieces_pas, filled_descriptor_next]
        by_cases last : i = pieces - 1
        · rw [if_pos last, (piece_is_last pieces i rest index).mp last]
          rfl
        · rw [if_neg last]
      · by_cases more : rest = []
        · subst more
          trivial
        · have some_ : 0 < rest.length := List.length_pos_iff.mpr more
          apply ih
          rw [BitVec.toNat_add, one]
          omega

/-- The running count is where the next piece begins, and the last piece reaches the end. -/
theorem fill_pieces_bytes (base : U64) (size pieces step : U32) (pas : List U64) (i count : U32)
    (nonempty : pas ≠ []) (index : i.toNat + pas.length = pieces.toNat)
    (accumulated : count.toNat = i.toNat * step.toNat)
    (whole : step.toNat * pieces.toNat ≤ size.toNat) :
    expandAll (segments (fillPieces base size pieces step pas i count)) =
      expand ⟨base + ((count.toNat : ℕ) : U64), size.toNat - count.toNat⟩ := by
  induction pas generalizing i count with
  | nil => exact absurd rfl nonempty
  | cons pa rest ih =>
      have bound := pieces.isLt
      have sizeBound := size.isLt
      have one : (1 : U32).toNat = 1 := rfl
      simp only [List.length_cons] at index
      have reached : (i.toNat + 1) * step.toNat ≤ size.toNat := by
        calc (i.toNat + 1) * step.toNat ≤ pieces.toNat * step.toNat :=
              Nat.mul_le_mul_right _ (by omega)
          _ = step.toNat * pieces.toNat := Nat.mul_comm _ _
          _ ≤ size.toNat := whole
      rw [Nat.add_mul, Nat.one_mul] at reached
      have start : (i * step).setWidth 64 = ((count.toNat : ℕ) : U64) := by
        apply BitVec.eq_of_toNat_eq
        rw [BitVec.toNat_setWidth, BitVec.toNat_mul, ← accumulated, BitVec.natCast_eq_ofNat,
          BitVec.toNat_ofNat]
        omega
      rw [fillPieces, segments_cons, filled_descriptor_segment, expand_all_cons, start]
      by_cases more : rest = []
      · have last := (piece_is_last pieces i rest index).mpr more
        subst more
        have left : (size - count).toNat = size.toNat - count.toNat :=
          BitVec.toNat_sub_of_le (by rw [BitVec.le_def]; omega)
        have own : (((size - count).setWidth 64).setWidth 32 : U32).toNat =
            size.toNat - count.toNat := by
          rw [BitVec.toNat_setWidth, BitVec.toNat_setWidth, left]
          omega
        rw [if_pos last, own, fillPieces, segments_nil, expand_all_nil, List.append_nil]
      · have notLast : ¬i = pieces - 1 := fun last =>
          more ((piece_is_last pieces i rest index).mp last)
        have some_ : 0 < rest.length := List.length_pos_iff.mpr more
        have nextIndex : (i + 1).toNat = i.toNat + 1 := by
          rw [BitVec.toNat_add, one]
          omega
        have nextCount : (count + step).toNat = count.toNat + step.toNat := by
          rw [BitVec.toNat_add]
          omega
        have later := ih (i + 1) (count + step) more (by omega)
          (by rw [nextIndex, nextCount, Nat.add_mul, Nat.one_mul, accumulated])
        have split : size.toNat - count.toNat =
            step.toNat + (size.toNat - (count.toNat + step.toNat)) := by omega
        have own : ((step.setWidth 64).setWidth 32 : U32).toNat = step.toNat := by
          rw [BitVec.toNat_setWidth, BitVec.toNat_setWidth]
          omega
        rw [if_neg notLast, own, later, nextCount, split, expand_split, Nat.cast_add, add_assoc]

theorem fill_pieces_total (base : U64) (size pieces step : U32) (pas : List U64) (i count : U32)
    (nonempty : pas ≠ []) (index : i.toNat + pas.length = pieces.toNat)
    (accumulated : count.toNat = i.toNat * step.toNat)
    (whole : step.toNat * pieces.toNat ≤ size.toNat) :
    totalLength (segments (fillPieces base size pieces step pas i count)) + count.toNat =
      size.toNat := by
  have bytes := congrArg List.length (fill_pieces_bytes base size pieces step pas i count nonempty
    index accumulated whole)
  rw [expand_all_length, expand_length] at bytes
  simp only at bytes
  have reached : count.toNat ≤ size.toNat := by
    calc count.toNat = i.toNat * step.toNat := accumulated
      _ ≤ pieces.toNat * step.toNat := Nat.mul_le_mul_right _ (by omega)
      _ = step.toNat * pieces.toNat := Nat.mul_comm _ _
      _ ≤ size.toNat := whole
  omega

def Fillable (memory : Memory) (size : U32) : Prop :=
  match memory with
  | .kernel _ => False
  | .kernelPieces _ pieces => 0 < pieces.toNat
  | .user entries => CoversBuffer entries size

def descriptorCount (memory : Memory) : ℕ :=
  match memory with
  | .kernel _ => 0
  | .kernelPieces _ pieces => pieces.toNat
  | .user entries => entries.length

theorem fill_descriptor_list_pas (memory : Memory) (size : U32) (pas : List U64)
    (linked : pas.length = descriptorCount memory) :
    (fillDescriptorList memory size pas).map DMADescriptorWG.pa = pas := by
  cases memory with
  | kernel base => simp [fillDescriptorList, List.length_eq_zero_iff.mp linked]
  | kernelPieces base pieces => exact fill_pieces_pas _ _ _ _ _ _ _
  | user entries => exact fill_entries_pas entries pas linked.symm

theorem fill_descriptor_list_filled (memory : Memory) (size : U32) (pas : List U64)
    (fillable : Fillable memory size) (linked : pas.length = descriptorCount memory) :
    AsFilled (fillDescriptorList memory size pas) size := by
  have addresses := fill_descriptor_list_pas memory size pas linked
  cases memory with
  | kernel base => exact fillable.elim
  | kernelPieces base pieces =>
      have positive : 0 < pieces.toNat := fillable
      have count : pas.length = pieces.toNat := linked
      have some_ : pas ≠ [] := List.length_pos_iff.mp (by omega)
      have zero : (0 : U32).toNat = 0 := rfl
      have step : (size / pieces).toNat * pieces.toNat ≤ size.toNat := by
        rw [BitVec.toNat_udiv]
        exact Nat.div_mul_le_self _ _
      exact {
        nonempty := by
          intro empty
          rw [empty] at addresses
          exact some_ addresses.symm
        cleared := fill_pieces_cleared _ _ _ _ _ _ _
        linked := fill_pieces_linked _ _ _ _ _ _ _ (by rw [zero, count, Nat.zero_add])
        covers := by
          have total := fill_pieces_total base size pieces (size / pieces) pas 0 0 some_
            (by rw [zero, count, Nat.zero_add]) (by simp) step
          simpa [fillDescriptorList] using total }
  | user entries =>
      have covers : CoversBuffer entries size := fillable
      have some_ : pas ≠ [] := by
        intro same
        subst same
        exact covers.nonempty (List.length_eq_zero_iff.mp linked.symm)
      exact {
        nonempty := by
          intro empty
          rw [empty] at addresses
          exact some_ addresses.symm
        cleared := fill_entries_cleared _ _
        linked := fill_entries_linked entries pas linked.symm
        covers := by
          rw [fillDescriptorList, fill_entries_total entries pas linked.symm covers.short,
            covers.total] }

end FpgaPcie.Mprace
