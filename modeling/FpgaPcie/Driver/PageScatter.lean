import FpgaPcie.Driver.Umem
import FpgaPcie.Lib.Paging
import Mathlib.Tactic.Common

/-!
# The scatterlist of a user buffer

The pages counted are the pages touched, and the entries made of them cut the buffer at
the page borders. The induction is over the pages: what remains of the buffer fits the
pages that remain, and needs all of them.
-/

namespace FpgaPcie.Driver.Umem

open FpgaPcie.Segments FpgaPcie.Paging

set_option autoImplicit false

theorem page_offset (vma : U64) : (vma &&& ~~~pageMask).toNat = vma.toNat % pageSize := by
  have mask : ~~~pageMask = 4095#64 := by decide
  rw [mask, BitVec.toNat_and]
  exact Nat.and_two_pow_sub_one_eq_mod vma.toNat 12

def touchedPages (vma size : U64) : ℕ :=
  (vma.toNat % pageSize + size.toNat + (pageSize - 1)) / pageSize

/-- `nr_pages` keeps 32 bits of the count; that the sum was of 64 makes no difference. -/
theorem page_count_wraps (vma size : U64) :
    (pageCount vma size).toNat = touchedPages vma size % 2 ^ 32 := by
  have offset := page_offset vma
  have mask : (~~~pageMask).toNat = pageSize - 1 := by decide
  rw [pageCount, touchedPages, BitVec.toNat_setWidth, BitVec.toNat_ushiftRight,
    Nat.shiftRight_eq_div_pow, BitVec.toNat_add, BitVec.toNat_add, offset, mask]
  simp only [pageSize, pageShift]
  omega

theorem page_count {vma size : U64} (few : touchedPages vma size < 2 ^ 32) :
    (pageCount vma size).toNat = touchedPages vma size := by
  rw [page_count_wraps, Nat.mod_eq_of_lt few]

theorem few_pages (vma : U64) {size : U64} (small : size.toNat < 2 ^ 32) :
    touchedPages vma size < 2 ^ 32 := by
  simp only [touchedPages, pageSize]
  omega

/-- `count` bytes need all the pages and no more. -/
def Covered (pages : List Page) (count : ℕ) : Prop :=
  count ≤ pages.length * pageSize ∧ pages.length * pageSize < count + pageSize

/-- Where the bytes of the entries are on the bus; `index` is the first one's. -/
def busSegments (bus : ℕ → U64) : ℕ → List ScatterEntry → List (Segment U64)
  | _, [] => []
  | index, entry :: rest =>
      ⟨bus index + (entry.offset : U64), entry.length⟩ :: busSegments bus (index + 1) rest

theorem bus_segments_length (bus : ℕ → U64) (index : ℕ) (sg : List ScatterEntry) :
    (busSegments bus index sg).length = sg.length := by
  induction sg generalizing index with
  | nil => rfl
  | cons entry rest ih => simp [busSegments, ih]

theorem bus_segments_total (bus : ℕ → U64) (index : ℕ) (sg : List ScatterEntry) :
    totalLength (busSegments bus index sg) = (sg.map ScatterEntry.length).sum := by
  induction sg generalizing index with
  | nil => rfl
  | cons entry rest ih => simp [busSegments, ih]

theorem fill_length (count : U64) :
    (if BitVec.ofNat 64 pageSize < count then BitVec.ofNat 64 pageSize else count).toNat =
      min pageSize count.toNat := by
  have size : (BitVec.ofNat 64 pageSize).toNat = pageSize := by decide
  by_cases more : BitVec.ofNat 64 pageSize < count
  · rw [if_pos more, size]
    rw [BitVec.lt_def, size] at more
    omega
  · rw [if_neg more]
    rw [BitVec.lt_def, size] at more
    omega

theorem fill_rest (count : U64) :
    (count - if BitVec.ofNat 64 pageSize < count then BitVec.ofNat 64 pageSize else count).toNat =
      count.toNat - min pageSize count.toNat := by
  rw [BitVec.toNat_sub_of_le, fill_length]
  rw [BitVec.le_def, fill_length]
  exact Nat.min_le_right _ _

theorem Covered.rest {page : Page} {rest : List Page} {count : ℕ}
    (covered : Covered (page :: rest) count) :
    0 < count ∧ Covered rest (count - min pageSize count) := by
  obtain ⟨upper, lower⟩ := covered
  simp only [Covered, pageSize, List.length_cons] at upper lower ⊢
  omega

theorem fill_pages_pages (count : U64) (pages : List Page) :
    (fillPages count pages).map ScatterEntry.page = pages := by
  induction pages generalizing count with
  | nil => rfl
  | cons page rest ih => simp [fillPages, ih]

theorem fill_pages_sizes {pages : List Page} {count : U64} (covered : Covered pages count.toNat) :
    ∀ entry ∈ fillPages count pages,
      0 < entry.length ∧ entry.offset + entry.length ≤ pageSize := by
  induction pages generalizing count with
  | nil => intro entry member; cases member
  | cons page rest ih =>
      obtain ⟨positive, later⟩ := covered.rest
      intro entry member
      rcases List.mem_cons.mp member with rfl | member
      · rw [fill_length]
        simp only [pageSize]
        omega
      · exact ih (by rw [fill_rest]; exact later) entry member

theorem fill_pages_bytes (bus : ℕ → U64) {pages : List Page} {count : U64}
    (covered : Covered pages count.toNat) (index : ℕ) :
    expandAll (busSegments bus index (fillPages count pages)) =
      translateRange pageSize bus (index * pageSize) count.toNat := by
  induction pages generalizing count index with
  | nil =>
      have nothing : count.toNat = 0 := by
        have upper := covered.1
        simpa using upper
      rw [nothing]
      rfl
  | cons page rest ih =>
      obtain ⟨positive, later⟩ := covered.rest
      have split : count.toNat =
          min pageSize count.toNat + (count.toNat - min pageSize count.toNat) := by
        omega
      have start : translateAt pageSize bus (index * pageSize) = bus index + ((0 : ℕ) : U64) := by
        rw [translateAt, Nat.mul_mod_left, Nat.mul_div_cancel _ (by decide)]
      have front : translateRange pageSize bus (index * pageSize) (min pageSize count.toNat) =
          expand ⟨bus index + ((0 : ℕ) : U64), min pageSize count.toNat⟩ := by
        rw [translate_range_inside, start]
        rw [Nat.mul_mod_left]
        omega
      simp only [fillPages, busSegments, expand_all_cons, fill_length]
      rw [ih (by rw [fill_rest]; exact later), fill_rest]
      conv_rhs => rw [split, translate_range_append, front]
      by_cases last : count.toNat ≤ pageSize
      · have done : count.toNat - min pageSize count.toNat = 0 := by omega
        rw [done, translate_range_zero, translate_range_zero]
      · have full : min pageSize count.toNat = pageSize := by omega
        rw [full, Nat.add_mul, Nat.one_mul]

theorem first_length (vma size : U64) :
    (if BitVec.ofNat 64 pageSize - (vma &&& ~~~pageMask) < size then
      BitVec.ofNat 64 pageSize - (vma &&& ~~~pageMask) else size).toNat =
      min (pageSize - vma.toNat % pageSize) size.toNat := by
  have offset := page_offset vma
  have inside : vma.toNat % pageSize < pageSize := Nat.mod_lt _ (by decide)
  have room : (BitVec.ofNat 64 pageSize - (vma &&& ~~~pageMask)).toNat =
      pageSize - vma.toNat % pageSize := by
    rw [BitVec.toNat_sub_of_le, offset]
    · rfl
    · rw [BitVec.le_def, offset]
      exact inside.le
  by_cases more : BitVec.ofNat 64 pageSize - (vma &&& ~~~pageMask) < size
  · rw [if_pos more, room]
    rw [BitVec.lt_def, room] at more
    omega
  · rw [if_neg more]
    rw [BitVec.lt_def, room] at more
    omega

theorem first_rest (vma size : U64) :
    (size - if BitVec.ofNat 64 pageSize - (vma &&& ~~~pageMask) < size then
      BitVec.ofNat 64 pageSize - (vma &&& ~~~pageMask) else size).toNat =
      size.toNat - min (pageSize - vma.toNat % pageSize) size.toNat := by
  rw [BitVec.toNat_sub_of_le, first_length]
  rw [BitVec.le_def, first_length]
  exact Nat.min_le_right _ _

/-- One entry for each page touched, none of them empty or beyond its page, and together
the size of the buffer. -/
structure PerPage (sg : List ScatterEntry) (mem size : ℕ) (pages : List Page) : Prop where
  touched : sg.length = (mem + size - 1) / pageSize - mem / pageSize + 1
  pages : sg.map ScatterEntry.page = pages
  inside : ∀ entry ∈ sg, 0 < entry.length ∧ entry.offset + entry.length ≤ pageSize
  total : (sg.map ScatterEntry.length).sum = size

theorem pages_touched (mem size : ℕ) (positive : 0 < size) :
    (mem % pageSize + size + (pageSize - 1)) / pageSize =
      (mem + size - 1) / pageSize - mem / pageSize + 1 := by
  simp only [pageSize]
  omega

section Scatterlist

variable {vma size : U64} {pages : List Page}

theorem pages_covered (positive : 0 < size.toNat)
    (counted : pages.length = touchedPages vma size) : ∃ first rest, pages = first :: rest ∧
      Covered rest (size.toNat - min (pageSize - vma.toNat % pageSize) size.toNat) := by
  rw [touchedPages] at counted
  have inside : vma.toNat % pageSize < pageSize := Nat.mod_lt _ (by decide)
  cases pages with
  | nil =>
      simp only [List.length_nil, pageSize] at counted inside
      omega
  | cons first rest =>
      refine ⟨first, rest, rfl, ?_⟩
      simp only [List.length_cons, pageSize] at counted inside
      simp only [Covered, pageSize]
      omega

theorem scatterlist_per_page (positive : 0 < size.toNat)
    (counted : pages.length = touchedPages vma size) :
    PerPage (scatterlist vma size pages) vma.toNat size.toNat pages := by
  obtain ⟨first, rest, rfl, covered⟩ := pages_covered positive counted
  have inside : vma.toNat % pageSize < pageSize := Nat.mod_lt _ (by decide)
  have same : (scatterlist vma size (first :: rest)).map ScatterEntry.page = first :: rest := by
    simp [scatterlist, fill_pages_pages]
  have later : Covered rest (size - if BitVec.ofNat 64 pageSize - (vma &&& ~~~pageMask) < size then
      BitVec.ofNat 64 pageSize - (vma &&& ~~~pageMask) else size).toNat := by
    rw [first_rest]
    exact covered
  refine ⟨?_, same, ?_, ?_⟩
  · rw [← pages_touched vma.toNat size.toNat positive, ← touchedPages, ← counted]
    have length := congrArg List.length same
    rwa [List.length_map] at length
  · intro entry member
    rcases List.mem_cons.mp member with rfl | member
    · simp only [first_length, page_offset]
      omega
    · exact fill_pages_sizes later entry member
  · have behind := congrArg List.length (fill_pages_bytes (fun _ => 0) later 0)
    rw [expand_all_length, bus_segments_total, translateRange, List.length_map,
      List.length_range', first_rest] at behind
    simp only [scatterlist, List.map_cons, List.sum_cons, first_length, behind]
    omega

theorem scatterlist_bytes (bus : ℕ → U64) (positive : 0 < size.toNat)
    (counted : pages.length = touchedPages vma size) :
    expandAll (busSegments bus 0 (scatterlist vma size pages)) =
      translateRange pageSize bus (vma.toNat % pageSize) size.toNat := by
  obtain ⟨first, rest, rfl, covered⟩ := pages_covered positive counted
  have inside : vma.toNat % pageSize < pageSize := Nat.mod_lt _ (by decide)
  have split : size.toNat = min (pageSize - vma.toNat % pageSize) size.toNat +
      (size.toNat - min (pageSize - vma.toNat % pageSize) size.toNat) := by
    omega
  have start : translateAt pageSize bus (vma.toNat % pageSize) =
      bus 0 + ((vma.toNat % pageSize : ℕ) : U64) := by
    rw [translateAt, Nat.mod_mod, Nat.div_eq_of_lt inside]
  have front : translateRange pageSize bus (vma.toNat % pageSize)
      (min (pageSize - vma.toNat % pageSize) size.toNat) =
      expand ⟨bus 0 + ((vma.toNat % pageSize : ℕ) : U64),
        min (pageSize - vma.toNat % pageSize) size.toNat⟩ := by
    rw [translate_range_inside, start]
    rw [Nat.mod_mod]
    omega
  simp only [scatterlist, busSegments, expand_all_cons, first_length, page_offset]
  rw [fill_pages_bytes bus (by rw [first_rest]; exact covered), first_rest]
  conv_rhs => rw [split, translate_range_append, front]
  by_cases last : size.toNat ≤ pageSize - vma.toNat % pageSize
  · have done : size.toNat - min (pageSize - vma.toNat % pageSize) size.toNat = 0 := by omega
    rw [done, translate_range_zero, translate_range_zero]
  · have full : vma.toNat % pageSize + min (pageSize - vma.toNat % pageSize) size.toNat =
        (0 + 1) * pageSize := by
      omega
    rw [full]

end Scatterlist

end FpgaPcie.Driver.Umem
