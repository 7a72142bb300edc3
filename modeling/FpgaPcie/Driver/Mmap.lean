import FpgaPcie.Driver.KmemMapping
import FpgaPcie.Driver.Probe
import FpgaPcie.Lib.PageTable

/-!
# What an mmap remaps

`pcidriver_mmap` with its two halves for BARs and for kernel memory. Both check the size
of the vma in the same way and then have the whole object entered into the page table,
from the start of the vma on. The page size is `2 ^ pageShift`.
-/

namespace FpgaPcie.Driver

open FpgaPcie.PageTable
open FpgaPcie.Driver.Resources (Bar Bars)

set_option autoImplicit false

structure Vma where
  vmStart : U64
  vmEnd : U64
  deriving DecidableEq, Repr

namespace Vma

def size (vma : Vma) : U64 := vma.vmEnd - vma.vmStart

end Vma

structure Remap where
  vmStart : U64
  pfn : U64
  size : U64
  deriving DecidableEq, Repr

inductive MmapErrno where
  | einval
  | efault
  | eagain
  deriving DecidableEq, Repr

/-- The call made to enter pages, if the mmap got as far, and how the mmap ended. -/
structure Mmapped where
  remap : Option Remap
  result : Except MmapErrno Unit

def pageSize (pageShift : ℕ) : U64 := 1#64 <<< pageShift

/-- The size check both halves make, as it is written: what is a page or longer passes. -/
def sizeIncorrect (pageShift : ℕ) (length vmaSize : U64) : Bool :=
  vmaSize != length && (decide (length < pageSize pageShift) && vmaSize != pageSize pageShift)

/-- The end of both halves; `remapped` tells whether the pages could be entered. -/
def remapRange (call : Remap) (remapped : Bool) : Mmapped :=
  ⟨some call, if remapped then .ok () else .error .eagain⟩

/-- `pcidriver_mmap_pci`. The two kinds of regions are entered by calls that do the same. -/
def mmapPci (pageShift : ℕ) (bar : Bar) (vma : Vma) (remapped : Bool) : Mmapped :=
  if sizeIncorrect pageShift bar.length vma.size then ⟨none, .error .einval⟩
  else remapRange ⟨vma.vmStart, bar.start >>> pageShift, bar.length⟩ remapped

/-- `pcidriver_mmap_kmem`; `virtToPfn` gives the page frame behind an address of the
kernel. -/
def mmapKmem (pageShift : ℕ) (virtToPfn : U64 → U64) (kmemList : List KmemEntry) (vma : Vma)
    (remapped : Bool) : Mmapped :=
  match latestEntry kmemList with
  | none => ⟨none, .error .efault⟩
  | some entry =>
      if sizeIncorrect pageShift entry.size vma.size then ⟨none, .error .einval⟩
      else remapRange ⟨vma.vmStart, virtToPfn entry.cpua, entry.size⟩ remapped

def pcidriverMmap (pageShift : ℕ) (bars : Bars) (virtToPfn : U64 → U64) (driver : Privdata)
    (vma : Vma) (remapped : Bool) : Mmapped :=
  match driver.mmapMode with
  | .pci => mmapPci pageShift (bars driver.mmapArea) vma remapped
  | .kmem => mmapKmem pageShift virtToPfn driver.kmemList vma remapped

section Check

variable {pageShift : ℕ} {length vmaSize : U64}

theorem page_size_toNat (small : pageShift < 64) : (pageSize pageShift).toNat = 2 ^ pageShift := by
  have bound : 2 ^ pageShift < 2 ^ 64 := Nat.pow_lt_pow_right (by decide) small
  rw [pageSize, BitVec.toNat_shiftLeft, Nat.shiftLeft_eq]
  simpa using Nat.mod_eq_of_lt bound

def WholePages (pageShift : ℕ) (vmaSize : U64) : Prop :=
  ∃ pages, 0 < pages ∧ vmaSize.toNat = pages * 2 ^ pageShift

theorem size_correct_iff (small : pageShift < 64) (whole : WholePages pageShift vmaSize) :
    sizeIncorrect pageShift length vmaSize = false ↔
      (length.toNat < 2 ^ pageShift → vmaSize.toNat = 2 ^ pageShift) := by
  obtain ⟨pages, positive, size⟩ := whole
  have atLeast : 2 ^ pageShift ≤ vmaSize.toNat := by
    rw [size]
    exact Nat.le_mul_of_pos_left _ positive
  simp only [sizeIncorrect, Bool.and_eq_false_iff, bne_eq_false_iff_eq, decide_eq_false_iff_not,
    BitVec.lt_def, page_size_toNat small, ← BitVec.toNat_inj]
  omega

/-- What is longer than its vma has a page at least, and nothing with a page is refused. -/
theorem size_correct_of_short (small : pageShift < 64) (whole : WholePages pageShift vmaSize)
    (short : vmaSize.toNat < roundUp (2 ^ pageShift) length.toNat) :
    sizeIncorrect pageShift length vmaSize = false := by
  obtain ⟨pages, positive, size⟩ := id whole
  have onePage := Nat.two_pow_pos pageShift
  rw [size_correct_iff small whole]
  intro below
  have covered : length.toNat ≤ pages * 2 ^ pageShift :=
    Nat.le_trans (Nat.le_of_lt below) (Nat.le_mul_of_pos_left _ positive)
  have rounded := round_up_le onePage pages covered
  omega

theorem size_correct_of_equal (small : pageShift < 64) (whole : WholePages pageShift vmaSize)
    (positive : 0 < length.toNat)
    (same : vmaSize.toNat = roundUp (2 ^ pageShift) length.toNat) :
    sizeIncorrect pageShift length vmaSize = false := by
  rw [size_correct_iff small whole]
  intro below
  rw [same, roundUp, pages_for_one positive (Nat.le_of_lt below), Nat.one_mul]

end Check

/-- A BAR or a kernel buffer, as an mmap sees it: its bytes from `address` on, the first of
them in the page frame `pfn`. -/
structure MappedObject where
  address : U64
  pfn : U64
  size : U64
  deriving DecidableEq, Repr

namespace MappedObject

def InPages (pageShift : ℕ) (object : MappedObject) (frame : ℕ) : Prop :=
  InRange object.pfn.toNat
    (pagesTouched (2 ^ pageShift) object.address.toNat object.size.toNat) frame

def vmaSize (pageShift : ℕ) (object : MappedObject) : ℕ :=
  roundUp (2 ^ pageShift) object.size.toNat

end MappedObject

/-- What an mmap of `object` should do with a vma, whether the pages can then be entered or
not. -/
structure MapsWithin (pageShift : ℕ) (vma : Vma) (object : MappedObject)
    (mmap : Bool → Mmapped) : Prop where
  within : ∀ remapped call, (mmap remapped).remap = some call →
    call.vmStart = vma.vmStart ∧ roundUp (2 ^ pageShift) call.size.toNat ≤ vma.size.toNat
  inside : ∀ remapped call, (mmap remapped).remap = some call → ∀ frame,
    InRange call.pfn.toNat (pagesFor (2 ^ pageShift) call.size.toNat) frame →
      object.InPages pageShift frame
  accepted : vma.size.toNat = object.vmaSize pageShift → ∀ remapped,
    (mmap remapped).remap.isSome ∧ (remapped → (mmap remapped).result = .ok ())
  refused : vma.size.toNat < object.vmaSize pageShift → ∀ remapped,
    mmap remapped = ⟨none, .error .einval⟩

section Within

variable {pageShift : ℕ} {vma : Vma} {object : MappedObject} {mmap : Bool → Mmapped}

def Checks (pageShift : ℕ) (vma : Vma) (object : MappedObject) (mmap : Bool → Mmapped) : Prop :=
  ∀ remapped, mmap remapped =
    if sizeIncorrect pageShift object.size vma.size then ⟨none, .error .einval⟩
    else remapRange ⟨vma.vmStart, object.pfn, object.size⟩ remapped

theorem Checks.call (checks : Checks pageShift vma object mmap) {remapped : Bool} {call : Remap}
    (called : (mmap remapped).remap = some call) :
    call = ⟨vma.vmStart, object.pfn, object.size⟩ := by
  rw [checks] at called
  split at called
  · cases called
  · exact (Option.some.inj called).symm

theorem Checks.passed (checks : Checks pageShift vma object mmap)
    (correct : sizeIncorrect pageShift object.size vma.size = false) (remapped : Bool) :
    mmap remapped = remapRange ⟨vma.vmStart, object.pfn, object.size⟩ remapped := by
  rw [checks, correct]
  rfl

theorem Checks.maps_within_iff (checks : Checks pageShift vma object mmap)
    (small : pageShift < 64) (whole : WholePages pageShift vma.size)
    (positive : 0 < object.size.toNat) :
    MapsWithin pageShift vma object mmap ↔ object.vmaSize pageShift ≤ vma.size.toNat := by
  constructor
  · intro maps
    apply Nat.le_of_not_lt
    intro short
    have refused := maps.refused short true
    rw [checks.passed (size_correct_of_short small whole short)] at refused
    cases refused
  · intro long
    constructor
    · intro remapped call called
      rw [checks.call called]
      exact ⟨rfl, long⟩
    · intro remapped call called frame inRange
      rw [checks.call called] at inRange
      have more : pagesFor (2 ^ pageShift) object.size.toNat ≤
          pagesTouched (2 ^ pageShift) object.address.toNat object.size.toNat :=
        pages_for_mono (Nat.le_add_left _ _)
      exact ⟨inRange.1, Nat.lt_of_lt_of_le inRange.2 (Nat.add_le_add_left more _)⟩
    · intro same remapped
      rw [checks.passed (size_correct_of_equal small whole positive same)]
      constructor
      · exact rfl
      · intro same
        subst same
        rfl
    · intro short
      exact absurd long (Nat.not_le_of_lt short)

end Within

def barObject (pageShift : ℕ) (bar : Bar) : MappedObject :=
  ⟨bar.start, bar.start >>> pageShift, bar.length⟩

def kmemObject (virtToPfn : U64 → U64) (entry : KmemEntry) : MappedObject :=
  ⟨entry.cpua, virtToPfn entry.cpua, entry.size⟩

theorem mmap_pci_checks (pageShift : ℕ) (bar : Bar) (vma : Vma) :
    Checks pageShift vma (barObject pageShift bar) (mmapPci pageShift bar vma) :=
  fun _ => rfl

theorem mmap_kmem_checks {virtToPfn : U64 → U64} {kmemList : List KmemEntry} {entry : KmemEntry}
    (latest : latestEntry kmemList = some entry) (pageShift : ℕ) (vma : Vma) :
    Checks pageShift vma (kmemObject virtToPfn entry)
      (mmapKmem pageShift virtToPfn kmemList vma) := by
  intro remapped
  rw [mmapKmem, latest]
  rfl

/-- Both halves keep to the vma exactly when the object fits into it: of the objects with a
page or more none is too long for the check. -/
theorem mmap_within_iff_fits {pageShift : ℕ} (small : pageShift < 64) {vma : Vma}
    (whole : WholePages pageShift vma.size) (virtToPfn : U64 → U64) {bar : Bar}
    {kmemList : List KmemEntry} {entry : KmemEntry} (latest : latestEntry kmemList = some entry)
    (barPositive : 0 < bar.length.toNat) (entryPositive : 0 < entry.size.toNat) :
    (MapsWithin pageShift vma (barObject pageShift bar) (mmapPci pageShift bar vma) ↔
      roundUp (2 ^ pageShift) bar.length.toNat ≤ vma.size.toNat) ∧
    (MapsWithin pageShift vma (kmemObject virtToPfn entry)
        (mmapKmem pageShift virtToPfn kmemList vma) ↔
      roundUp (2 ^ pageShift) entry.size.toNat ≤ vma.size.toNat) :=
  ⟨(mmap_pci_checks pageShift bar vma).maps_within_iff small whole barPositive,
    (mmap_kmem_checks latest pageShift vma).maps_within_iff small whole entryPositive⟩

/-- One page of addresses for a BAR and a kernel buffer of three. -/
def shortVma : Vma := ⟨0x7000#64, 0x8000#64⟩

def longBar : Bar := ⟨0xe0000000#64, 0x3000#64, false⟩

def longEntry : KmemEntry := ⟨0#32, 0x20000#64, 0x20000#64, 0x3000#64⟩

theorem short_vma_whole : WholePages 12 shortVma.size := ⟨1, by decide, by decide⟩

theorem mmap_within_iff_fits_short :
    (MapsWithin 12 shortVma (barObject 12 longBar) (mmapPci 12 longBar shortVma) ↔
      roundUp (2 ^ 12) longBar.length.toNat ≤ shortVma.size.toNat) ∧
    (MapsWithin 12 shortVma (kmemObject (· >>> 12) longEntry)
        (mmapKmem 12 (· >>> 12) [longEntry] shortVma) ↔
      roundUp (2 ^ 12) longEntry.size.toNat ≤ shortVma.size.toNat) :=
  mmap_within_iff_fits (by decide) short_vma_whole (· >>> 12) rfl (by decide) (by decide)

theorem mmap_past_short_vma :
    mmapPci 12 longBar shortVma true = ⟨some ⟨0x7000#64, 0xe0000#64, 0x3000#64⟩, .ok ()⟩ ∧
    ¬MapsWithin 12 shortVma (barObject 12 longBar) (mmapPci 12 longBar shortVma) ∧
    ¬MapsWithin 12 shortVma (kmemObject (· >>> 12) longEntry)
      (mmapKmem 12 (· >>> 12) [longEntry] shortVma) := by
  refine ⟨rfl, ?_, ?_⟩
  · intro maps
    exact absurd (maps.within true _ rfl).2 (by decide)
  · intro maps
    exact absurd (maps.within true _ rfl).2 (by decide)

end FpgaPcie.Driver
