import FpgaPcie.Creotech.Pcie
import FpgaPcie.Lib.PageTable

/-!
# The mmap of the fpga_pcie device

`fpga_char_mmap` has the pages from the buffer on entered into the vma, as many as the
vma has. The page size is `2 ^ pageShift`.
-/

namespace FpgaPcie.Creotech

open FpgaPcie.PageTable

set_option autoImplicit false

def eagain : U32 := -11

structure VmArea where
  vmStart : U64
  vmEnd : U64
  vmPgoff : U64
  nonempty : vmStart < vmEnd

namespace VmArea

def size (vma : VmArea) : U64 := vma.vmEnd - vma.vmStart

def firstPage (pageShift : ℕ) (vma : VmArea) : ℕ := vma.vmStart.toNat / 2 ^ pageShift

def pages (pageShift : ℕ) (vma : VmArea) : ℕ := pagesFor (2 ^ pageShift) vma.size.toNat

end VmArea

/-- `remap_pfn_range` may run out of memory with a part of the pages entered. -/
inductive RemapOutcome where
  | remapped
  | failed (count : ℕ)
  deriving DecidableEq, Repr

def RemapOutcome.entered (pages : ℕ) : RemapOutcome → ℕ
  | .remapped => pages
  | .failed count => min count pages

structure CharMmapped where
  entries : Table
  ret : U32

def remapPfnRange (pageShift : ℕ) (start pfn size : U64) (outcome : RemapOutcome) : Table :=
  write (fun _ => none) (start.toNat / 2 ^ pageShift) pfn.toNat
    (outcome.entered (pagesFor (2 ^ pageShift) size.toNat))

def PcieDescr.bufferPfn (pageShift : ℕ) (descr : PcieDescr) : U64 :=
  descr.bufferHwAddr >>> pageShift

/-- `fpga_char_mmap`. Neither the length of the vma nor `vm_pgoff` is looked at. -/
def fpgaCharMmap (pageShift : ℕ) (descr : PcieDescr) (vma : VmArea) (outcome : RemapOutcome) :
    CharMmapped where
  entries := remapPfnRange pageShift vma.vmStart (descr.bufferPfn pageShift) vma.size outcome
  ret :=
    match outcome with
    | .remapped => 0#32
    | .failed _ => eagain

/-- Where the buffer of `fpga_probe` starts among the pages of the kernel's addresses. -/
def PcieDescr.bufferPage (pageShift : ℕ) (descr : PcieDescr) : ℕ :=
  descr.buffer.toNat / 2 ^ pageShift

def PcieDescr.bufferPages (pageShift : ℕ) (descr : PcieDescr) : ℕ :=
  pagesTouched (2 ^ pageShift) descr.buffer.toNat (2 * bufSize)

section Exposed

-- the page frame behind a page of the kernel's addresses; the bus may have it elsewhere
variable (pageFrame : ℕ → ℕ)

/-- The page of the vma leads to a page of the buffer, to the one that was asked for. -/
structure MapsBufferPage (pageShift : ℕ) (descr : PcieDescr) (vma : VmArea) (index frame : ℕ) :
    Prop where
  inBuffer : vma.vmPgoff.toNat + (index - vma.firstPage pageShift) < descr.bufferPages pageShift
  atOffset : frame = pageFrame (descr.bufferPage pageShift +
    (vma.vmPgoff.toNat + (index - vma.firstPage pageShift)))

/-- Whatever becomes of the remapping, pages of the buffer are mapped or nothing is. -/
def ExposesBuffer (pageShift : ℕ) (descr : PcieDescr) (vma : VmArea) : Prop := ∀ outcome,
  ((fpgaCharMmap pageShift descr vma outcome).ret ≠ 0#32 ∧
    (fpgaCharMmap pageShift descr vma outcome).entries = fun _ => none) ∨
  ∀ index frame, (fpgaCharMmap pageShift descr vma outcome).entries index = some frame →
    MapsBufferPage pageFrame pageShift descr vma index frame

/-- The vma ends with the buffer, and counting frames from the bus address on meets the pages
that were asked for. -/
def FramesMeet (pageShift : ℕ) (descr : PcieDescr) (vma : VmArea) : Prop :=
  vma.vmPgoff.toNat + vma.pages pageShift ≤ descr.bufferPages pageShift ∧
    ∀ offset < vma.pages pageShift, (descr.bufferPfn pageShift).toNat + offset =
      pageFrame (descr.bufferPage pageShift + (vma.vmPgoff.toNat + offset))

def DirectMapped (pageShift : ℕ) (descr : PcieDescr) : Prop :=
  ∀ offset < descr.bufferPages pageShift,
    pageFrame (descr.bufferPage pageShift + offset) = (descr.bufferPfn pageShift).toNat + offset

instance (pageShift : ℕ) (descr : PcieDescr) : Decidable (DirectMapped pageFrame pageShift descr) :=
  Nat.decidableBallLT _ _

variable {pageFrame} {pageShift : ℕ} {descr : PcieDescr} {vma : VmArea}

theorem vma_size_positive (vma : VmArea) : 0 < vma.size.toNat := by
  have nonempty := vma.nonempty
  rw [BitVec.lt_def] at nonempty
  rw [VmArea.size, BitVec.toNat_sub_of_le (BitVec.le_def.mpr (Nat.le_of_lt nonempty))]
  exact Nat.sub_pos_of_lt nonempty

theorem entered_le (outcome : RemapOutcome) (pages : ℕ) : outcome.entered pages ≤ pages := by
  cases outcome with
  | remapped => exact Nat.le_refl _
  | failed count => exact Nat.min_le_right _ _

theorem vma_pages_positive (pageShift : ℕ) (vma : VmArea) : 0 < vma.pages pageShift := by
  have some_ := vma_size_positive vma
  exact Nat.div_pos (by omega) (Nat.two_pow_pos pageShift)

/-- A page that was entered lies in the vma, and its frame as far behind the first one. -/
theorem entered_page {outcome : RemapOutcome} {index frame : ℕ}
    (entered : (fpgaCharMmap pageShift descr vma outcome).entries index = some frame) :
    InRange (vma.firstPage pageShift) (vma.pages pageShift) index ∧
      frame = (descr.bufferPfn pageShift).toNat + (index - vma.firstPage pageShift) := by
  simp only [fpgaCharMmap, remapPfnRange, write] at entered
  split at entered
  · rename_i inside
    constructor
    · apply And.intro inside.1
      apply Nat.lt_of_lt_of_le inside.2
      exact Nat.add_le_add_left (entered_le outcome _) _
    · exact (Option.some.inj entered).symm
  · cases entered

theorem remapped_page {offset : ℕ} (inside : offset < vma.pages pageShift) :
    (fpgaCharMmap pageShift descr vma .remapped).entries (vma.firstPage pageShift + offset) =
      some ((descr.bufferPfn pageShift).toNat + offset) := by
  have inRange : InRange (vma.firstPage pageShift) (vma.pages pageShift)
      (vma.firstPage pageShift + offset) := ⟨Nat.le_add_right _ _, by omega⟩
  have written := @write_inside (fun _ => none) _ (descr.bufferPfn pageShift).toNat _ _ inRange
  rwa [Nat.add_sub_cancel_left] at written

theorem exposes_remapped (exposes : ExposesBuffer pageFrame pageShift descr vma) {offset : ℕ}
    (inside : offset < vma.pages pageShift) :
    vma.vmPgoff.toNat + offset < descr.bufferPages pageShift ∧
      (descr.bufferPfn pageShift).toNat + offset =
        pageFrame (descr.bufferPage pageShift + (vma.vmPgoff.toNat + offset)) := by
  rcases exposes .remapped with ⟨failed, _⟩ | maps
  · exact absurd rfl failed
  · obtain ⟨inBuffer, atOffset⟩ := maps _ _ (remapped_page inside)
    rw [Nat.add_sub_cancel_left] at inBuffer atOffset
    exact ⟨inBuffer, atOffset⟩

/-- Where the bus has the pages where they are, a vma must start with the buffer. -/
theorem direct_frames_meet_iff (direct : DirectMapped pageFrame pageShift descr) :
    FramesMeet pageFrame pageShift descr vma ↔
      vma.vmPgoff = 0#64 ∧ vma.pages pageShift ≤ descr.bufferPages pageShift := by
  have positive := vma_pages_positive pageShift vma
  constructor
  · intro meets
    rcases meets with ⟨within, frames⟩
    have first := frames 0 positive
    rw [direct _ (by omega)] at first
    constructor
    · apply BitVec.eq_of_toNat_eq
      show vma.vmPgoff.toNat = 0
      omega
    · omega
  · intro fits
    rcases fits with ⟨start, short⟩
    have zero : vma.vmPgoff.toNat = 0 := by rw [start]; rfl
    constructor
    · omega
    · intro offset inside
      rw [zero, Nat.zero_add, direct offset (by omega)]

end Exposed

/-- What the client of the repository asks for: the buffer and one byte more. -/
def clientVma : VmArea where
  vmStart := 0x7f0000000000#64
  vmEnd := 0x7f0000009000#64
  vmPgoff := 0#64
  nonempty := by decide

def probedDescr : PcieDescr where
  buffer := 0xffff880000200000#64
  bufferHwAddr := 0x200000#64
  evenBuffer := false
  offset := 0#64
  dmaAddr := 0#64
  dmaDone := false
  tlpSize := 32#32
  tlpCount := 128#32
  dmaCount := 1#32
  wake := false
  pattern := 0x2a2a2a2a#32

/-- The kernel has all memory from `0xffff880000000000` on, and the bus has it where it is. -/
def directFrame (page : ℕ) : ℕ := page - 0xffff880000000

/-- Only a vma within the buffer is harmless, and only where the frames that are counted from the
bus address on are those of the buffer. -/
theorem char_mmap_exposes_iff (pageFrame : ℕ → ℕ) (pageShift : ℕ) (descr : PcieDescr)
    (vma : VmArea) :
    (ExposesBuffer pageFrame pageShift descr vma ↔ FramesMeet pageFrame pageShift descr vma) ∧
      (DirectMapped pageFrame pageShift descr →
        (ExposesBuffer pageFrame pageShift descr vma ↔
          vma.vmPgoff = 0#64 ∧ vma.pages pageShift ≤ descr.bufferPages pageShift)) := by
  have positive := vma_pages_positive pageShift vma
  have meets_iff : ExposesBuffer pageFrame pageShift descr vma ↔
      FramesMeet pageFrame pageShift descr vma := by
    constructor
    · intro exposes
      constructor
      · have last := (exposes_remapped exposes (Nat.sub_one_lt_of_lt positive)).1
        omega
      · intro offset inside
        exact (exposes_remapped exposes inside).2
    · intro meets
      rcases meets with ⟨within, frames⟩
      intro outcome
      apply Or.inr
      intro index frame entered
      rcases entered_page entered with ⟨inside, behind⟩
      have low := inside.1
      have high := inside.2
      constructor
      · omega
      · rw [behind]
        apply frames
        omega
  constructor
  · exact meets_iff
  · intro direct
    rw [meets_iff, direct_frames_meet_iff direct]

theorem char_mmap_exposes_iff_whole :
    ExposesBuffer directFrame 12 probedDescr
      ⟨0x7f0000000000#64, 0x7f0000008000#64, 0#64, by decide⟩ :=
  ((char_mmap_exposes_iff directFrame 12 probedDescr _).2 (by decide)).mpr ⟨rfl, by decide⟩

theorem client_maps_past_buffer :
    (fpgaCharMmap 12 probedDescr clientVma .remapped).entries 0x7f0000008 = some 0x208 ∧
      DirectMapped directFrame 12 probedDescr ∧
      (∀ offset < probedDescr.bufferPages 12,
        directFrame (probedDescr.bufferPage 12 + offset) ≠ 0x208) ∧
      ¬ExposesBuffer directFrame 12 probedDescr clientVma := by
  have ninth := @remapped_page 12 probedDescr clientVma 8 (by decide)
  refine ⟨ninth, by decide, by decide, ?_⟩
  intro exposes
  have inside := (exposes_remapped exposes (by decide : 8 < clientVma.pages 12)).1
  exact absurd inside (by decide)

end FpgaPcie.Creotech
