import FpgaPcie.Mprace.SendExact

/-!
# The single-descriptor path against the list path

The same kernel memory can be given to the engine as a `KERNEL` buffer, for which
one descriptor is built on the spot, or as a `KERNEL_PIECES` buffer of one piece,
which goes through `sendDescriptorList`. The two agree on whole-dword offsets only
at offset 0, because the first adds the dword offset to the bus address as bytes,
and only when polling, because the first alone asks for the done interrupt.
-/

namespace FpgaPcie.Mprace

open FpgaPcie.Segments DMADescriptorWG

set_option autoImplicit false

def kernelBuffer (kBuf : U64) (size : U32) : DMABuffer where
  memory := .kernel kBuf
  size := size
  descriptors := fillDescriptorList (.kernel kBuf) size []
  host := []
  bounce := []

def onePieceBuffer (kBuf : U64) (size : U32) (pa : U64) : DMABuffer where
  memory := .kernelPieces kBuf 1
  size := size
  descriptors := fillDescriptorList (.kernelPieces kBuf 1) size [pa]
  host := []
  bounce := []

/-- What a transfer of a buffer puts into the registers of its channel. -/
def writtenDescriptor (engine : DMAEngineWG) (buf : DMABuffer) (ch : Channel)
    (request : Request) : Option Descriptor :=
  (World.start ⟨engine, fun _ => some buf⟩ ch 0 request).map fun started =>
    started.engine.channel ch

structure PathsAgree (engine : DMAEngineWG) (kBuf : U64) (size : U32) (pa : U64) (ch : Channel)
    (request : Request) (d : Descriptor) : Prop where
  single : writtenDescriptor engine (kernelBuffer kBuf size) ch request = some d
  list : writtenDescriptor engine (onePieceBuffer kBuf size pa) ch request = some d
  named : d.segment = ⟨kBuf + 4 * request.offset.setWidth 64, 4 * request.count.toNat⟩

theorem one_piece_list (kBuf : U64) (size : U32) (pa : U64) :
    (onePieceBuffer kBuf size pa).descriptors =
      [filledDescriptor pa kBuf (size.setWidth 64) 0] := by
  simp [onePieceBuffer, fillDescriptorList, fillPieces]

theorem written_by_single (engine : DMAEngineWG) (kBuf : U64) (size : U32) (ch : Channel)
    (request : Request) : writtenDescriptor engine (kernelBuffer kBuf size) ch request =
      some (engine.kernelDescriptor kBuf request).native := by
  rw [writtenDescriptor, World.start_kernel ch request rfl kBuf rfl]
  simp [DMAEngineWG.write, DMAEngineWG.kernelDescriptor]

theorem written_by_list (engine : DMAEngineWG) (buf : DMABuffer) (ch : Channel)
    (request : Request) (listed : buf.hasList = true) :
    writtenDescriptor engine buf ch request =
      (programList (controlWord engine.oldRegisters engine.useInterrupts request) 0 buf.size
        request buf.descriptors).map fun programmed => programmed.temp.native := by
  rw [writtenDescriptor, World.start_list ch request rfl listed, Option.map_map]
  simp [Function.comp_def, DMAEngineWG.write]

theorem same_flags (v bar inc upa last : U32) :
    ((((v ||| bar) ||| inc) ||| 0) ||| upa) ||| last =
      ((last ||| bar) ||| ((upa ||| v) ||| 0)) ||| inc := by
  have zero : ∀ x : U32, x ||| 0 = x := fun x => BitVec.or_zero
  rw [zero, zero]
  ac_rfl

theorem one_piece_written (engine : DMAEngineWG) (newMap : engine.oldRegisters = false)
    (polling : engine.useInterrupts = false) (kBuf : U64) (size : U32) (pa : U64) (ch : Channel)
    (request : Request) (start : request.offset = 0)
    (range : 4 * request.count.toNat ≤ size.toNat) :
    writtenDescriptor engine (onePieceBuffer kBuf size pa) ch request =
      some (engine.kernelDescriptor kBuf request).native := by
  let d := filledDescriptor pa kBuf (size.setWidth 64) 0
  let word := controlWord engine.oldRegisters engine.useInterrupts request
  have length : d.native.length = size := by simp [d]
  have programmed : programList word 0 size request [d] =
      some (singleProgram word 0 request [] d [] 0) := by
    by_cases whole : request.offset = 0 ∧ request.count * 4 = size
    · rw [programList, if_pos whole]
      exact program_whole_single word 0 request d (by simp [d]) (by rw [whole.2, length])
    · rw [programList, if_neg whole]
      apply program_partial_single word 0 request [] [] d 0 (by simp [initPosition, start])
      have bound := size.isLt
      have four : (4 : U32).toNat = 4 := rfl
      rw [BitVec.le_def, room_toNat d 0 (by simp), length, BitVec.toNat_setWidth,
        BitVec.toNat_mul, four]
      simp
      omega
  have control : (word ||| ctrlUpa) ||| ctrlLast =
      ((ctrlLast ||| ctrlBar request.bar) ||| ((ctrlUpa ||| ctrlV) ||| 0)) |||
        (if request.inc then ctrlInc else 0) := by
    simp only [word, controlWord, newMap, polling, Bool.and_false, if_false, Bool.false_eq_true]
    exact same_flags _ _ _ _ _
  rw [written_by_list engine _ ch request rfl, one_piece_list]
  change (programList word 0 size request [d]).map _ = _
  rw [programmed]
  have base : kBuf + (0 : U32).setWidth 64 = kBuf := by simp
  simp only [Option.map_some, singleProgram, moved_by_zero, registerCopy, if_true, control,
    DMAEngineWG.kernelDescriptor, newMap, polling, start, Bool.false_eq_true, if_false, base]
  rfl

theorem list_path_no_edi (engine : DMAEngineWG) (newMap : engine.oldRegisters = false)
    (buf : DMABuffer) (ch : Channel) (request : Request) (listed : buf.hasList = true)
    {d : Descriptor} (written : writtenDescriptor engine buf ch request = some d) :
    d.control &&& ctrlEdi = 0 := by
  rw [written_by_list engine buf ch request listed, Option.map_eq_some_iff] at written
  obtain ⟨programmed, result, rfl⟩ := written
  obtain ⟨alone, control⟩ := program_list_control _ _ _ _ _ result
  rw [control]
  apply flag_or
  · apply flag_or _ _ _ _ (by decide)
    simp only [controlWord, newMap, Bool.false_and, Bool.false_eq_true, if_false]
    apply flag_or _ _ _ _ (by decide)
    apply flag_or
    · exact flag_or _ _ _ (by decide) (ctrl_bar_outside request.bar ctrlEdi (by decide))
    · cases request.inc <;> decide
  · cases alone <;> decide

theorem single_path_edi (engine : DMAEngineWG) (newMap : engine.oldRegisters = false)
    (interrupts : engine.useInterrupts = true) (kBuf : U64) (request : Request) :
    (engine.kernelDescriptor kBuf request).native.control &&& ctrlEdi = ctrlEdi := by
  have control : (engine.kernelDescriptor kBuf request).native.control =
      ((ctrlLast ||| ctrlBar request.bar) ||| ((ctrlUpa ||| ctrlV) ||| ctrlEdi)) |||
        (if request.inc then ctrlInc else 0) := by
    simp [DMAEngineWG.kernelDescriptor, newMap, interrupts, setControl32]
  have bar := ctrl_bar_outside request.bar ctrlEdi (by decide)
  have last : ctrlLast &&& ctrlEdi = 0 := by decide
  have rest : ((ctrlUpa ||| ctrlV) ||| ctrlEdi) &&& ctrlEdi = ctrlEdi := by decide
  have inc : (if request.inc then ctrlInc else 0) &&& ctrlEdi = 0 := by
    cases request.inc <;> decide
  rw [control, BitVec.and_or_distrib_right, BitVec.and_or_distrib_right,
    BitVec.and_or_distrib_right, bar, last, rest, inc]
  decide

theorem kernel_descriptor_segment (engine : DMAEngineWG) (kBuf : U64) (request : Request) :
    (engine.kernelDescriptor kBuf request).native.segment =
      ⟨kBuf + request.offset.setWidth 64, (request.count * 4).toNat⟩ := by
  have address : (engine.kernelDescriptor kBuf request).getHostAddress =
      kBuf + request.offset.setWidth 64 := by
    simp [DMAEngineWG.kernelDescriptor, setControl32]
  have length : (engine.kernelDescriptor kBuf request).native.length = request.count * 4 := by
    simp [DMAEngineWG.kernelDescriptor, setControl32]
  rw [segment_eq, address, length]

/-- The range check is exact at offset 0, where the sum cannot wrap. -/
theorem accepted_from_start (buf : DMABuffer) (request : Request) (start : request.offset = 0)
    (accepted : checkRequest buf request = none) :
    4 * request.count.toNat ≤ buf.size.toNat := by
  have bound := request.count.isLt
  have range := (accepted_range buf request accepted).2
  have zero : request.offset.toNat = 0 := by simp [start]
  rw [zero] at range
  omega

/-- The paths agree, and name the requested bytes, exactly for transfers from the
start of the buffer without interrupts. -/
theorem kernel_paths_agree_iff (engine : DMAEngineWG) (newMap : engine.oldRegisters = false)
    (kBuf : U64) (size : U32) (pa : U64) (ch : Channel) (request : Request)
    (accepted : checkRequest (kernelBuffer kBuf size) request = none) :
    (∃ d, PathsAgree engine kBuf size pa ch request d) ↔
      request.offset = 0 ∧ engine.useInterrupts = false := by
  constructor
  · intro both
    rcases both with ⟨d, agree⟩
    have single := agree.single
    rw [written_by_single, Option.some.injEq] at single
    constructor
    · have named := agree.named
      rw [← single, kernel_descriptor_segment, Segment.mk.injEq, BitVec.add_right_inj] at named
      have bound := request.offset.isLt
      have narrow : request.offset.toNat < 2 ^ 64 := by omega
      have wide : 4 * request.offset.toNat < 2 ^ 64 := by omega
      have equal := congrArg BitVec.toNat named.1
      have four : (4 : U64).toNat = 4 := rfl
      rw [BitVec.toNat_mul, BitVec.toNat_setWidth, four, Nat.mod_eq_of_lt narrow,
        Nat.mod_eq_of_lt wide] at equal
      have zero : request.offset.toNat = 0 := by omega
      exact BitVec.eq_of_toNat_eq zero
    · cases interrupts : engine.useInterrupts with
      | false => rfl
      | true =>
          have plain := list_path_no_edi engine newMap _ ch request rfl agree.list
          rw [← single, single_path_edi engine newMap interrupts] at plain
          exact absurd plain (by decide)
  · intro both
    rcases both with ⟨start, polling⟩
    have range : 4 * request.count.toNat ≤ size.toNat :=
      accepted_from_start (kernelBuffer kBuf size) request start accepted
    refine ⟨_, written_by_single engine kBuf size ch request,
      one_piece_written engine newMap polling kBuf size pa ch request start range, ?_⟩
    have four : (4 : U32).toNat = 4 := rfl
    have bound := size.isLt
    rw [kernel_descriptor_segment, start, BitVec.toNat_mul, four, Segment.mk.injEq]
    constructor
    · simp
    · omega

theorem kernel_paths_agree_iff_whole_buffer :
    (∃ d, PathsAgree (DMAEngineWG.construct false (fun _ => unset.native) 0) 0x10000#64 64 0x100#64
      0 ⟨1, 0x20, 16, 0, true⟩ d) ↔
      (0 : U32) = 0 ∧
        (DMAEngineWG.construct false (fun _ => unset.native) 0).useInterrupts = false :=
  kernel_paths_agree_iff _ rfl 0x10000#64 64 0x100#64 0 ⟨1, 0x20, 16, 0, true⟩ (by decide)

/-- Four dwords from dword 1 on: one path starts at byte 1, the other at byte 4. -/
theorem kernel_paths_differ_at_dword_one :
    checkRequest (kernelBuffer 0x10000#64 64) ⟨1, 0x20, 4, 1, true⟩ = none ∧
      ¬∃ d, PathsAgree (DMAEngineWG.construct false (fun _ => unset.native) 0) 0x10000#64 64
        0x100#64 0 ⟨1, 0x20, 4, 1, true⟩ d := by
  constructor
  · exact by decide
  · intro both
    rcases both with ⟨d, agree⟩
    have same := agree.single.trans agree.list.symm
    exact absurd same (by decide)

end FpgaPcie.Mprace
