import FpgaPcie.Mprace.BounceFrame
import FpgaPcie.Mprace.CopyMachine

/-!
# Runs of blocking transfers are copies

Between blocking calls no record is pending and every list is as it was filled, so its bus
addresses are the true ones of the buffer's bytes. One transfer then moves the requested stretch in
order, to the board's address of the request, and the wait puts the list back. The induction over
runs is the one of `Refinement`.
-/

namespace FpgaPcie.Mprace

open FpgaPcie.Segments FpgaPcie.Scatter FpgaPcie.Transition FpgaPcie.Refinement DMADescriptorWG
open FpgaPcie.Driver FpgaPcie.Driver.Umem

set_option autoImplicit false

theorem bar_bits (bar : U32) : (ctrlBar bar >>> 16) &&& 7#32 = bar &&& 7#32 := by
  have kept : ctrlBar bar >>> 16 = bar &&& 7#32 := by
    have small : (bar &&& 7#32).toNat < 8 := by
      rw [BitVec.toNat_and]
      exact Nat.and_lt_two_pow _ (show (7#32).toNat < 2 ^ 3 by decide)
    apply BitVec.eq_of_toNat_eq
    rw [ctrlBar, BitVec.toNat_ushiftRight, BitVec.toNat_shiftLeft, Nat.shiftLeft_eq,
      Nat.shiftRight_eq_div_pow, Nat.mod_eq_of_lt (by omega), Nat.mul_div_cancel _ (by decide)]
  rw [kept, BitVec.and_assoc, BitVec.and_self]

structure Aims (control : U32) (request : Request) : Prop where
  bar : (control >>> 16) &&& 7#32 = request.bar &&& 7#32
  inc : control &&& ctrlInc = if request.inc then ctrlInc else 0

def Neutral (flags : U32) : Prop := (flags >>> 16) &&& 7#32 = 0 ∧ flags &&& ctrlInc = 0

instance (flags : U32) : Decidable (Neutral flags) := instDecidableAnd

theorem Aims.or_neutral {control flags : U32} {request : Request} (aims : Aims control request)
    (neutral : Neutral flags) : Aims (control ||| flags) request := by
  constructor
  · rw [BitVec.ushiftRight_or_distrib, BitVec.and_or_distrib_right, neutral.1, aims.bar]
    exact BitVec.or_zero
  · rw [BitVec.and_or_distrib_right, neutral.2, aims.inc]
    exact BitVec.or_zero

theorem aims_of_bar_inc (request : Request) :
    Aims (ctrlBar request.bar ||| (if request.inc then ctrlInc else 0)) request := by
  have barOnly : ctrlBar request.bar &&& ctrlInc = 0 :=
    ctrl_bar_outside request.bar ctrlInc (by decide)
  constructor
  · have incOnly : ((if request.inc then ctrlInc else 0 : U32) >>> 16) &&& 7#32 = 0 := by
      cases request.inc <;> decide
    rw [BitVec.ushiftRight_or_distrib, BitVec.and_or_distrib_right, incOnly, bar_bits]
    exact BitVec.or_zero
  · rw [BitVec.and_or_distrib_right, barOnly]
    cases request.inc <;> decide

/-- The flags a control word is put together from, in another order. -/
theorem flags_regrouped (first bar inc rest : U32) :
    (((first ||| bar) ||| inc) ||| rest) = ((bar ||| inc) ||| first) ||| rest ∧
      (((first ||| bar) ||| rest) ||| inc) = ((bar ||| inc) ||| first) ||| rest := by
  constructor <;> ac_rfl

theorem control_word_aims (oldRegisters useInterrupts : Bool) (request : Request) :
    Aims (controlWord oldRegisters useInterrupts request) request := by
  rw [controlWord, (flags_regrouped _ _ _ _).1]
  apply ((aims_of_bar_inc request).or_neutral (by decide)).or_neutral
  cases oldRegisters && useInterrupts <;> decide

theorem kernel_control_aims (oldRegisters useInterrupts : Bool) (request : Request) :
    Aims (((ctrlLast ||| ctrlBar request.bar) |||
      (if oldRegisters then 0 else (ctrlUpa ||| ctrlV) ||| (if useInterrupts then ctrlEdi else 0))) |||
        (if request.inc then ctrlInc else 0)) request := by
  rw [(flags_regrouped _ _ _ _).2]
  apply ((aims_of_bar_inc request).or_neutral (by decide)).or_neutral
  cases oldRegisters <;> cases useInterrupts <;> decide

theorem place_of_aims {d : DMADescriptorWG} {request : Request}
    (aims : Aims d.native.control request)
    (address : d.getPeripheralAddress = (request.addr * 4).setWidth 64) :
    d.native.place = request.place := by
  have inc : (d.native.control &&& ctrlInc != 0) = request.inc := by
    rw [aims.inc]
    cases request.inc <;> decide
  rw [Descriptor.place, Request.place, aims.bar, inc]
  exact congrArg (fun address => BoardPlace.mk (request.bar &&& 7#32) address request.inc) address

theorem programmed_place {oldRegisters useInterrupts : Bool} {b : BufId} {size : U32}
    {request : Request} {list : List DMADescriptorWG} {programmed : Programmed}
    (result : programList (controlWord oldRegisters useInterrupts request) b size request list =
      some programmed) : programmed.temp.native.place = request.place := by
  obtain ⟨alone, d, copied⟩ := program_list_temp _ b size request list result
  rw [copied]
  apply place_of_aims
  · have control : (registerCopy (controlWord oldRegisters useInterrupts request) request.addr alone
        d).native.control = (controlWord oldRegisters useInterrupts request ||| ctrlUpa) |||
          (if alone then ctrlLast else 0) := by simp [registerCopy, setControl32]
    rw [control]
    apply ((control_word_aims oldRegisters useInterrupts request).or_neutral (by decide)).or_neutral
    cases alone <;> decide
  · exact high_low_join _

theorem kernel_place (engine : DMAEngineWG) (kBuf : U64) (request : Request) :
    (engine.kernelDescriptor kBuf request).native.place = request.place := by
  apply place_of_aims
  · have same := kernel_control_aims engine.oldRegisters engine.useInterrupts request
    simpa [DMAEngineWG.kernelDescriptor, setControl32] using same
  · simp only [DMAEngineWG.kernelDescriptor, setControl32]
    exact high_low_join _

/-- A buffer whose list is as it was filled and names the bytes where they are. -/
structure InPlace (buf : DMABuffer) (placed : List U64) : Prop where
  distinct : placed.Nodup
  size : placed.length = buf.size.toNat
  host : buf.host.length = buf.size.toNat
  device : buf.deviceBytes.length = buf.size.toNat
  filled : buf.hasList = true → AsFilled buf.descriptors buf.size
  chained : (buf.descriptors.map DMADescriptorWG.pa).Nodup
  named : buf.hasList = true → busAddresses buf.descriptors = placed
  kernel : ∀ kBuf, buf.memory = .kernel kBuf → placed = expand ⟨kBuf, buf.size.toNat⟩

structure Machine.Rested {Board : Type} (machine : Machine Board) : Prop where
  settled : ∀ ch, machine.world.engine.saved ch = false
  buffers : ∀ b buf, machine.world.bufs b = some buf → InPlace buf (machine.placed b)

/-- What a call may ask for: the sum in the range check does not wrap, a `KERNEL` transfer starts
with the buffer, and the driver does not refuse to wait. -/
structure Careful {Time : Type} (buf : DMABuffer) (request : Request) (env : Environment Time) :
    Prop where
  exact_sum : request.offset.toNat + request.count.toNat < 2 ^ 32
  start : buf.hasList = false → request.offset = 0
  waits : env.waitiFails = none

/-- A whole read does not bring the bounce copy up to date first, which shows where a buffer does
not end with a dword. -/
def TailSafe (buf : DMABuffer) (request : Request) : Prop :=
  0 < request.offset.toNat ∨ request.count.toNat < buf.size.toNat / 4 ∨ buf.size.toNat % 4 = 0

def CopyCall.Sound {Board Time : Type} (machine : Machine Board) : CopyCall Time → Prop
  | .create _ source size pas host bounce => source.Honest ∧ (source.placed size).Nodup ∧
      pas.Nodup ∧ host.length = size.toNat ∧ bounce.length = size.toNat
  | .destroy _ => True
  | .poke b position bytes => ∀ buf, machine.world.bufs b = some buf →
      position + bytes.length ≤ buf.size.toNat
  | .write b request _ _ env _ => ∀ buf, machine.world.bufs b = some buf →
      Careful buf request env
  | .read b request _ _ env _ => ∀ buf, machine.world.bufs b = some buf →
      Careful buf request env ∧ TailSafe buf request

theorem check_refuses_iff {buf : DMABuffer} {request : Request}
    (exact_sum : request.offset.toNat + request.count.toNat < 2 ^ 32) :
    checkRequest buf request ≠ none ↔ RefusedRequest buf.size.toNat request := by
  have sizeBound := buf.size.isLt
  have four : (4 : U64).toNat = 4 := rfl
  have sum : ((request.offset + request.count).setWidth 64 * 4).toNat =
      4 * (request.offset.toNat + request.count.toNat) := by
    rw [BitVec.toNat_mul, BitVec.toNat_setWidth, BitVec.toNat_add, Nat.mod_eq_of_lt exact_sum, four]
    omega
  have wide : (buf.size.setWidth 64).toNat = buf.size.toNat := by
    rw [BitVec.toNat_setWidth]
    omega
  have zero : request.count = 0 ↔ request.count.toNat = 0 := by
    rw [← BitVec.toNat_inj]
    rfl
  have beyond : buf.size.setWidth 64 < (request.offset + request.count).setWidth 64 * 4 ↔
      buf.size.toNat < 4 * (request.offset.toNat + request.count.toNat) := by
    rw [BitVec.lt_def, sum, wide]
  unfold checkRequest RefusedRequest
  by_cases empty : request.count = 0
  · simp [empty]
  · by_cases far : buf.size.setWidth 64 < (request.offset + request.count).setWidth 64 * 4
    · rw [if_neg empty, if_pos far]
      simp [beyond.mp far]
    · rw [if_neg empty, if_neg far]
      simp [zero.not.mp empty, Nat.not_lt.mp (beyond.not.mp far)]

/-- The list is `list` again once the channel's record has been used. -/
structure Undoable (world : World) (ch : Channel) (b : BufId) (list : List DMADescriptorWG) :
    Prop where
  others : ∀ other, other ≠ ch → world.engine.saved other = false
  own : (world.engine.saved ch = false ∧ ∀ buf, world.bufs b = some buf → buf.descriptors = list) ∨
    (world.engine.saved ch = true ∧ (world.engine.savedData ch).savedBuf = b ∧
      ∀ buf, world.bufs b = some buf →
        restoreList (world.engine.savedData ch) buf.descriptors = some list)

theorem Undoable.map_buf {world : World} {ch : Channel} {b : BufId} {list : List DMADescriptorWG}
    (undoable : Undoable world ch b list) (edit : DMABuffer → DMABuffer)
    (same : ∀ buf, (edit buf).descriptors = buf.descriptors) :
    Undoable (world.mapBuf b edit) ch b list := by
  have source : ∀ buf, (world.mapBuf b edit).bufs b = some buf →
      ∃ old, world.bufs b = some old ∧ buf.descriptors = old.descriptors := by
    intro buf live
    simp only [World.mapBuf, Function.update_self, Option.map_eq_some_iff] at live
    obtain ⟨old, liveOld, rfl⟩ := live
    exact ⟨old, liveOld, same old⟩
  refine ⟨undoable.others, undoable.own.imp ?_ ?_⟩
  · intro clear
    refine ⟨clear.1, fun buf live => ?_⟩
    obtain ⟨old, liveOld, kept⟩ := source buf live
    rw [kept, clear.2 old liveOld]
  · intro record
    refine ⟨record.1, record.2.1, fun buf live => ?_⟩
    obtain ⟨old, liveOld, kept⟩ := source buf live
    rw [kept]
    exact record.2.2 old liveOld

theorem Undoable.restored {world restored : World} {ch : Channel} {b : BufId}
    {list : List DMADescriptorWG} {buf : DMABuffer} (undoable : Undoable world ch b list)
    (live : world.bufs b = some buf) (result : world.restoreIfSaved ch = some restored) :
    (∀ other, restored.engine.saved other = false) ∧
      restored.bufs = Function.update world.bufs b (some { buf with descriptors := list }) := by
  rcases undoable.own with ⟨clear, same⟩ | ⟨flag, named, undone⟩
  · have kept : restored = world := by
      simpa [World.restoreIfSaved, clear, eq_comm] using result
    subst kept
    constructor
    · intro other
      by_cases own : other = ch
      · rw [own, clear]
      · exact undoable.others other own
    · have whole : { buf with descriptors := list } = buf := by
        rw [← same buf live]
      rw [whole, ← live, Function.update_eq_self]
  · rcases World.restore_cases result with ⟨clear, -⟩ | ⟨-, found, target, liveFound, exactly, rfl⟩
    · rw [flag] at clear
      cases clear
    · rw [named] at liveFound ⊢
      rw [live, Option.some.injEq] at liveFound
      subst liveFound
      rw [undone buf live, Option.some.injEq] at exactly
      subst exactly
      constructor
      · intro other
        simp only [DMAEngineWG.setSaved]
        by_cases own : other = ch
        · rw [own, Function.update_self]
        · rw [Function.update_of_ne own]
          exact undoable.others other own
      · rfl

/-- A transfer that has been started: the engine is sent to the place of the request along the
requested bytes, and only the list of the buffer has been touched. -/
structure Begun (world started : World) (ch : Channel) (b : BufId) (buf : DMABuffer)
    (request : Request) (placed : List U64) : Prop where
  bufs : ∃ list, started.bufs = Function.update world.bufs b
    (some { buf.syncedFor ch request with descriptors := list })
  place : (started.engine.channel ch).place = request.place
  chain : started.chainOf ch b = some ((placed.drop (4 * request.offset.toNat)).take
    (4 * request.count.toNat))
  undoable : Undoable started ch b buf.descriptors

section Starting

variable {world : World} {ch : Channel} {b : BufId} {buf : DMABuffer} {request : Request}
  {placed : List U64}

theorem kernel_has_last (engine : DMAEngineWG) (kBuf : U64) :
    hasLast (engine.kernelDescriptor kBuf request).native.control = true := by
  have regroup : ∀ last bar flags inc : U32,
      ((last ||| bar) ||| flags) ||| inc = ((bar ||| flags) ||| inc) ||| last := by
    intro last bar flags inc
    ac_rfl
  simp only [DMAEngineWG.kernelDescriptor, control_set_control32]
  rw [regroup]
  exact has_last_marked _

theorem begun_kernel (settled : ∀ ch, world.engine.saved ch = false)
    (live : world.bufs b = some buf) (inPlace : InPlace buf placed) {kBuf : U64}
    (kernel : buf.memory = .kernel kBuf) (start : request.offset = 0)
    (inside : 4 * (request.offset.toNat + request.count.toNat) ≤ buf.size.toNat) :
    ∃ started, world.start ch b request = some started ∧
      Begun world started ch b buf request placed := by
  have zero : request.offset.toNat = 0 := by simp [start]
  have sizeBound := buf.size.isLt
  have four : (4 : U32).toNat = 4 := rfl
  have count : (request.count * 4).toNat = 4 * request.count.toNat := by
    rw [BitVec.toNat_mul, four]
    omega
  refine ⟨_, World.start_kernel ch request live kBuf kernel, ?_⟩
  constructor
  · exact ⟨buf.descriptors, by rw [← DMABuffer.synced_descriptors buf ch request]⟩
  · simp only [DMAEngineWG.write, Function.update_self]
    exact kernel_place _ kBuf request
  · have segment := kernel_descriptor_segment (world.engine.prepare ch) kBuf request
    have base : kBuf + (0 : U32).setWidth 64 = kBuf := by simp
    have fits : 4 * request.count.toNat ≤ buf.size.toNat := by omega
    have whole := expand_take ⟨kBuf, buf.size.toNat⟩ (4 * request.count.toNat) fits
    simp only [World.chainOf, Function.update_self, Option.bind_some, DMAEngineWG.write, walkChain,
      kernel_has_last, if_true, Option.map_some, segment, start, base, count, expand_all_cons,
      expand_all_nil, List.append_nil, inPlace.kernel kBuf kernel]
    rw [← whole]
    rfl
  · constructor
    · intro other differ
      simp only [write_saved, DMAEngineWG.setSaved, Function.update_of_ne differ, prepare_saved]
      exact settled other
    · left
      constructor
      · simp [DMAEngineWG.setSaved]
      · intro found liveFound
        simp only [Function.update_self, Option.some.injEq] at liveFound
        rw [← liveFound, DMABuffer.synced_descriptors]

theorem begun_list (settled : ∀ ch, world.engine.saved ch = false)
    (live : world.bufs b = some buf) (inPlace : InPlace buf placed) (listed : buf.hasList = true)
    (inside : 4 * (request.offset.toNat + request.count.toNat) ≤ buf.size.toNat) :
    ∃ started, world.start ch b request = some started ∧
      Begun world started ch b buf request placed := by
  obtain ⟨offset, count⟩ := exact_range request buf.size inside
  have filled := inPlace.filled listed
  have range : byteOffset request + byteCount request ≤ buf.size.toNat := by
    rw [offset, count]
    omega
  let word := controlWord world.engine.oldRegisters world.engine.useInterrupts request
  obtain ⟨programmed, visited, result, walk, bytes⟩ := program_list_exact word b buf.size request
    buf.descriptors filled inPlace.chained (control_word_plain _ _ _) range
  obtain ⟨same, data, sameResult, -, saved, named, -, undone⟩ := program_clean_undone word b request
    filled range
  rw [result, Option.some.injEq] at sameResult
  subst sameResult
  have lengths := program_list_length _ _ _ _ _ result
  refine ⟨world.afterList ch b buf request programmed, ?_, ?_⟩
  · rw [World.start_list ch request live listed, result]
    rfl
  · constructor
    · exact ⟨programmed.list, rfl⟩
    · simp only [World.afterList, DMAEngineWG.write, Function.update_self]
      exact programmed_place result
    · simp only [World.chainOf, World.afterList, Function.update_self, Option.bind_some,
        DMAEngineWG.write]
      rw [walk _ (by omega), Option.map_some, bytes, inPlace.named listed, offset, count]
    · constructor
      · intro other differ
        simp only [World.afterList, write_saved, saved, DMAEngineWG.recordIfSaved,
          DMAEngineWG.recordSaved, Function.update_of_ne differ, prepare_saved]
        exact settled other
      · right
        simp only [World.afterList, write_saved, write_saved_data, saved,
          DMAEngineWG.recordIfSaved, DMAEngineWG.recordSaved, Function.update_self]
        refine ⟨trivial, named, fun found liveFound => ?_⟩
        cases liveFound
        exact undone

theorem begun (settled : ∀ ch, world.engine.saved ch = false)
    (live : world.bufs b = some buf) (inPlace : InPlace buf placed)
    (start : buf.hasList = false → request.offset = 0)
    (inside : 4 * (request.offset.toNat + request.count.toNat) ≤ buf.size.toNat) :
    ∃ started, world.start ch b request = some started ∧
      Begun world started ch b buf request placed := by
  cases kind : buf.memory with
  | kernel kBuf =>
      exact begun_kernel settled live inPlace kind (start (by simp [DMABuffer.hasList, kind])) inside
  | kernelPieces kBuf pieces =>
      exact begun_list settled live inPlace (by simp [DMABuffer.hasList, kind]) inside
  | user entries =>
      exact begun_list settled live inPlace (by simp [DMABuffer.hasList, kind]) inside

end Starting

theorem Undoable.woken {world : World} {ch : Channel} {b : BufId} {list : List DMADescriptorWG}
    (undoable : Undoable world ch b list) (inte : U32) :
    Undoable ⟨{ world.engine with inte := inte }, world.bufs⟩ ch b list :=
  ⟨undoable.others, undoable.own⟩

section Waiting

variable {Time : Type} [Zero Time] [LT Time] [DecidableLT Time]

theorem wait_restores {world : World} {ch : Channel} {timeout : Time} {env : Environment Time}
    {fuel : ℕ} {waited : Waited} (waits : env.waitiFails = none)
    (result : waitChannel world ch timeout env fuel = some waited) :
    ∃ inte, World.restoreIfSaved ⟨{ world.engine with inte := inte }, world.bufs⟩ ch =
      some waited.world := by
  cases mode : world.engine.useInterrupts with
  | false =>
      rw [wait_polling_eq world ch timeout env mode] at result
      split at result
      · cases result
      · exact ⟨world.engine.inte, (finish_ends world ch _ _ result).2.2⟩
  | true =>
      by_cases waiting : Waiting (getStatus (env.register 0))
      · simp only [waitChannel, mode, if_true, if_pos waiting, waits] at result
        split at result
        · cases result
        · rw [finish_interrupt_eq] at result
          exact ⟨_, (finish_ends _ ch _ _ result).2.2⟩
      · simp only [waitChannel, mode, if_true, if_neg waiting, finish_interrupt_eq] at result
        exact ⟨world.engine.inte, (finish_ends world ch _ _ result).2.2⟩

theorem Undoable.waited {world : World} {ch : Channel} {b : BufId} {list : List DMADescriptorWG}
    {buf : DMABuffer} {timeout : Time} {env : Environment Time} {fuel : ℕ} {waited : Waited}
    (undoable : Undoable world ch b list) (live : world.bufs b = some buf)
    (waits : env.waitiFails = none)
    (result : waitChannel world ch timeout env fuel = some waited) :
    (∀ other, waited.world.engine.saved other = false) ∧
      waited.world.bufs = Function.update world.bufs b (some { buf with descriptors := list }) := by
  obtain ⟨inte, restored⟩ := wait_restores waits result
  exact (undoable.woken inte).restored live restored

end Waiting

theorem synced_host (buf : DMABuffer) (ch : Channel) (request : Request) :
    (buf.syncedFor ch request).host = buf.host := by
  unfold DMABuffer.syncedFor DMABuffer.sync
  cases buf.memory <;> split <;> (try split) <;> rfl

theorem sent_bytes (buf : DMABuffer) (request : Request) (list : List DMADescriptorWG) :
    DMABuffer.deviceBytes { buf.syncedFor 0 request with descriptors := list } = buf.host := by
  unfold DMABuffer.deviceBytes DMABuffer.syncedFor DMABuffer.sync
  cases kind : buf.memory <;> simp [kind]

theorem read_host (buf : DMABuffer) (request : Request) (before after : List DMADescriptorWG)
    (arrived : List U8 → List U8) :
    (({ DMABuffer.receive { buf.syncedFor 1 request with descriptors := before } arrived with
      descriptors := after } : DMABuffer).sync .fromDevice).host =
        arrived (buf.syncedFor 1 request).deviceBytes := by
  unfold DMABuffer.receive DMABuffer.sync DMABuffer.deviceBytes
  cases kind : buf.memory <;> simp [kind]

theorem read_device (buf : DMABuffer) (request : Request) (before after : List DMADescriptorWG)
    (arrived : List U8 → List U8) :
    (({ DMABuffer.receive { buf.syncedFor 1 request with descriptors := before } arrived with
      descriptors := after } : DMABuffer).sync .fromDevice).deviceBytes =
        arrived (buf.syncedFor 1 request).deviceBytes := by
  unfold DMABuffer.receive DMABuffer.sync DMABuffer.deviceBytes
  cases kind : buf.memory <;> simp [kind]

theorem read_rest (buf : DMABuffer) (request : Request) (before : List DMADescriptorWG)
    (arrived : List U8 → List U8) :
    let final := ({ DMABuffer.receive { buf.syncedFor 1 request with descriptors := before } arrived
      with descriptors := buf.descriptors } : DMABuffer).sync .fromDevice
    final.memory = buf.memory ∧ final.size = buf.size ∧ final.descriptors = buf.descriptors := by
  simp [receive_memory, receive_size]

/-- The bytes of the copy that the board does not write are the buffer's. -/
theorem device_elsewhere {buf : DMABuffer} {request : Request} (safe : TailSafe buf request)
    (host : buf.host.length = buf.size.toNat) (device : buf.deviceBytes.length = buf.size.toNat)
    {index : ℕ} (outside : index < 4 * request.offset.toNat ∨
      4 * (request.offset.toNat + request.count.toNat) ≤ index) :
    (buf.syncedFor 1 request).deviceBytes[index]? = buf.host[index]? := by
  cases kind : buf.memory with
  | kernel kBuf => simp [DMABuffer.deviceBytes, kind, synced_host]
  | kernelPieces kBuf pieces => simp [DMABuffer.deviceBytes, kind, synced_host]
  | user entries =>
      have bounce := synced_bounce buf entries request kind
      have user : (buf.syncedFor 1 request).deviceBytes = (buf.syncedFor 1 request).bounce := by
        simp [DMABuffer.deviceBytes, kind]
      have plain : buf.deviceBytes = buf.bounce := by simp [DMABuffer.deviceBytes, kind]
      rw [user, bounce, bounceFound]
      split
      · rfl
      · rename_i whole
        rw [plain] at device
        have behind : buf.size.toNat ≤ index := by
          unfold TailSafe at safe
          omega
        rw [List.getElem?_eq_none (by omega), List.getElem?_eq_none (by omega)]

theorem sync_device (buf : DMABuffer) {dir : SyncDir} (sends : dir ≠ .fromDevice) :
    (buf.sync dir).deviceBytes = buf.host := by
  unfold DMABuffer.deviceBytes DMABuffer.sync
  cases kind : buf.memory <;> cases dir <;> simp_all

theorem synced_device_length (buf : DMABuffer) (ch : Channel) (request : Request)
    (host : buf.host.length = buf.size.toNat) (device : buf.deviceBytes.length = buf.size.toNat) :
    (buf.syncedFor ch request).deviceBytes.length = buf.size.toNat := by
  unfold DMABuffer.syncedFor
  split
  · rw [sync_device buf (by simp), host]
  · split
    · rw [sync_device buf (by simp), host]
    · exact device

theorem InPlace.edited {buf after : DMABuffer} {placed : List U64} (inPlace : InPlace buf placed)
    (memory : after.memory = buf.memory) (size : after.size = buf.size)
    (descriptors : after.descriptors = buf.descriptors)
    (host : after.host.length = buf.size.toNat)
    (device : after.deviceBytes.length = buf.size.toNat) : InPlace after placed := by
  have listed : after.hasList = buf.hasList := by simp only [DMABuffer.hasList, memory]
  constructor
  · exact inPlace.distinct
  · rw [size]
    exact inPlace.size
  · rw [size]
    exact host
  · rw [size]
    exact device
  · rw [listed, size, descriptors]
    exact inPlace.filled
  · rw [descriptors]
    exact inPlace.chained
  · rw [listed, descriptors]
    exact inPlace.named
  · rw [memory, size]
    exact inPlace.kernel

section Received

variable {buf : DMABuffer} {request : Request} {placed : List U64} {bytes : List U8}

theorem synced_splice (safe : TailSafe buf request) (inPlace : InPlace buf placed)
    (inside : 4 * (request.offset.toNat + request.count.toNat) ≤ buf.size.toNat)
    (full : bytes.length = 4 * request.count.toNat) :
    splice (buf.syncedFor 1 request).deviceBytes (4 * request.offset.toNat) bytes =
      splice buf.host (4 * request.offset.toNat) bytes := by
  have long : (buf.syncedFor 1 request).deviceBytes.length = buf.size.toNat :=
    synced_device_length buf 1 request inPlace.host inPlace.device
  have host := inPlace.host
  apply List.ext_getElem?
  intro index
  rw [splice_getElem? (by omega), splice_getElem? (by omega)]
  by_cases within : 4 * request.offset.toNat ≤ index ∧
      index < 4 * request.offset.toNat + bytes.length
  · rw [if_pos within, if_pos within]
  · rw [if_neg within, if_neg within]
    exact device_elsewhere safe inPlace.host inPlace.device (by omega)

/-- The buffer behind a read: as it was, but for the bytes that were asked for. -/
theorem InPlace.received (inPlace : InPlace buf placed) (safe : TailSafe buf request)
    (inside : 4 * (request.offset.toNat + request.count.toNat) ≤ buf.size.toNat)
    (full : bytes.length = 4 * request.count.toNat) (list : List DMADescriptorWG) :
    let arrived := put placed
      (((placed.drop (4 * request.offset.toNat)).take (4 * request.count.toNat)).zip bytes)
    let kept := ({ DMABuffer.receive { buf.syncedFor 1 request with descriptors := list } arrived
      with descriptors := buf.descriptors } : DMABuffer).sync .fromDevice
    InPlace kept placed ∧ kept.host = splice buf.host (4 * request.offset.toNat) bytes := by
  intro arrived kept
  have long : (buf.syncedFor 1 request).deviceBytes.length = buf.size.toNat :=
    synced_device_length buf 1 request inPlace.host inPlace.device
  have written : arrived (buf.syncedFor 1 request).deviceBytes =
      splice buf.host (4 * request.offset.toNat) bytes := by
    rw [← synced_splice safe inPlace inside full]
    apply put_stretch inPlace.distinct bytes
    · rw [long, inPlace.size]
    · rw [inPlace.size]
      omega
    · omega
  have host : kept.host = splice buf.host (4 * request.offset.toNat) bytes :=
    (read_host buf request list buf.descriptors arrived).trans written
  have device : kept.deviceBytes = splice buf.host (4 * request.offset.toNat) bytes :=
    (read_device buf request list buf.descriptors arrived).trans written
  have size : (splice buf.host (4 * request.offset.toNat) bytes).length = buf.size.toNat := by
    rw [splice_length (by rw [inPlace.host]; omega), inPlace.host]
  obtain ⟨memory, sameSize, descriptors⟩ := read_rest buf request list arrived
  exact ⟨inPlace.edited memory sameSize descriptors (by rw [host, size]) (by rw [device, size]),
    host⟩

end Received

section Calls

variable {Board Time : Type} [Zero Time] [LT Time] [DecidableLT Time] {side : BoardSide Board}
  {machine after : Machine Board} {b : BufId} {buf : DMABuffer} {request : Request}

theorem Machine.Rested.edited (rested : machine.Rested) {world : World} {board : Board}
    {final : DMABuffer} (settled : ∀ ch, world.engine.saved ch = false)
    (bufs : world.bufs = Function.update machine.world.bufs b (some final))
    (inPlace : InPlace final (machine.placed b)) :
    Machine.Rested ⟨world, machine.placed, board⟩ := by
  refine ⟨settled, fun other found live => ?_⟩
  simp only [bufs] at live
  by_cases same : other = b
  · subst same
    rw [Function.update_self, Option.some.injEq] at live
    rw [← live]
    exact inPlace
  · rw [Function.update_of_ne same] at live
    exact rested.buffers other found live

theorem view_updated {bufs : BufId → Option DMABuffer} {final : DMABuffer} :
    (fun other => (Function.update bufs b (some final) other).map DMABuffer.host) =
      Function.update (fun other => (bufs other).map DMABuffer.host) b (some final.host) := by
  funext other
  by_cases same : other = b
  · subst same
    simp
  · simp [Function.update_of_ne same]

theorem write_step (rested : machine.Rested) (live : machine.world.bufs b = some buf)
    {progress : ℕ → ℕ} {timeout : Time} {env : Environment Time} {fuel : ℕ}
    (careful : Careful buf request env)
    (step : machine.write side b request progress timeout env fuel = some after) :
    after.Rested ∧ copySpec side machine.view (.write b request) after.view := by
  have inPlace := rested.buffers b buf live
  have contents : machine.view.contents b = some buf.host := by simp [Machine.view, live]
  have refuses := @check_refuses_iff buf request careful.exact_sum
  simp only [Machine.write, live, Option.bind_some] at step
  by_cases refused : RefusedRequest buf.size.toNat request
  · rw [if_pos (refuses.mpr refused), Option.some.injEq] at step
    subst step
    refine ⟨rested, buf.host, contents, ?_⟩
    rw [inPlace.host, if_pos refused]
  · have inside : 4 * (request.offset.toNat + request.count.toNat) ≤ buf.size.toNat := by
      unfold RefusedRequest at refused
      omega
    have accepted : checkRequest buf request = none := by
      simpa using refuses.not.mpr refused
    obtain ⟨started, begins, begun⟩ := @begun _ 0 _ _ _ _ rested.settled live inPlace careful.start
      inside
    have starts : machine.world.startHost2board b request = some started := begins
    obtain ⟨list, bufs⟩ := begun.bufs
    have liveSent : started.bufs b =
        some { buf.syncedFor 0 request with descriptors := list } := by
      rw [bufs, Function.update_self]
    rw [if_neg (refuses.not.mpr refused), starts, Option.bind_some, begun.chain, Option.bind_some,
      liveSent, Option.bind_some, Option.bind_eq_some_iff] at step
    obtain ⟨waited, returned, finished⟩ := step
    obtain ⟨-, result⟩ := Option.ite_none_right_eq_some.mp finished
    cases result
    simp only [World.host2board, live, accepted, starts] at returned
    obtain ⟨settled, final⟩ := begun.undoable.waited liveSent careful.waits returned
    have finalBufs : waited.world.bufs =
        Function.update machine.world.bufs b (some (buf.syncedFor 0 request)) := by
      rw [final, bufs, Function.update_idem]
      simp only [← DMABuffer.synced_descriptors buf 0 request]
    constructor
    · apply rested.edited settled finalBufs
      apply inPlace.edited (by simp) (by simp) (by simp)
      · rw [synced_host, inPlace.host]
      · exact synced_device_length buf 0 request inPlace.host inPlace.device
    · refine ⟨buf.host, contents, ?_⟩
      rw [inPlace.host, if_neg refused]
      have same : (fun other => (waited.world.bufs other).map DMABuffer.host) =
          machine.view.contents := by
        rw [finalBufs, view_updated, synced_host, ← contents]
        exact Function.update_eq_self _ _
      have paired : buf.host.length = (machine.placed b).length := by
        rw [inPlace.host, inPlace.size]
      simp only [Machine.view, same, sent_bytes, begun.place]
      rw [pick_stretch inPlace.distinct paired]

theorem read_step (rested : machine.Rested) (live : machine.world.bufs b = some buf)
    {progress : ℕ → ℕ} {timeout : Time} {env : Environment Time} {fuel : ℕ}
    (careful : Careful buf request env) (safe : TailSafe buf request)
    (step : machine.read side b request progress timeout env fuel = some after) :
    after.Rested ∧ copySpec side machine.view (.read b request) after.view := by
  have inPlace := rested.buffers b buf live
  have contents : machine.view.contents b = some buf.host := by simp [Machine.view, live]
  have refuses := @check_refuses_iff buf request careful.exact_sum
  simp only [Machine.read, live, Option.bind_some] at step
  by_cases refused : RefusedRequest buf.size.toNat request
  · rw [if_pos (refuses.mpr refused), Option.some.injEq] at step
    subst step
    refine ⟨rested, buf.host, contents, ?_⟩
    rw [inPlace.host, if_pos refused]
  · have inside : 4 * (request.offset.toNat + request.count.toNat) ≤ buf.size.toNat := by
      unfold RefusedRequest at refused
      omega
    have accepted : checkRequest buf request = none := by
      simpa using refuses.not.mpr refused
    obtain ⟨started, begins, begun⟩ := @begun _ 1 _ _ _ _ rested.settled live inPlace careful.start
      inside
    have starts : machine.world.startBoard2host b request = some started := begins
    obtain ⟨list, bufs⟩ := begun.bufs
    let sent := side.fetch request.place (4 * request.count.toNat) machine.board
    let targets := ((machine.placed b).drop (4 * request.offset.toNat)).take
      (4 * request.count.toNat)
    have length : targets.length = 4 * request.count.toNat := by
      rw [List.length_take, List.length_drop, inPlace.size]
      omega
    rw [if_neg (refuses.not.mpr refused), starts, Option.bind_some, begun.chain, Option.bind_some,
      begun.place] at step
    change Option.bind _ _ = some after at step
    rw [length, Option.bind_eq_some_iff] at step
    obtain ⟨waited, returned, finished⟩ := step
    obtain ⟨-, result⟩ := Option.ite_none_right_eq_some.mp finished
    cases result
    simp only [World.board2host, live, accepted, starts, Option.map_eq_some_iff] at returned
    obtain ⟨before, waits, rfl⟩ := returned
    let arrived := put (machine.placed b) (targets.zip sent.1)
    have liveReceived : (started.mapBuf b fun buf => buf.receive arrived).bufs b =
        some (DMABuffer.receive { buf.syncedFor 1 request with descriptors := list } arrived) := by
      simp [World.mapBuf, bufs]
    obtain ⟨settled, final⟩ := Undoable.waited (begun.undoable.map_buf _ fun buf =>
      receive_descriptors buf arrived) liveReceived careful.waits waits
    let kept := ({ DMABuffer.receive { buf.syncedFor 1 request with descriptors := list } arrived
      with descriptors := buf.descriptors } : DMABuffer).sync .fromDevice
    have finalBufs : (before.world.mapBuf b fun buf => buf.sync .fromDevice).bufs =
        Function.update machine.world.bufs b (some kept) := by
      simp only [World.mapBuf, final, bufs, Function.update_idem, Function.update_self,
        Option.map_some, kept]
    have full : sent.1.length = 4 * request.count.toNat := side.fetch_length _ _ _
    obtain ⟨keptInPlace, host⟩ := inPlace.received safe inside full list
    have clear : ∀ ch, (before.world.mapBuf b fun buf => buf.sync .fromDevice).engine.saved ch =
        false := settled
    constructor
    · exact rested.edited clear finalBufs keptInPlace
    · refine ⟨buf.host, contents, ?_⟩
      rw [inPlace.host, if_neg refused]
      simp only [Machine.view, finalBufs, view_updated, kept, arrived, targets, host]
      rfl

theorem source_fills {source : Source} {size : U32} {memory : Memory} {pas : List U64}
    (honest : source.Honest) (made : source.memory size = some memory)
    (creatable : Creatable memory size pas)
    (listed : ∀ kBuf, memory ≠ .kernel kBuf) :
    busAddresses (fillDescriptorList memory size pas) = source.placed size := by
  cases source with
  | kernel kBuf =>
      cases made
      exact absurd rfl (listed kBuf)
  | kernelPieces kBuf pieces =>
      cases made
      obtain ⟨linked, positive⟩ := creatable
      have count : pas.length = pieces.toNat := linked
      have some_ : pas ≠ [] := List.length_pos_iff.mp (by omega)
      have zero : (0 : U32).toNat = 0 := rfl
      have step : (size / pieces).toNat * pieces.toNat ≤ size.toNat := by
        rw [BitVec.toNat_udiv]
        exact Nat.div_mul_le_self _ _
      have bytes := fill_pieces_bytes kBuf size pieces (size / pieces) pas 0 0 some_
        (by rw [zero, count, Nat.zero_add]) (by simp) step
      rw [busAddresses, fillDescriptorList, bytes, zero, Nat.cast_zero, add_zero, Nat.sub_zero]
      rfl
  | user os sgmap sgget privdata mem =>
      obtain ⟨linked, -⟩ := creatable
      simp only [Source.memory] at made
      split at made
      · cases made
      · rename_i object result
        cases made
        have constructed : UserMemory.construct os sgmap sgget privdata mem size true =
            ((UserMemory.construct os sgmap sgget privdata mem size true).1, .ok object) :=
          Prod.ext rfl result
        exact constructed_addresses honest.1 honest.2 constructed linked.symm

theorem source_length {source : Source} {size : U32} :
    (source.placed size).length = size.toNat := by
  cases source with
  | kernel kBuf => exact expand_length _
  | kernelPieces kBuf pieces => exact expand_length _
  | user os sgmap sgget privdata mem => exact bus_translation_length

theorem create_step (rested : machine.Rested) {source : Source} {size : U32} {pas : List U64}
    {host bounce : List U8} (honest : source.Honest) (distinct : (source.placed size).Nodup)
    (chained : pas.Nodup) (hostLength : host.length = size.toNat)
    (bounceLength : bounce.length = size.toNat)
    (step : machine.create b source size pas host bounce = some after) :
    after.Rested ∧ copySpec side machine.view (.create b host) after.view := by
  obtain ⟨memory, made, created⟩ := Option.bind_eq_some_iff.mp step
  obtain ⟨world, result, rfl⟩ := Option.map_eq_some_iff.mp created
  unfold World.create at result
  split at result
  · cases result
  · rename_i dead
    split at result
    · rename_i creatable
      cases result
      have addresses := fill_descriptor_list_pas memory size pas creatable.1
      have inPlace : InPlace ⟨memory, size, fillDescriptorList memory size pas, host, bounce⟩
          (source.placed size) := by
        constructor
        · exact distinct
        · exact source_length
        · exact hostLength
        · unfold DMABuffer.deviceBytes
          cases memory <;> simp [hostLength, bounceLength]
        · intro listed
          exact fill_descriptor_list_filled memory size pas
            (@created_fillable ⟨memory, size, [], host, bounce⟩ _ creatable listed).1 creatable.1
        · rw [addresses]
          exact chained
        · intro listed
          apply source_fills honest made creatable
          intro kBuf kernel
          simp [DMABuffer.hasList, kernel] at listed
        · intro kBuf kernel
          cases source <;> simp only [Source.memory, Option.some.injEq] at made
          · rw [← made] at kernel
            cases kernel
            rfl
          · rw [← made] at kernel
            cases kernel
          · split at made <;> cases made
            cases kernel
      constructor
      · refine ⟨rested.settled, fun other found live => ?_⟩
        by_cases same : other = b
        · subst same
          simp only [World.setBuf, Function.update_self, Option.some.injEq] at live ⊢
          rw [← live]
          exact inPlace
        · simp only [World.setBuf, Function.update_of_ne same] at live ⊢
          exact rested.buffers other found live
      · refine ⟨by simp [Machine.view, dead], ?_⟩
        simp only [Machine.view, World.setBuf, view_updated]
    · cases result

theorem destroy_step (rested : machine.Rested)
    (step : (machine.world.destroy b).map (fun world => { machine with world := world }) =
      some after) : after.Rested ∧ copySpec side machine.view (.destroy b) after.view := by
  obtain ⟨world, result, rfl⟩ := Option.map_eq_some_iff.mp step
  unfold World.destroy at result
  split at result
  · cases result
  · cases result
    constructor
    · refine ⟨rested.settled, fun other found live => ?_⟩
      by_cases same : other = b
      · simp [same] at live
      · simp only [Function.update_of_ne same] at live
        exact rested.buffers other found live
    · have contents : (fun other => (Function.update machine.world.bufs b none other).map
          DMABuffer.host) = Function.update machine.view.contents b none := by
        funext other
        by_cases same : other = b
        · simp [same]
        · simp [Function.update_of_ne same, Machine.view]
      simp only [copySpec, Machine.view, contents]

theorem poke_step (rested : machine.Rested) {position : ℕ} {bytes : List U8}
    (inside : ∀ buf, machine.world.bufs b = some buf → position + bytes.length ≤ buf.size.toNat) :
    (machine.poke b position bytes).Rested ∧
      copySpec side machine.view (.poke b position bytes) (machine.poke b position bytes).view := by
  cases live : machine.world.bufs b with
  | none =>
      have same : (machine.world.mapBuf b fun buf =>
          { buf with host := splice buf.host position bytes }).bufs = machine.world.bufs := by
        simp only [World.mapBuf, live, Option.map_none]
        rw [← live, Function.update_eq_self]
      constructor
      · refine ⟨rested.settled, fun other found liveFound => ?_⟩
        simp only [Machine.poke, same] at liveFound
        exact rested.buffers other found liveFound
      · have contents : machine.view.contents b = none := by simp [Machine.view, live]
        simp only [copySpec, contents, Option.map_none]
        rw [← contents, Function.update_eq_self]
        simp only [Machine.poke, Machine.view, same]
  | some buf =>
      have inPlace := rested.buffers b buf live
      have fits : position + bytes.length ≤ buf.host.length := by
        rw [inPlace.host]
        exact inside buf live
      have length := (splice_length fits).trans inPlace.host
      have bufs : (machine.world.mapBuf b fun buf =>
          { buf with host := splice buf.host position bytes }).bufs =
          Function.update machine.world.bufs b
            (some { buf with host := splice buf.host position bytes }) := by
        simp only [World.mapBuf, live, Option.map_some]
      have clear : ∀ ch, (machine.world.mapBuf b fun buf =>
          { buf with host := splice buf.host position bytes }).engine.saved ch = false :=
        rested.settled
      constructor
      · apply rested.edited clear bufs
        refine inPlace.edited rfl rfl rfl length ?_
        have device := inPlace.device
        unfold DMABuffer.deviceBytes at device ⊢
        cases kind : buf.memory <;> simp only [kind] at device ⊢
        · exact length
        · exact length
        · exact device
      · simp only [copySpec, Machine.poke, Machine.view, bufs, view_updated, live, Option.map_some]

theorem copy_step {call : CopyCall Time} (rested : machine.Rested) (sound : call.Sound machine)
    (step : machine.call side call = some after) :
    after.Rested ∧ copySpec side machine.view call.operation after.view := by
  cases call with
  | create b source size pas host bounce =>
      obtain ⟨honest, distinct, chained, hostLength, bounceLength⟩ := sound
      exact create_step rested honest distinct chained hostLength bounceLength step
  | destroy b => exact destroy_step rested step
  | poke b position bytes =>
      cases step
      exact poke_step rested sound
  | write b request progress timeout env fuel =>
      obtain ⟨buf, live, -⟩ := Option.bind_eq_some_iff.mp step
      exact write_step rested live (sound buf live) step
  | read b request progress timeout env fuel =>
      obtain ⟨buf, live, -⟩ := Option.bind_eq_some_iff.mp step
      exact read_step rested live (sound buf live).1 (sound buf live).2 step

/-- Every run of sound blocking calls, each of which comes back with its transfer done, is a run of
plain copies: from the user's pages through
mapping, descriptors, engine and waits, the bytes of the buffers and of the board are those of the
specification. -/
theorem runs_are_copies {calls : List (CopyCall Time)}
    (start : (copySystem Time side).initial machine)
    (sound : (copySystem Time side).Along (fun machine call => call.Sound machine) machine calls)
    (run : (copySystem Time side).runFrom machine calls = some after) :
    Trace (copySpec side) machine.view (calls.map CopyCall.operation) after.view := by
  have rested : machine.Rested := by
    constructor
    · exact start.1
    · intro b buf live
      rw [start.2 b] at live
      cases live
  exact (run_refines Machine.view CopyCall.operation Machine.Rested
    (fun state call next holds permitted step => copy_step holds permitted step) rested sound run).2

end Calls

def noBuffers : Machine (U32 × ℕ → U8) where
  world := emptyWorld
  placed := fun _ => []
  board := fun _ => 0

def twoDwords : Request := ⟨1, 4, 2, 0, true⟩

/-- The first buffer begins four bytes before the end of a page. -/
def thereAndBack : List (CopyCall ℕ) := [
  .create 0 (.user plainKernel sgmapGranted sggetGranted noMappings 0x7ffc#64) 8
    [0x100#64, 0x140#64] [1, 2, 3, 4, 5, 6, 7, 8] [0, 0, 0, 0, 0, 0, 0, 0],
  .write 0 twoDwords (fun instant => 8 * instant) 0 (steadyBoard 0) 1,
  .create 1 (.kernelPieces 0x9000#64 1) 8 [0x200#64] [0, 0, 0, 0, 0, 0, 0, 0]
    [0, 0, 0, 0, 0, 0, 0, 0],
  .poke 0 2 [9, 9],
  .read 1 twoDwords (fun instant => 8 * instant) 0 (steadyBoard 0) 1]

theorem plain_honest : KernelHonest plainKernel :=
  ⟨⟨id, fun _ _ => List.prefix_rfl⟩, plain_keeps⟩

def sizesAfter (calls : List (CopyCall ℕ)) : Option (Option U32 × Option U32) :=
  ((copySystem ℕ memoryBoard).runFrom noBuffers calls).map fun machine =>
    ((machine.world.bufs 0).map DMABuffer.size, (machine.world.bufs 1).map DMABuffer.size)

theorem there_and_back_sound : (copySystem ℕ memoryBoard).Along
    (fun machine call => call.Sound machine) noBuffers thereAndBack := by
  have third : sizesAfter (thereAndBack.take 3) = some (some 8, some 8) := by decide +kernel
  have fourth : sizesAfter (thereAndBack.take 4) = some (some 8, some 8) := by decide +kernel
  refine ⟨⟨⟨plain_honest, fun _ member => absurd member (by simp [noMappings])⟩, by decide,
      by decide, rfl, rfl⟩, fun first stepped => ⟨fun _ _ => ⟨by decide, fun _ => rfl, rfl⟩,
    fun second steppedToo => ⟨⟨trivial, by decide, by decide, rfl, rfl⟩, fun before created =>
    ⟨fun buf live => ?_, fun last poked => ⟨fun buf live => ⟨⟨by decide, fun _ => rfl, rfl⟩, ?_⟩,
      fun _ _ => trivial⟩⟩⟩⟩⟩
  · simp only [sizesAfter, thereAndBack, List.take, System.runFrom, stepped, steppedToo, created,
      Option.map_some, live, Option.some.injEq, Prod.mk.injEq] at third
    rw [third.1]
    decide
  · simp only [sizesAfter, thereAndBack, List.take, System.runFrom, stepped, steppedToo, created,
      poked, Option.map_some, live, Option.some.injEq, Prod.mk.injEq] at fourth
    exact Or.inr (Or.inr (by rw [fourth.2]; decide))

theorem runs_are_copies_there_and_back : ∃ after,
    (copySystem ℕ memoryBoard).runFrom noBuffers thereAndBack = some after ∧
      Trace (copySpec memoryBoard) noBuffers.view (thereAndBack.map CopyCall.operation)
        after.view := by
  have ends : ((copySystem ℕ memoryBoard).runFrom noBuffers thereAndBack).isSome = true := by
    decide +kernel
  obtain ⟨after, run⟩ := Option.isSome_iff_exists.mp ends
  exact ⟨after, run, runs_are_copies ⟨fun _ => rfl, fun _ => rfl⟩ there_and_back_sound run⟩

end FpgaPcie.Mprace
