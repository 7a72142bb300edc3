import FpgaPcie.Mprace.SendDescriptorList

/-!
# The DMA engine and its buffers

The state of `DMAEngineWG` (channel and interrupt-enable registers, the saved
records) next to the `DMABuffer` objects it works on, and its operations up to
the point where a transfer has been started. What a channel then does, and the
waiting for it, is in `WaitChannel`.
-/

namespace FpgaPcie.Mprace

open DMADescriptorWG

set_option autoImplicit false

abbrev Channel := Fin 2

/-- A constant for the numerals 0 and 1 of `Channel`. -/
instance channelNeZero : NeZero 2 := ⟨Nat.succ_ne_zero 1⟩

/-- `MemType` with the object that backs the memory: the kernel buffer's bus
address, or the scatter/gather list of the user mapping. -/
inductive Memory where
  | kernel (kBuf : U64)
  | kernelPieces (kBuf : U64) (kernelPieces : U32)
  | user (uBuf : List UmemSgEntry)
  deriving DecidableEq, Repr

/-- `bounce` is the copy of a user buffer that the kernel keeps where the board can
reach it; kernel memory has none. -/
structure DMABuffer where
  memory : Memory
  size : U32
  descriptors : List DMADescriptorWG
  host : List U8
  bounce : List U8
  deriving DecidableEq, Repr

structure DMAEngineWG where
  /-- whether the library is compiled with `OLD_REGISTERS` -/
  oldRegisters : Bool
  useInterrupts : Bool
  channel : Channel → Descriptor
  inte : U32
  saved : Channel → Bool
  savedData : Channel → SavedData

structure World where
  engine : DMAEngineWG
  bufs : BufId → Option DMABuffer

inductive SyncDir where
  | both
  | toDevice
  | fromDevice
  deriving DecidableEq, Repr

namespace DMABuffer

def hasList (buf : DMABuffer) : Bool :=
  match buf.memory with
  | .kernel _ => false
  | _ => true

/-- `BOTH` reaches the driver as a copy for the device followed by one for the CPU. -/
def sync (dir : SyncDir) (buf : DMABuffer) : DMABuffer :=
  match buf.memory with
  | .user _ =>
      match dir with
      | .toDevice => { buf with bounce := buf.host }
      | .fromDevice => { buf with host := buf.bounce }
      | .both => { buf with bounce := buf.host, host := buf.host }
  | _ => buf

end DMABuffer

/-- One entry of `fillDescriptorList`, on the descriptor object linked to `pa`. -/
def filledDescriptor (pa hostAddress length next : U64) : DMADescriptorWG :=
  (((({ unset with pa := pa }.setHostAddress hostAddress).setLength length).setControl
    0).setPeripheralAddress 0).setNextDescriptorAddress next

/-- The loop over `kernel_pieces`: `i*step` and `count` are `unsigned int`, and the
last piece takes what is left. -/
def fillPieces (base : U64) (size pieces step : U32) : List U64 → U32 → U32 → List DMADescriptorWG
  | [], _, _ => []
  | pa :: rest, i, count =>
      filledDescriptor pa (base + (i * step).setWidth 64)
          (if i = pieces - 1 then (size - count).setWidth 64 else step.setWidth 64)
          (if i = pieces - 1 then 0 else rest.headD 0) ::
        fillPieces base size pieces step rest (i + 1) (count + step)

def fillEntries : List UmemSgEntry → List U64 → List DMADescriptorWG
  | entry :: entries, pa :: rest =>
      filledDescriptor pa entry.addr entry.size (rest.headD 0) :: fillEntries entries rest
  | _, _ => []

/-- `fillDescriptorList`, given the bus addresses that the constructor of the list
has linked its descriptor objects to, one for each descriptor. -/
def fillDescriptorList (memory : Memory) (size : U32) (pas : List U64) : List DMADescriptorWG :=
  match memory with
  | .kernel _ => []
  | .kernelPieces base pieces => fillPieces base size pieces (size / pieces) pas 0 0
  | .user entries => fillEntries entries pas

/-- Undo the edits one record describes. The indices were saved from this list. -/
def restoreList (data : SavedData) (list : List DMADescriptorWG) :
    Option (List DMADescriptorWG) :=
  let maxDescriptor := list.length - 1
  let init := data.savedInitDescriptor
  let last := data.savedLastDescriptor
  match list[init]?, list[last]? with
  | some _, some _ =>
      let moved := if data.savedOffset ≠ 0 then
          list.modify init fun d =>
            (d.setHostAddress (d.getHostAddress - data.savedOffset.setWidth 64)).setLength
              (d.getLength + data.savedOffset.setWidth 64)
        else list
      let cleared := if init ≠ maxDescriptor then moved.modify (init + 1) (setControl32 0)
        else moved
      let next := if last = maxDescriptor then 0
        else match list[last + 1]? with
          | some successor => successor.getPhysicalAddress
          | none => 0
      some (cleared.modify last fun d =>
        ((d.setLength (data.savedLength.setWidth 64)).setControl 0).setNextDescriptorAddress next)
  | _, _ => none

namespace DMAEngineWG

def inteCh (ch : Channel) : U32 := if ch = 0 then 0x00000002#32 else 0x00000001#32

def logicalNot (x : U32) : U32 := if x = 0 then 1 else 0

def reset (engine : DMAEngineWG) (ch : Channel) : DMAEngineWG :=
  { engine with
    channel := Function.update engine.channel ch
      { engine.channel ch with control := ctrlReset ||| ctrlV } }

def write (engine : DMAEngineWG) (ch : Channel) (d : DMADescriptorWG) : DMAEngineWG :=
  { engine with channel := Function.update engine.channel ch d.native }

def enableInterrupt (engine : DMAEngineWG) (ch : Channel) : DMAEngineWG :=
  { engine with inte := engine.inte ||| inteCh ch }

def disableInterrupt (engine : DMAEngineWG) (ch : Channel) : DMAEngineWG :=
  { engine with inte := engine.inte &&& logicalNot (inteCh ch) }

def setSaved (engine : DMAEngineWG) (ch : Channel) (value : Bool) : DMAEngineWG :=
  { engine with saved := Function.update engine.saved ch value }

def recordSaved (engine : DMAEngineWG) (ch : Channel) (data : SavedData) : DMAEngineWG :=
  { engine with
    saved := Function.update engine.saved ch true
    savedData := Function.update engine.savedData ch data }

def recordIfSaved (engine : DMAEngineWG) (ch : Channel) : Option SavedData → DMAEngineWG
  | some data => engine.recordSaved ch data
  | none => engine

/-- The constructor resets both channels. It leaves the `saved` flags unset; they
are taken to be false. -/
def construct (oldRegisters : Bool) (registers : Channel → Descriptor) (inte : U32) :
    DMAEngineWG :=
  let engine : DMAEngineWG :=
    { oldRegisters := oldRegisters
      useInterrupts := false
      channel := registers
      inte := inte
      saved := fun _ => false
      savedData := fun _ => ⟨0, 0, 0, 0, 0⟩ }
  (engine.reset 0).reset 1

/-- `none` where the source indexes past the list. -/
def sendDescriptorList (engine : DMAEngineWG) (b : BufId) (buf : DMABuffer) (request : Request)
    (ch : Channel) : Option (DMAEngineWG × DMABuffer) :=
  match programList (controlWord engine.oldRegisters engine.useInterrupts request) b buf.size
      request buf.descriptors with
  | none => none
  | some programmed =>
      some ((engine.recordIfSaved ch programmed.saved).write ch programmed.temp,
        { buf with descriptors := programmed.list })

/-- The one descriptor of a `KERNEL` transfer, built alike in both directions. -/
def kernelDescriptor (engine : DMAEngineWG) (kBuf : U64) (request : Request) : DMADescriptorWG :=
  let control := (ctrlLast ||| ctrlBar request.bar) |||
    (if engine.oldRegisters then 0
      else (ctrlUpa ||| ctrlV) ||| (if engine.useInterrupts then ctrlEdi else 0)) |||
    (if request.inc then ctrlInc else 0)
  setControl32 control
    ((((unset.setHostAddress (kBuf + request.offset.setWidth 64)).setPeripheralAddress
      ((request.addr * 4).setWidth 64)).setNextDescriptorAddress 0).setLength
        ((request.count * 4).setWidth 64))

def prepare (engine : DMAEngineWG) (ch : Channel) : DMAEngineWG :=
  let ready := engine.reset ch
  if !engine.oldRegisters && !engine.useInterrupts then ready.disableInterrupt ch else ready

end DMAEngineWG

inductive Exception where
  | emptyTransfer
  | addressOutOfRange
  | dmaTimeout (transferred : Option U32)
  | interruptFailed
  deriving DecidableEq, Repr

/-- The checks of `host2board` and `board2host`. The sum wraps as `unsigned int`
before `sizeof` widens it. -/
def checkRequest (buf : DMABuffer) (request : Request) : Option Exception :=
  if request.count = 0 then some .emptyTransfer
  else if buf.size.setWidth 64 < (request.offset + request.count).setWidth 64 * 4 then
    some .addressOutOfRange
  else none

namespace World

def setBuf (world : World) (b : BufId) (buf : DMABuffer) : World :=
  { world with bufs := Function.update world.bufs b (some buf) }

/-- `host2board` from the register reset to the start of the transfer. -/
def startHost2board (world : World) (b : BufId) (request : Request) : Option World :=
  match world.bufs b with
  | none => none
  | some buf =>
      let engine := world.engine.prepare 0
      match buf.memory with
      | .kernel kBuf =>
          some { (world.setBuf b (buf.sync .both)) with
            engine := (engine.setSaved 0 false).write 0 (engine.kernelDescriptor kBuf request) }
      | _ =>
          (engine.sendDescriptorList b (buf.sync .both) request 0).map fun (sent, edited) =>
            { (world.setBuf b edited) with engine := sent }

/-- `board2host` from the register reset to the start of the transfer. The buffer
is synchronised first unless the transfer looks like the whole buffer. -/
def startBoard2host (world : World) (b : BufId) (request : Request) : Option World :=
  match world.bufs b with
  | none => none
  | some buf =>
      let engine := world.engine.prepare 1
      let synced := if 0 < request.offset ∨ request.count < buf.size / 4 then buf.sync .toDevice
        else buf
      match buf.memory with
      | .kernel kBuf =>
          some { (world.setBuf b synced) with
            engine := (engine.setSaved 1 false).write 1 (engine.kernelDescriptor kBuf request) }
      | _ =>
          (engine.sendDescriptorList b synced request 1).map fun (sent, edited) =>
            { (world.setBuf b edited) with engine := sent }

def start (world : World) (ch : Channel) (b : BufId) (request : Request) : Option World :=
  if ch = 0 then world.startHost2board b request else world.startBoard2host b request

/-- `restoreSavedData`; `none` when `saved_buf` points to a destroyed buffer. -/
def restoreSavedData (world : World) (ch : Channel) : Option World :=
  let data := world.engine.savedData ch
  match world.bufs data.savedBuf with
  | none => none
  | some buf =>
      (restoreList data buf.descriptors).map fun list =>
        world.setBuf data.savedBuf { buf with descriptors := list }

/-- The tail of every exit of `waitChannel`. -/
def restoreIfSaved (world : World) (ch : Channel) : Option World :=
  if world.engine.saved ch then
    (world.restoreSavedData ch).map fun restored =>
      { restored with engine := restored.engine.setSaved ch false }
  else some world

end World

@[simp] theorem write_saved (engine : DMAEngineWG) (ch : Channel) (d : DMADescriptorWG) :
    (engine.write ch d).saved = engine.saved := rfl

@[simp] theorem write_saved_data (engine : DMAEngineWG) (ch : Channel) (d : DMADescriptorWG) :
    (engine.write ch d).savedData = engine.savedData := rfl

@[simp] theorem record_use_interrupts (engine : DMAEngineWG) (ch : Channel)
    (data : Option SavedData) :
    (engine.recordIfSaved ch data).useInterrupts = engine.useInterrupts := by
  cases data <;> rfl

theorem channel_cases (ch : Channel) : ch = 0 ∨ ch = 1 := by
  revert ch
  decide

@[simp] theorem prepare_old_registers (engine : DMAEngineWG) (ch : Channel) :
    (engine.prepare ch).oldRegisters = engine.oldRegisters := by
  unfold DMAEngineWG.prepare
  split <;> rfl

@[simp] theorem prepare_use_interrupts (engine : DMAEngineWG) (ch : Channel) :
    (engine.prepare ch).useInterrupts = engine.useInterrupts := by
  unfold DMAEngineWG.prepare
  split <;> rfl

@[simp] theorem prepare_saved (engine : DMAEngineWG) (ch : Channel) :
    (engine.prepare ch).saved = engine.saved := by
  unfold DMAEngineWG.prepare
  split <;> rfl

@[simp] theorem prepare_saved_data (engine : DMAEngineWG) (ch : Channel) :
    (engine.prepare ch).savedData = engine.savedData := by
  unfold DMAEngineWG.prepare
  split <;> rfl

/-- What the check establishes: the sum it tests is the wrapped one. -/
theorem accepted_range (buf : DMABuffer) (request : Request)
    (accepted : checkRequest buf request = none) : 0 < request.count.toNat ∧
      4 * ((request.offset.toNat + request.count.toNat) % 2 ^ 32) ≤ buf.size.toNat := by
  have sizeBound := buf.size.isLt
  have sumBound := (request.offset + request.count).isLt
  have four : (4 : U64).toNat = 4 := rfl
  unfold checkRequest at accepted
  split at accepted
  · cases accepted
  · rename_i some_
    split at accepted
    · cases accepted
    · rename_i notLess
      constructor
      · apply Nat.pos_of_ne_zero
        intro zero
        exact some_ (BitVec.eq_of_toNat_eq zero)
      · rw [← BitVec.toNat_add]
        rw [BitVec.lt_def, BitVec.toNat_mul, four, BitVec.toNat_setWidth,
          BitVec.toNat_setWidth] at notLess
        omega

namespace DMABuffer

/-- The synchronisation each direction makes before the transfer starts. -/
def syncedFor (buf : DMABuffer) (ch : Channel) (request : Request) : DMABuffer :=
  if ch = 0 then buf.sync .both
  else if 0 < request.offset ∨ request.count < buf.size / 4 then buf.sync .toDevice
  else buf

@[simp] theorem sync_memory (buf : DMABuffer) (dir : SyncDir) :
    (buf.sync dir).memory = buf.memory := by
  unfold sync
  split
  · split <;> rfl
  · rfl

@[simp] theorem sync_size (buf : DMABuffer) (dir : SyncDir) : (buf.sync dir).size = buf.size := by
  unfold sync
  split
  · split <;> rfl
  · rfl

@[simp] theorem sync_descriptors (buf : DMABuffer) (dir : SyncDir) :
    (buf.sync dir).descriptors = buf.descriptors := by
  unfold sync
  split
  · split <;> rfl
  · rfl

variable (buf : DMABuffer) (ch : Channel) (request : Request)

@[simp] theorem synced_memory : (buf.syncedFor ch request).memory = buf.memory := by
  simp only [syncedFor, apply_ite DMABuffer.memory, sync_memory, ite_self]

@[simp] theorem synced_size : (buf.syncedFor ch request).size = buf.size := by
  simp only [syncedFor, apply_ite DMABuffer.size, sync_size, ite_self]

@[simp] theorem synced_descriptors :
    (buf.syncedFor ch request).descriptors = buf.descriptors := by
  simp only [syncedFor, apply_ite DMABuffer.descriptors, sync_descriptors, ite_self]

end DMABuffer

namespace World

theorem send_eq (engine : DMAEngineWG) (b : BufId) (buf : DMABuffer) (request : Request)
    (ch : Channel) :
    engine.sendDescriptorList b buf request ch =
      (programList (controlWord engine.oldRegisters engine.useInterrupts request) b buf.size
        request buf.descriptors).map fun programmed =>
          ((engine.recordIfSaved ch programmed.saved).write ch programmed.temp,
            { buf with descriptors := programmed.list }) := by
  unfold DMAEngineWG.sendDescriptorList
  split <;> rename_i result <;> rw [result] <;> rfl

variable {world : World} {b : BufId} {buf : DMABuffer}

theorem start_kernel (ch : Channel) (request : Request) (live : world.bufs b = some buf)
    (kBuf : U64) (memory : buf.memory = .kernel kBuf) :
    world.start ch b request = some {
      engine := ((world.engine.prepare ch).setSaved ch false).write ch
        ((world.engine.prepare ch).kernelDescriptor kBuf request)
      bufs := Function.update world.bufs b (some (buf.syncedFor ch request)) } := by
  unfold start
  rcases channel_cases ch with rfl | rfl
  · simp [startHost2board, live, memory, setBuf, DMABuffer.syncedFor]
  · simp [startBoard2host, live, memory, setBuf, DMABuffer.syncedFor]

theorem start_list (ch : Channel) (request : Request) (live : world.bufs b = some buf)
    (listed : buf.hasList = true) :
    world.start ch b request =
      (programList (controlWord world.engine.oldRegisters world.engine.useInterrupts request) b
        buf.size request buf.descriptors).map fun programmed => {
          engine := ((world.engine.prepare ch).recordIfSaved ch programmed.saved).write ch
            programmed.temp
          bufs := Function.update world.bufs b
            (some { buf.syncedFor ch request with descriptors := programmed.list }) } := by
  have notKernel : ∀ kBuf, buf.memory ≠ .kernel kBuf := by
    intro kBuf kernel
    simp [DMABuffer.hasList, kernel] at listed
  have flip : ¬(1 : Channel) = 0 := by decide
  unfold start
  rcases channel_cases ch with rfl | rfl
  · have synced : buf.sync .both = buf.syncedFor 0 request := by simp [DMABuffer.syncedFor]
    simp only [if_true, startHost2board, live, synced, send_eq, DMABuffer.synced_size,
      DMABuffer.synced_descriptors, prepare_old_registers, prepare_use_interrupts, Option.map_map]
    rfl
  · have synced : (if 0 < request.offset ∨ request.count < buf.size / 4 then buf.sync .toDevice
        else buf) = buf.syncedFor 1 request := by simp [DMABuffer.syncedFor]
    simp only [if_neg flip, startBoard2host, live, synced, send_eq, DMABuffer.synced_size,
      DMABuffer.synced_descriptors, prepare_old_registers, prepare_use_interrupts, Option.map_map]
    rfl

/-- The world after a list transfer has been started from what programming gave. -/
def afterList (world : World) (ch : Channel) (b : BufId) (buf : DMABuffer) (request : Request)
    (programmed : Programmed) : World where
  engine := ((world.engine.prepare ch).recordIfSaved ch programmed.saved).write ch programmed.temp
  bufs := Function.update world.bufs b
    (some { buf.syncedFor ch request with descriptors := programmed.list })

def afterKernel (world : World) (ch : Channel) (b : BufId) (buf : DMABuffer) (kBuf : U64)
    (request : Request) : World where
  engine := ((world.engine.prepare ch).setSaved ch false).write ch
    ((world.engine.prepare ch).kernelDescriptor kBuf request)
  bufs := Function.update world.bufs b (some (buf.syncedFor ch request))

theorem start_cases {ch : Channel} {request : Request} {started : World}
    (result : world.start ch b request = some started) :
    ∃ buf, world.bufs b = some buf ∧
      ((∃ kBuf, buf.memory = .kernel kBuf ∧
          started = world.afterKernel ch b buf kBuf request) ∨
        (buf.hasList = true ∧ ∃ programmed,
          programList (controlWord world.engine.oldRegisters world.engine.useInterrupts request) b
            buf.size request buf.descriptors = some programmed ∧
          started = world.afterList ch b buf request programmed)) := by
  cases live : world.bufs b with
  | none =>
      unfold start startHost2board startBoard2host at result
      simp [live] at result
  | some buf =>
      refine ⟨buf, rfl, ?_⟩
      cases listed : buf.hasList with
      | false =>
          left
          cases memory : buf.memory with
          | kernel kBuf =>
              rw [start_kernel ch request live kBuf memory, Option.some.injEq] at result
              exact ⟨kBuf, rfl, result.symm⟩
          | kernelPieces kBuf pieces => simp [DMABuffer.hasList, memory] at listed
          | user entries => simp [DMABuffer.hasList, memory] at listed
      | true =>
          right
          rw [start_list ch request live listed, Option.map_eq_some_iff] at result
          obtain ⟨programmed, sent, rfl⟩ := result
          exact ⟨rfl, programmed, sent, rfl⟩

theorem restore_cases {ch : Channel} {restored : World}
    (result : world.restoreIfSaved ch = some restored) :
    (world.engine.saved ch = false ∧ restored = world) ∨
      (world.engine.saved ch = true ∧ ∃ buf list,
        world.bufs (world.engine.savedData ch).savedBuf = some buf ∧
        restoreList (world.engine.savedData ch) buf.descriptors = some list ∧
        restored = {
          engine := world.engine.setSaved ch false
          bufs := Function.update world.bufs (world.engine.savedData ch).savedBuf
            (some { buf with descriptors := list }) }) := by
  unfold restoreIfSaved at result
  cases saved : world.engine.saved ch with
  | false =>
      simp only [saved, Bool.false_eq_true, if_false, Option.some.injEq] at result
      exact Or.inl ⟨rfl, result.symm⟩
  | true =>
      right
      simp only [saved, if_true, restoreSavedData] at result
      cases live : world.bufs (world.engine.savedData ch).savedBuf with
      | none => simp [live] at result
      | some buf =>
          simp only [live] at result
          cases undone : restoreList (world.engine.savedData ch) buf.descriptors with
          | none => simp [undone] at result
          | some list =>
              simp only [undone, Option.map_some, Option.some.injEq] at result
              exact ⟨rfl, buf, list, rfl, undone, result.symm⟩

theorem restore_keeps_contents {ch : Channel} {restored : World}
    (result : world.restoreIfSaved ch = some restored) (live : world.bufs b = some buf) :
    ∃ after, restored.bufs b = some after ∧ after.memory = buf.memory ∧ after.size = buf.size ∧
      after.host = buf.host ∧ after.bounce = buf.bounce := by
  rcases restore_cases result with ⟨-, rfl⟩ | ⟨-, named, list, liveNamed, -, rfl⟩
  · exact ⟨buf, live, rfl, rfl, rfl, rfl⟩
  · by_cases same : b = (world.engine.savedData ch).savedBuf
    · rw [← same, live, Option.some.injEq] at liveNamed
      subst liveNamed
      rw [same]
      exact ⟨_, Function.update_self _ _ _, rfl, rfl, rfl, rfl⟩
    · exact ⟨buf, (Function.update_of_ne same _ _).trans live, rfl, rfl, rfl, rfl⟩

end World

end FpgaPcie.Mprace
