import FpgaPcie.Mprace.Board
import FpgaPcie.Mprace.RequestRange

/-!
# Transfers of the boards

`writeDMA`, `writeDMAFIFO`, `readDMA` and `readDMAFIFO` look at the address and hand the rest
of their arguments on to the engine, which multiplies the address by four in 32 bits. The end
of the range on the board is not looked at, and both write functions keep their timeout to
themselves.
-/

namespace FpgaPcie.Mprace

open FpgaPcie.Segments DMADescriptorWG

set_option autoImplicit false

def dmaMem : U32 := 1
def dmaFifo : U32 := 2

inductive DmaFunction where
  | writeDMA
  | writeDMAFIFO
  | readDMA
  | readDMAFIFO
  deriving DecidableEq, Repr

structure DmaArguments (Time : Type) where
  address : U32
  count : U32
  offset : U32
  inc : Bool
  lock : Bool
  timeout : Time

/-- The arguments of `host2board` (channel 0) or `board2host` (channel 1). -/
structure EngineCall (Time : Type) where
  channel : Channel
  request : Request
  lock : Bool
  timeout : Time

section Functions

variable {Time : Type} [Zero Time]

def DmaArguments.request (args : DmaArguments Time) (bar : U32) : Request :=
  ⟨bar, args.address, args.count, args.offset, args.inc⟩

section Request

omit [Zero Time]

variable (args : DmaArguments Time) (bar : U32)

@[simp] theorem request_bar : (args.request bar).bar = bar := rfl
@[simp] theorem request_addr : (args.request bar).addr = args.address := rfl
@[simp] theorem request_count : (args.request bar).count = args.count := rfl
@[simp] theorem request_offset : (args.request bar).offset = args.offset := rfl
@[simp] theorem request_inc : (args.request bar).inc = args.inc := rfl

end Request

/-- `dma->host2board(bar, address, buf, count, offset, inc, lock)`, which leaves the timeout to
its default. -/
def toBoard (bar : U32) (args : DmaArguments Time) : EngineCall Time :=
  ⟨0, args.request bar, args.lock, 0⟩

def toHost (bar : U32) (args : DmaArguments Time) : EngineCall Time :=
  ⟨1, args.request bar, args.lock, args.timeout⟩

def guarded (size : U32) (args : DmaArguments Time) (call : EngineCall Time) :
    Except BoardException (EngineCall Time) :=
  if size ≤ args.address then .error .addressOutOfRange else .ok call

/-- The guard of `ABB` for its memory. -/
def guardedLength (size : U32) (args : DmaArguments Time) (call : EngineCall Time) :
    Except BoardException (EngineCall Time) :=
  if size ≤ args.address then .error .addressOutOfRange
  else if args.inc then if 8192 < args.count then .error .oversizedTransfer else .ok call
  else .ok call

variable (windows : Windows) (args : DmaArguments Time)

namespace ABB

def writeDMA := guardedLength windows.memSize args (toBoard dmaMem args)
def writeDMAFIFO := guarded windows.fifoSize args (toBoard dmaFifo args)
def readDMA := guardedLength windows.memSize args (toHost dmaMem args)
def readDMAFIFO := guarded windows.fifoSize args (toHost dmaFifo args)

end ABB

namespace ML605

def writeDMA := guarded windows.memSize args (toBoard dmaMem args)
def writeDMAFIFO := guarded windows.fifoSize args (toBoard dmaFifo args)
def readDMA := guarded windows.memSize args (toHost dmaMem args)
def readDMAFIFO := guarded windows.fifoSize args (toHost dmaFifo args)

end ML605

def BoardClass.dma : BoardClass → DmaFunction → Except BoardException (EngineCall Time)
  | .abb, .writeDMA => ABB.writeDMA windows args
  | .abb, .writeDMAFIFO => ABB.writeDMAFIFO windows args
  | .abb, .readDMA => ABB.readDMA windows args
  | .abb, .readDMAFIFO => ABB.readDMAFIFO windows args
  | .ml605, .writeDMA => ML605.writeDMA windows args
  | .ml605, .writeDMAFIFO => ML605.writeDMAFIFO windows args
  | .ml605, .readDMA => ML605.readDMA windows args
  | .ml605, .readDMAFIFO => ML605.readDMAFIFO windows args

end Functions

/-- How a transfer function ended, by an exception of its own or of the engine if any. -/
structure DmaEnd where
  thrown : Option (BoardException ⊕ Exception)
  world : World

section Transfer

variable {Time : Type} [Zero Time] [LT Time] [DecidableLT Time]

def BoardClass.transfer (board : BoardClass) (function : DmaFunction) (windows : Windows)
    (args : DmaArguments Time) (world : World) (b : BufId) (env : Environment Time) (fuel : ℕ) :
    Option DmaEnd :=
  match board.dma windows args function with
  | .error exception => some ⟨some (.inl exception), world⟩
  | .ok call =>
      (world.transfer call.channel b call.request
        (if call.lock then some (call.timeout, env) else none) fuel).map fun waited =>
          ⟨waited.thrown.map .inr, waited.world⟩

end Transfer

/-- The search for the start stays in the list when the list is long enough. Its running count
never wraps, as it stays below what is searched for. -/
theorem find_init_descriptor_found_iff (wanted : U32) (list : List DMADescriptorWG) (init : ℕ)
    (byteCount : U32) : (findInitDescriptor wanted list init byteCount).1 < init + list.length ↔
      list ≠ [] ∧ wanted.toNat ≤ byteCount.toNat + totalLength (segments list) := by
  induction list generalizing init byteCount with
  | nil => simp [findInitDescriptor]
  | cons d rest ih =>
      simp only [ne_eq, reduceCtorEq, not_false_eq_true, true_and, segments_cons,
        total_length_cons, segment_length, List.length_cons]
      by_cases skip : byteCount.toNat + d.native.length.toNat < wanted.toNat
      · have advanced := passed_word skip
        have later := ih (init + 1) ((byteCount.setWidth 64 + d.getLength).setWidth 32)
        have position : init + (rest.length + 1) = init + 1 + rest.length := by omega
        rw [findInitDescriptor, if_pos (passed_lt_iff.mpr skip), position, later, advanced]
        cases rest with
        | nil =>
            simp only [ne_eq, not_true_eq_false, false_and, false_iff, segments, List.map_nil,
              totalLength, List.sum_nil]
            omega
        | cons next others =>
            simp only [ne_eq, reduceCtorEq, not_false_eq_true, true_and]
            omega
      · rw [findInitDescriptor, if_neg (fun less => skip (passed_lt_iff.mp less))]
        simp only
        omega

def BeginsInList (buf : DMABuffer) (offset : U32) : Prop :=
  buf.hasList = true → buf.descriptors ≠ [] ∧
    4 * offset.toNat % 2 ^ 32 ≤ totalLength (segments buf.descriptors)

instance (buf : DMABuffer) (offset : U32) : Decidable (BeginsInList buf offset) := by
  unfold BeginsInList
  infer_instance

theorem init_position_found_iff (request : Request) (list : List DMADescriptorWG) :
    (initPosition request list).1 < list.length ↔
      list ≠ [] ∧ 4 * request.offset.toNat % 2 ^ 32 ≤ totalLength (segments list) := by
  have scaled : (request.offset * 4).toNat = 4 * request.offset.toNat % 2 ^ 32 := by
    rw [BitVec.toNat_mul, Nat.mul_comm]
    rfl
  unfold initPosition
  split
  · have search := find_init_descriptor_found_iff (request.offset * 4) list 0 0
    rw [Nat.zero_add, scaled] at search
    simpa using search
  · rename_i start
    rw [ne_eq, not_not] at start
    rw [start]
    simp [List.length_pos_iff]

theorem program_whole_some_iff (word : U32) (buf : BufId) (request : Request)
    (list : List DMADescriptorWG) :
    (∃ programmed, programWhole word buf request list = some programmed) ↔ list ≠ [] := by
  constructor
  · intro some_ empty
    rcases some_ with ⟨programmed, result⟩
    rw [empty] at result
    cases result
  · intro nonempty
    have positive := List.length_pos_iff.mpr nonempty
    have inside : list.length - 1 < list.length := by omega
    unfold programWhole
    simp only
    generalize marked : (if 2 < list.length then list.modify 1 (setControl32 word) else list).modify
      (list.length - 1) (setControl32 (word ||| ctrlLast)) = edited
    have length : edited.length = list.length := by
      rw [← marked, List.length_modify]
      split
      · exact List.length_modify _ _ _
      · rfl
    rw [List.getElem?_eq_getElem (length ▸ inside), List.getElem?_eq_getElem (length ▸ positive)]
    exact ⟨_, rfl⟩

theorem program_partial_some_iff (word : U32) (buf : BufId) (request : Request)
    (list : List DMADescriptorWG) :
    (∃ programmed, programPartial word buf request list = some programmed) ↔
      (initPosition request list).1 < list.length := by
  unfold programPartial
  generalize initPosition request list = position
  simp only
  generalize findLastDescriptor position.1 position.2 (list.drop position.1) position.1
    (request.count * 4) = search
  split
  · rename_i missing
    rw [List.getElem?_eq_none_iff] at missing
    simp only [apply_ite List.length, List.length_modify, ite_self] at missing
    constructor
    · intro some_
      cases some_
      contradiction
    · intro inside
      omega
  · rename_i first found
    have inside := (List.getElem?_eq_some_iff.mp found).1
    simp only [apply_ite List.length, List.length_modify, ite_self] at inside
    exact ⟨fun _ => inside, fun _ => ⟨_, rfl⟩⟩

/-- Programming indexes past the list exactly when the transfer begins behind it. -/
theorem program_list_some_iff (word : U32) (buf : BufId) (size : U32) (request : Request)
    (list : List DMADescriptorWG) :
    (∃ programmed, programList word buf size request list = some programmed) ↔
      list ≠ [] ∧ 4 * request.offset.toNat % 2 ^ 32 ≤ totalLength (segments list) := by
  unfold programList
  split
  · rename_i whole
    rw [program_whole_some_iff, whole.1]
    simp
  · rw [program_partial_some_iff, init_position_found_iff]

theorem start_some_iff {world : World} {b : BufId} {buf : DMABuffer}
    (live : world.bufs b = some buf) (ch : Channel) (request : Request) :
    (∃ started, world.start ch b request = some started) ↔ BeginsInList buf request.offset := by
  unfold BeginsInList
  cases listed : buf.hasList with
  | false =>
      cases memory : buf.memory with
      | kernel kBuf =>
          rw [World.start_kernel ch request live kBuf memory]
          simp
      | kernelPieces kBuf pieces => simp [DMABuffer.hasList, memory] at listed
      | user entries => simp [DMABuffer.hasList, memory] at listed
  | true =>
      rw [World.start_list ch request live listed, ← program_list_some_iff
        (controlWord world.engine.oldRegisters world.engine.useInterrupts request) b buf.size]
      simp only [Option.map_eq_some_iff, forall_const]
      constructor
      · intro both
        rcases both with ⟨started, programmed, result, -⟩
        exact ⟨programmed, result⟩
      · intro some_
        rcases some_ with ⟨programmed, result⟩
        exact ⟨_, programmed, result, rfl⟩

theorem program_list_peripheral (word : U32) (buf : BufId) (size : U32) (request : Request)
    (list : List DMADescriptorWG) {programmed : Programmed}
    (result : programList word buf size request list = some programmed) :
    programmed.temp.getPeripheralAddress = (request.addr * 4).setWidth 64 := by
  obtain ⟨alone, d, copied⟩ := program_list_temp word buf size request list result
  rw [copied]
  exact peripheral_address_set d _

def boardAddress (world : World) (ch : Channel) : U64 :=
  join (world.engine.channel ch).perAddrH (world.engine.channel ch).perAddrL

theorem written_channel (engine : DMAEngineWG) (ch : Channel) (d : DMADescriptorWG) :
    (engine.write ch d).channel ch = d.native := by
  simp [DMAEngineWG.write]

theorem started_board_address {world started : World} {ch : Channel} {b : BufId}
    {request : Request} (result : world.start ch b request = some started) :
    boardAddress started ch = (request.addr * 4).setWidth 64 := by
  obtain ⟨buf, -, kernel | list⟩ := World.start_cases result
  · rcases kernel with ⟨kBuf, -, rfl⟩
    unfold boardAddress World.afterKernel
    rw [written_channel]
    exact high_low_join _
  · rcases list with ⟨-, programmed, programming, rfl⟩
    unfold boardAddress World.afterList
    rw [written_channel]
    exact program_list_peripheral _ b buf.size request buf.descriptors programming

namespace DmaFunction

def bar : DmaFunction → U32
  | .writeDMA | .readDMA => dmaMem
  | .writeDMAFIFO | .readDMAFIFO => dmaFifo

def Writes : DmaFunction → Prop
  | .writeDMA | .writeDMAFIFO => True
  | .readDMA | .readDMAFIFO => False

end DmaFunction

/-- The size in words of the window behind a base address register. -/
def windowSize (windows : Windows) (bar : U32) : ℕ :=
  if bar = dmaMem then windows.memSize.toNat else windows.fifoSize.toNat

/-- The words on the board that a request is about, computed without overflow. -/
def Names (request : Request) (word : ℕ) : Prop :=
  if request.inc then
    request.addr.toNat ≤ word ∧ word < request.addr.toNat + request.count.toNat
  else word = request.addr.toNat

section Window

variable {Time : Type} [Zero Time]

structure Starts (board : BoardClass) (function : DmaFunction) (windows : Windows)
    (args : DmaArguments Time) (world : World) (b : BufId) (buf : DMABuffer)
    (call : EngineCall Time) (started : World) : Prop where
  called : board.dma windows args function = .ok call
  accepted : checkRequest buf call.request = none
  started : world.start call.channel b call.request = some started

def Refused (board : BoardClass) (function : DmaFunction) (windows : Windows)
    (args : DmaArguments Time) (buf : DMABuffer) : Prop :=
  windowSize windows function.bar ≤ args.address.toNat ∨
    (board = .abb ∧ function.bar = dmaMem ∧ args.inc = true ∧ 8192 < args.count.toNat) ∨
    args.count.toNat = 0 ∨
    buf.size.toNat < 4 * ((args.offset.toNat + args.count.toNat) % 2 ^ 32)

structure WellPlaced (function : DmaFunction) (windows : Windows) (args : DmaArguments Time)
    (buf : DMABuffer) : Prop where
  begins : BeginsInList buf args.offset
  ends : args.inc = true →
    args.address.toNat + args.count.toNat ≤ windowSize windows function.bar
  scales : 4 * args.address.toNat < 2 ^ 32
  waits : function.Writes → args.timeout = 0

def DmaFunction.engineCall (args : DmaArguments Time) : DmaFunction → EngineCall Time
  | .writeDMA => toBoard dmaMem args
  | .writeDMAFIFO => toBoard dmaFifo args
  | .readDMA => toHost dmaMem args
  | .readDMAFIFO => toHost dmaFifo args

theorem engine_call_request (function : DmaFunction) (args : DmaArguments Time) :
    (function.engineCall args).request = args.request function.bar := by
  cases function <;> rfl

theorem engine_call_lock (function : DmaFunction) (args : DmaArguments Time) :
    (function.engineCall args).lock = args.lock := by
  cases function <;> rfl

theorem engine_call_timeout (function : DmaFunction) (args : DmaArguments Time) :
    (function.engineCall args).timeout = args.timeout ↔ (function.Writes → args.timeout = 0) := by
  have swap : (0 : Time) = args.timeout ↔ args.timeout = 0 := eq_comm
  cases function <;>
    simp [DmaFunction.engineCall, toBoard, toHost, DmaFunction.Writes, swap]

omit [Zero Time] in
theorem guarded_ok_iff {size : U32} {args : DmaArguments Time} {call result : EngineCall Time} :
    guarded size args call = .ok result ↔ args.address.toNat < size.toNat ∧ result = call := by
  unfold guarded
  split
  · rename_i outside
    have apart := BitVec.le_def.mp outside
    simp only [reduceCtorEq, false_iff, not_and]
    omega
  · rename_i inside
    have within := BitVec.lt_def.mp (BitVec.not_le.mp inside)
    simp only [Except.ok.injEq, within, true_and]
    exact eq_comm

omit [Zero Time] in
theorem guarded_length_ok_iff {size : U32} {args : DmaArguments Time}
    {call result : EngineCall Time} : guardedLength size args call = .ok result ↔
      args.address.toNat < size.toNat ∧ ¬(args.inc = true ∧ 8192 < args.count.toNat) ∧
        result = call := by
  have limit : (8192 : U32) < args.count ↔ 8192 < args.count.toNat := BitVec.lt_def
  have shorter : guardedLength size args call =
      if args.inc = true ∧ 8192 < args.count then
        if size ≤ args.address then .error .addressOutOfRange else .error .oversizedTransfer
      else guarded size args call := by
    unfold guardedLength guarded
    by_cases outside : size ≤ args.address
    · simp only [if_pos outside, ite_self]
    · cases args.inc <;> simp [outside]
  rw [shorter, ← limit]
  by_cases long : args.inc = true ∧ 8192 < args.count
  · rw [if_pos long]
    constructor
    · intro forwarded
      split at forwarded <;> cases forwarded
    · intro all
      exact absurd long all.2.1
  · rw [if_neg long, guarded_ok_iff]
    simp only [long, not_false_eq_true, true_and]

theorem dma_ok_iff {board : BoardClass} {function : DmaFunction} {windows : Windows}
    {args : DmaArguments Time} {call : EngineCall Time} :
    board.dma windows args function = .ok call ↔
      args.address.toNat < windowSize windows function.bar ∧
        ¬(board = .abb ∧ function.bar = dmaMem ∧ args.inc = true ∧ 8192 < args.count.toNat) ∧
        call = function.engineCall args := by
  have apart : ¬dmaFifo = dmaMem := by decide
  cases board <;> cases function <;>
    simp only [BoardClass.dma, ABB.writeDMA, ABB.writeDMAFIFO, ABB.readDMA, ABB.readDMAFIFO,
      ML605.writeDMA, ML605.writeDMAFIFO, ML605.readDMA, ML605.readDMAFIFO, guarded_ok_iff,
      guarded_length_ok_iff, DmaFunction.bar, DmaFunction.engineCall, windowSize, apart, if_true,
      if_false, true_and, false_and, reduceCtorEq, not_false_eq_true]

variable {board : BoardClass} {function : DmaFunction} {windows : Windows}
  {args : DmaArguments Time} {world : World} {b : BufId} {buf : DMABuffer}

theorem starts_call {call : EngineCall Time} {started : World}
    (starts : Starts board function windows args world b buf call started) :
    call = function.engineCall args := (dma_ok_iff.mp starts.called).2.2

theorem checks_passed_iff : ¬Refused board function windows args buf ↔
    board.dma windows args function = .ok (function.engineCall args) ∧
      checkRequest buf (function.engineCall args).request = none := by
  rw [dma_ok_iff, check_request_none_iff, engine_call_request]
  unfold Refused
  simp only [request_count, request_offset, and_true, not_or, not_le, not_lt,
    Nat.pos_iff_ne_zero, and_assoc]

theorem starts_iff (live : world.bufs b = some buf) :
    (∃ call started, Starts board function windows args world b buf call started) ↔
      ¬Refused board function windows args buf ∧ BeginsInList buf args.offset := by
  have reached : (function.engineCall args).request.offset = args.offset := by
    rw [engine_call_request, request_offset]
  rw [checks_passed_iff, ← reached, ← start_some_iff live (function.engineCall args).channel]
  constructor
  · intro some_
    rcases some_ with ⟨call, started, starts⟩
    have same := starts_call starts
    subst same
    exact ⟨⟨starts.called, starts.accepted⟩, started, starts.started⟩
  · intro all
    rcases all with ⟨⟨called, accepted⟩, started, result⟩
    exact ⟨_, started, called, accepted, result⟩

theorem scaled_iff (address : U32) :
    ((address * 4).setWidth 64 : U64).toNat = 4 * address.toNat ↔ 4 * address.toNat < 2 ^ 32 := by
  have bound := address.isLt
  have four : (4 : U32).toNat = 4 := rfl
  rw [BitVec.toNat_setWidth, BitVec.toNat_mul, four]
  omega

omit [Zero Time] in
theorem names_inside_iff {bar : U32} {size : ℕ} (nonempty : 0 < args.count.toNat)
    (guard : args.address.toNat < size) : (∀ word, Names (args.request bar) word → word < size) ↔
      (args.inc = true → args.address.toNat + args.count.toNat ≤ size) := by
  unfold Names
  simp only [request_addr, request_count, request_inc]
  by_cases inc : args.inc = true
  · simp only [inc, if_true, forall_const]
    constructor
    · intro inside
      have last := inside (args.address.toNat + args.count.toNat - 1) (by omega)
      omega
    · intro ends word named
      omega
  · simp [inc, guard]

variable [LT Time] [DecidableLT Time]

/-- A transfer that starts stays in its window and reaches the engine as it was asked for; any
other call throws and leaves everything as it was. -/
structure KeepsToWindow (board : BoardClass) (function : DmaFunction) (windows : Windows)
    (args : DmaArguments Time) (world : World) (b : BufId) (buf : DMABuffer) : Prop where
  inside : ∀ call started, Starts board function windows args world b buf call started →
    ∀ word, Names call.request word → word < windowSize windows call.request.bar
  scaled : ∀ call started, Starts board function windows args world b buf call started →
    (boardAddress started call.channel).toNat = 4 * args.address.toNat
  unchanged : ∀ call started, Starts board function windows args world b buf call started →
    call.lock = args.lock ∧ call.timeout = args.timeout ∧ call.request.offset = args.offset ∧
      call.request.count = args.count
  otherwise : (¬∃ call started, Starts board function windows args world b buf call started) →
    ∃ exception, ∀ env fuel,
      board.transfer function windows args world b env fuel = some ⟨some exception, world⟩

theorem transfer_called {call : EngineCall Time}
    (called : board.dma windows args function = .ok call) (env : Environment Time) (fuel : ℕ) :
    board.transfer function windows args world b env fuel =
      (world.transfer call.channel b call.request
        (if call.lock then some (call.timeout, env) else none) fuel).map fun waited =>
          ⟨waited.thrown.map .inr, waited.world⟩ := by
  unfold BoardClass.transfer
  rw [called]

theorem refused_throws (live : world.bufs b = some buf)
    (refused : Refused board function windows args buf) :
    ∃ exception, ∀ env fuel,
      board.transfer function windows args world b env fuel = some ⟨some exception, world⟩ := by
  cases called : board.dma windows args function with
  | error exception =>
      exists .inl exception
      intro env fuel
      unfold BoardClass.transfer
      rw [called]
  | ok call =>
      cases checked : checkRequest buf call.request with
      | none =>
          have same := (dma_ok_iff.mp called).2.2
          subst same
          exact absurd refused (checks_passed_iff.mpr ⟨called, checked⟩)
      | some exception =>
          exists .inr exception
          intro env fuel
          rw [transfer_called called, World.transfer_eq live, checked]
          rfl

/-- Past the checks, only a transfer that begins in the list comes to an end. -/
theorem keeps_begins (live : world.bufs b = some buf)
    (keeps : KeepsToWindow board function windows args world b buf)
    (passed : ¬Refused board function windows args buf) : BeginsInList buf args.offset := by
  by_contra behind
  have stuck : ¬∃ call started, Starts board function windows args world b buf call started := by
    rw [starts_iff live]
    exact fun both => behind both.2
  obtain ⟨exception, thrown⟩ := keeps.otherwise stuck
  obtain ⟨called, accepted⟩ := checks_passed_iff.mp passed
  have idle := thrown ⟨fun _ => 0, fun _ => 0, fun _ => false, none, none, id⟩ 0
  rw [transfer_called called, World.transfer_eq live, accepted] at idle
  cases result : world.start (function.engineCall args).channel b
      (function.engineCall args).request with
  | none =>
      simp only [result] at idle
      cases idle
  | some started => exact stuck ⟨_, started, called, accepted, result⟩

/-- The guards are enough for transfers whose last word is in the window, whose byte address
fits into 32 bits and which do not rely on the timeout of a write. -/
theorem dma_keeps_to_window_iff (live : world.bufs b = some buf) :
    KeepsToWindow board function windows args world b buf ↔
      Refused board function windows args buf ∨ WellPlaced function windows args buf := by
  by_cases refused : Refused board function windows args buf
  · simp only [refused, true_or, iff_true]
    have idle : ∀ call started, ¬Starts board function windows args world b buf call started :=
      fun call started starts => ((starts_iff live).mp ⟨call, started, starts⟩).1 refused
    constructor
    · exact fun call started starts => absurd starts (idle call started)
    · exact fun call started starts => absurd starts (idle call started)
    · exact fun call started starts => absurd starts (idle call started)
    · exact fun _ => refused_throws live refused
  have guard : args.address.toNat < windowSize windows function.bar :=
    Nat.lt_of_not_le fun outside => refused (Or.inl outside)
  have nonempty : 0 < args.count.toNat :=
    Nat.pos_of_ne_zero fun zero => refused (Or.inr (Or.inr (Or.inl zero)))
  have request := engine_call_request function args
  simp only [refused, false_or]
  constructor
  · intro keeps
    have begins := keeps_begins live keeps refused
    obtain ⟨call, started, starts⟩ := (starts_iff live).mpr ⟨refused, begins⟩
    have same := starts_call starts
    subst same
    constructor
    · exact begins
    · have inside := keeps.inside _ started starts
      rw [request] at inside
      exact (names_inside_iff nonempty guard).mp inside
    · have scaled := keeps.scaled _ started starts
      rw [started_board_address starts.started, request] at scaled
      exact (scaled_iff args.address).mp scaled
    · exact (engine_call_timeout function args).mp (keeps.unchanged _ started starts).2.1
  · intro placed
    constructor
    · intro call started starts
      rw [starts_call starts, request]
      exact (names_inside_iff nonempty guard).mpr placed.ends
    · intro call started starts
      rw [started_board_address starts.started, starts_call starts, request]
      exact (scaled_iff args.address).mpr placed.scales
    · intro call started starts
      have waits := (engine_call_timeout function args).mpr placed.waits
      rw [starts_call starts, request]
      exact ⟨engine_call_lock function args, waits, rfl, rfl⟩
    · intro idle
      exact absurd ((starts_iff live).mpr ⟨refused, placed.begins⟩) idle

end Window

theorem dma_keeps_to_window_iff_one_page :
    KeepsToWindow .ml605 .readDMA ⟨1024, 0, 0⟩ (⟨1000, 24, 0, true, true, 5⟩ : DmaArguments ℕ)
        onePageWorld 0 ⟨.kernel 0x10000#64, 4096, [], [], []⟩ ↔
      Refused .ml605 .readDMA ⟨1024, 0, 0⟩ (⟨1000, 24, 0, true, true, 5⟩ : DmaArguments ℕ)
          ⟨.kernel 0x10000#64, 4096, [], [], []⟩ ∨
        WellPlaced .readDMA ⟨1024, 0, 0⟩ (⟨1000, 24, 0, true, true, 5⟩ : DmaArguments ℕ)
          ⟨.kernel 0x10000#64, 4096, [], [], []⟩ :=
  dma_keeps_to_window_iff rfl

theorem transfer_leaves_window :
    ¬KeepsToWindow .abb .readDMA ⟨1024, 0, 0⟩ (⟨1000, 100, 0, true, false, 0⟩ : DmaArguments ℕ)
      onePageWorld 0 ⟨.kernel 0x10000#64, 4096, [], [], []⟩ := by
  intro keeps
  have starts : Starts .abb .readDMA ⟨1024, 0, 0⟩
      (⟨1000, 100, 0, true, false, 0⟩ : DmaArguments ℕ) onePageWorld 0
      ⟨.kernel 0x10000#64, 4096, [], [], []⟩ ⟨1, ⟨1, 1000, 100, 0, true⟩, false, 0⟩ _ :=
    ⟨rfl, rfl, rfl⟩
  have below := keeps.inside _ _ starts 1024 ⟨by decide, by decide⟩
  exact absurd below (by decide)

end FpgaPcie.Mprace
