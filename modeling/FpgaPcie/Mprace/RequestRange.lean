import FpgaPcie.Mprace.SendExact
import FpgaPcie.Mprace.WaitChannel

/-!
# The range check of a transfer

`host2board` and `board2host` check the same range before they touch anything. The check
is exact but for sums that wrap in 32 bits: such a sum is small again, and a transfer far
behind the end of the buffer is started.
-/

namespace FpgaPcie.Mprace

set_option autoImplicit false

/-- The request lies in the buffer, computed without overflow. -/
def InRange (buf : DMABuffer) (request : Request) : Prop :=
  0 < request.count.toNat ∧ 4 * (request.offset.toNat + request.count.toNat) ≤ buf.size.toNat

instance (buf : DMABuffer) (request : Request) : Decidable (InRange buf request) :=
  instDecidableAnd

/-- The sum of offset and count does not fit into 32 bits, and what is left of it is in
range. -/
def SumWraps (buf : DMABuffer) (request : Request) : Prop :=
  0 < request.count.toNat ∧ 2 ^ 32 ≤ request.offset.toNat + request.count.toNat ∧
    4 * ((request.offset.toNat + request.count.toNat) % 2 ^ 32) ≤ buf.size.toNat

instance (buf : DMABuffer) (request : Request) : Decidable (SumWraps buf request) :=
  instDecidableAnd

section Check

variable {buf : DMABuffer} {request : Request}

theorem check_request_none_iff : checkRequest buf request = none ↔
    0 < request.count.toNat ∧
      4 * ((request.offset.toNat + request.count.toNat) % 2 ^ 32) ≤ buf.size.toNat := by
  constructor
  · exact accepted_range buf request
  · intro both
    rcases both with ⟨some_, inside⟩
    have sizeBound := buf.size.isLt
    have four : (4 : U64).toNat = 4 := rfl
    have nonzero : ¬request.count = 0 := by
      intro zero
      rw [zero] at some_
      exact absurd some_ (Nat.lt_irrefl 0)
    rw [checkRequest, if_neg nonzero, if_neg]
    rw [BitVec.lt_def, BitVec.toNat_mul, four, BitVec.toNat_setWidth, BitVec.toNat_setWidth,
      BitVec.toNat_add]
    omega

theorem check_request_none_iff_range_or_wraps :
    checkRequest buf request = none ↔ InRange buf request ∨ SumWraps buf request := by
  have sizeBound := buf.size.isLt
  have offsetBound := request.offset.isLt
  have countBound := request.count.isLt
  rw [check_request_none_iff, InRange, SumWraps]
  omega

theorem not_in_range_of_wraps (wraps : SumWraps buf request) : ¬InRange buf request := by
  have sizeBound := buf.size.isLt
  obtain ⟨-, wrapped, -⟩ := wraps
  intro both
  rcases both with ⟨-, inside⟩
  omega

def Exception.OfRequest : Exception → Prop
  | .emptyTransfer | .addressOutOfRange => True
  | _ => False

theorem check_request_thrown {exception : Exception}
    (refused : checkRequest buf request = some exception) : exception.OfRequest := by
  unfold checkRequest at refused
  split at refused
  · cases refused
    trivial
  · split at refused
    · cases refused
      trivial
    · cases refused

end Check

section Transfer

variable {Time : Type} [Zero Time] [LT Time] [DecidableLT Time]

namespace World

def behindStart (started : World) (ch : Channel) (b : BufId)
    (lock : Option (Time × Environment Time)) (fuel : ℕ) : Option Waited :=
  match lock with
  | none => some ⟨none, started, 0⟩
  | some (timeout, env) =>
      if ch = 0 then waitChannel started 0 timeout env fuel
      else
        (waitChannel (started.mapBuf b fun buf => buf.receive env.arrived) 1 timeout env fuel).map
          fun waited =>
            { waited with world := waited.world.mapBuf b fun buf => buf.sync .fromDevice }

theorem transfer_eq {world : World} {b : BufId} {buf : DMABuffer} (live : world.bufs b = some buf)
    (ch : Channel) (request : Request) (lock : Option (Time × Environment Time)) (fuel : ℕ) :
    world.transfer ch b request lock fuel =
      match checkRequest buf request with
      | some exception => some ⟨some exception, world, 0⟩
      | none => (world.start ch b request).bind fun started =>
          started.behindStart ch b lock fuel := by
  have flip : ¬(1 : Channel) = 0 := by decide
  rcases channel_cases ch with rfl | rfl
  · simp only [transfer, if_true, host2board, live, start, behindStart]
    cases checkRequest buf request with
    | some exception => rfl
    | none => cases world.startHost2board b request <;> rfl
  · simp only [transfer, if_neg flip, board2host, live, start, behindStart]
    cases checkRequest buf request with
    | some exception => rfl
    | none => cases world.startBoard2host b request <;> rfl

end World

variable (Time) in
/-- A request in range is started, which a filled list always allows; any other is answered
by an exception that leaves everything as it was. -/
structure RangeExact (world : World) (ch : Channel) (b : BufId) (buf : DMABuffer)
    (request : Request) : Prop where
  starts : InRange buf request → ∀ (lock : Option (Time × Environment Time)) fuel,
    world.transfer ch b request lock fuel =
      (world.start ch b request).bind fun started => started.behindStart ch b lock fuel
  started : InRange buf request → (buf.hasList = true → AsFilled buf.descriptors buf.size) →
    ∃ started, world.start ch b request = some started
  throws : ¬InRange buf request → ∃ exception : Exception, exception.OfRequest ∧
    ∀ (lock : Option (Time × Environment Time)) fuel,
      world.transfer ch b request lock fuel = some ⟨some exception, world, 0⟩

theorem start_some_of_range {world : World} {b : BufId} {buf : DMABuffer} {request : Request}
    (live : world.bufs b = some buf) (ch : Channel) (inRange : InRange buf request)
    (filled : buf.hasList = true → AsFilled buf.descriptors buf.size) :
    ∃ started, world.start ch b request = some started := by
  cases listed : buf.hasList with
  | false =>
      cases memory : buf.memory with
      | kernel kBuf => exact ⟨_, World.start_kernel ch request live kBuf memory⟩
      | kernelPieces kBuf pieces => simp [DMABuffer.hasList, memory] at listed
      | user entries => simp [DMABuffer.hasList, memory] at listed
  | true =>
      obtain ⟨offset, count⟩ := exact_range request buf.size inRange.2
      have range : byteOffset request + byteCount request ≤ buf.size.toNat := by
        have inside := inRange.2
        rw [offset, count]
        omega
      rw [World.start_list ch request live listed]
      rcases program_list_shape
          (controlWord world.engine.oldRegisters world.engine.useInterrupts request) b buf.size
          request buf.descriptors (filled listed) range with
        ⟨_, _, _, _, -, programmed⟩ | ⟨_, _, _, _, _, _, _, -, programmed⟩
      · rw [programmed]
        exact ⟨_, rfl⟩
      · rw [programmed]
        exact ⟨_, rfl⟩

variable (Time) in
/-- The check is exact for all sums but those that wrap into the buffer. -/
theorem range_exact_iff {world : World} {b : BufId} {buf : DMABuffer}
    (live : world.bufs b = some buf) (ch : Channel) (request : Request) :
    RangeExact Time world ch b buf request ↔ ¬SumWraps buf request := by
  constructor
  · intro exact_ wraps
    obtain ⟨exception, -, thrown⟩ := exact_.throws (not_in_range_of_wraps wraps)
    have accepted := check_request_none_iff_range_or_wraps.mpr (Or.inr wraps)
    have left := thrown none 0
    rw [World.transfer_eq live, accepted] at left
    cases started : world.start ch b request with
    | none =>
        simp only [started] at left
        cases left
    | some after =>
        simp only [started] at left
        cases left
  · intro plain
    constructor
    · intro inRange lock fuel
      rw [World.transfer_eq live, check_request_none_iff_range_or_wraps.mpr (Or.inl inRange)]
    · exact start_some_of_range live ch
    · intro outside
      cases checked : checkRequest buf request with
      | none =>
          rcases check_request_none_iff_range_or_wraps.mp checked with inRange | wraps
          · exact absurd inRange outside
          · exact absurd wraps plain
      | some exception =>
          refine ⟨exception, check_request_thrown checked, ?_⟩
          intro lock fuel
          rw [World.transfer_eq live, checked]

end Transfer

def onePageWorld : World where
  engine := DMAEngineWG.construct false (fun _ => DMADescriptorWG.unset.native) 0
  bufs := fun b => if b = 0 then
      some { memory := .kernel 0x10000#64, size := 4096, descriptors := [], host := [],
             bounce := [] }
    else none

/-- Two words from one word before the start, as the wrapped sum has it. -/
def wrappedRequest : Request := ⟨1, 0x20, 2, 0xffffffff#32, true⟩

theorem range_exact_iff_one_page :
    RangeExact ℕ onePageWorld 0 0 ⟨.kernel 0x10000#64, 4096, [], [], []⟩ wrappedRequest ↔
      ¬SumWraps ⟨.kernel 0x10000#64, 4096, [], [], []⟩ wrappedRequest :=
  range_exact_iff ℕ rfl 0 wrappedRequest

/-- Offset and count are far out of range, and the transfer is started. -/
theorem wrapped_sum_accepted :
    ¬RangeExact ℕ onePageWorld 0 0 ⟨.kernel 0x10000#64, 4096, [], [], []⟩ wrappedRequest ∧
    ¬InRange ⟨.kernel 0x10000#64, 4096, [], [], []⟩ wrappedRequest ∧
    ∃ started, onePageWorld.transfer 0 0 wrappedRequest (none : Option (ℕ × Environment ℕ)) 0 =
      some ⟨none, started, 0⟩ := by
  have outside : ¬InRange ⟨.kernel 0x10000#64, 4096, [], [], []⟩ wrappedRequest := by decide
  refine ⟨?_, outside, _, rfl⟩
  intro exact_
  obtain ⟨exception, -, thrown⟩ := exact_.throws outside
  cases thrown none 0

end FpgaPcie.Mprace
