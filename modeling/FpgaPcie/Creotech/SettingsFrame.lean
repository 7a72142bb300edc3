import FpgaPcie.Creotech.MappingBalance

/-!
# What the settings leave alone

`SET_DMACOUNT`, `SET_TLPSIZE` and `SET_TLPCOUNT` set one field each. There is no `break` behind
the last, which goes on to fill the buffer with a byte of its argument, a pointer.
-/

namespace FpgaPcie.Creotech

open FpgaPcie.Transition

set_option autoImplicit false

section Bytes

variable (target source : Bytes) {index count : ℕ}

theorem copy_other (outside : ¬index < count) : target.copy source count index = target index := by
  rw [Bytes.copy, if_neg outside]

theorem fill_other {value : U8} (outside : ¬index < count) :
    target.fill value count index = target index := by
  rw [Bytes.fill, if_neg outside]

theorem fill_same_iff (value : U8) (count : ℕ) :
    target.fill value count = target ↔ ∀ index < count, target index = value := by
  constructor
  · intro same index inside
    rw [← same, Bytes.fill, if_pos inside]
  · intro filled
    funext index
    by_cases inside : index < count
    · rw [Bytes.fill, if_pos inside, filled index inside]
    · exact fill_other target inside

theorem write_bus_here {base size address : ℕ} {value : U8} (here : address = base + index)
    (inside : index < size) : target.writeBus base size address value index = value := by
  have bounds : base ≤ address ∧ address < base + size := by omega
  have place : address - base = index := by omega
  rw [Bytes.writeBus, if_pos bounds, place, Function.update_self]

theorem write_bus_other {base size address : ℕ} {value : U8}
    (elsewhere : ¬(address = base + index ∧ index < size)) :
    target.writeBus base size address value index = target index := by
  rw [Bytes.writeBus]
  split
  · rename_i inside
    apply Function.update_of_ne
    intro here
    apply elsewhere
    omega
  · rfl

end Bytes

namespace Request

def sets : Request → Bool
  | .setDmaCount _ => true
  | .setTlpSize _ _ => true
  | .setTlpCount _ _ => true
  | .resetCard => false
  | .stream _ => false

/-- The descriptor without the parameter that the command sets. -/
def others (request : Request) (descr : PcieDescr) : PcieDescr :=
  match request with
  | .setDmaCount _ => { descr with dmaCount := 0#32 }
  | .setTlpSize _ _ => { descr with tlpSize := 0#32 }
  | .setTlpCount _ _ => { descr with tlpCount := 0#32 }
  | .resetCard => descr
  | .stream _ => descr

end Request

/-- A command changes its own parameter at most, and that only when it returns 0. -/
structure SetsOnlyOwn (request : Request) (state after : CharDevice) : Prop where
  others : request.others after.device.stream.descr = request.others state.device.stream.descr
  refused : after.device.ret ≠ 0#32 → after.device.stream.descr = state.device.stream.descr
  buffer : after.buffer = state.buffer

/-- No accepted `SET_TLPCOUNT`, unless the buffer is full of the byte already. -/
def FillsNothing (state : CharDevice) (action : CharAction) : Prop :=
  ∀ request arg, action = .request request arg → request.fallsThrough = true →
    ∀ index < 2 * bufSize, state.buffer index = arg.setWidth 8

/-- A byte of a DMA, of a `write` or of `MEMSET_WRITEBUFFER` that is meant for this place of the
buffer. -/
def Targets (state : CharDevice) (action : CharAction) (index : ℕ) : Prop :=
  match action with
  | .arrive dma byte _ => ∃ started, state.device.stream.card.dmas[dma]? = some started ∧
      started.address.toNat + byte = state.device.stream.descr.bufferHwAddr.toNat + index ∧
      index < 2 * bufSize
  | .proceed _ => ∃ transfer, state.transfer = some transfer ∧ transfer.point = .copyIn ∧
      index < transferLength
  | .memsetWriteBuffer _ => index < 2 * bufSize
  | .request _ _ => False
  | .unknown => False
  | .read _ _ => False
  | .write _ _ => False

section Steps

variable {state after : CharDevice}

theorem fills_nothing_iff (request : Request) (arg : U64) (device : Device) :
    (state.serve request arg device).buffer = state.buffer ↔
      FillsNothing state (.request request arg) := by
  show (if request.fallsThrough then state.memset arg else state.buffer) = state.buffer ↔ _
  cases through : request.fallsThrough with
  | true =>
      rw [if_pos rfl, CharDevice.memset, fill_same_iff]
      constructor
      · intro filled other pointer is _
        cases is
        exact filled
      · intro fills
        exact fills request arg rfl through
  | false =>
      constructor
      · intro _ other pointer is falls
        cases is
        rw [through] at falls
        cases falls
      · intro _
        rfl

theorem sets_device {request : Request} {device : Device} (sets : Sets state.device request device) :
    request.others device.stream.descr = request.others state.device.stream.descr ∧
      (device.ret ≠ 0#32 → device.stream.descr = state.device.stream.descr) := by
  cases sets with
  | resetCard => exact ⟨rfl, fun _ => rfl⟩
  | dmaCount | tlpSize | tlpCount => exact ⟨rfl, fun failed => absurd rfl failed⟩
  | tlpSizeRefused | tlpCountRefused => exact ⟨rfl, fun _ => rfl⟩

theorem sets_own_iff {request : Request} {arg : U64} (sets : request.sets = true)
    (moves : CharMoves state (.request request arg) after) :
    SetsOnlyOwn request state after ↔ FillsNothing state (.request request arg) := by
  cases moves with
  | interrupts | begins | moves => cases sets
  | sets request arg device idle call step =>
      have own := sets_device step
      constructor
      · intro only
        exact (fills_nothing_iff request arg device).mp only.buffer
      · intro fills
        exact ⟨own.1, own.2, (fills_nothing_iff request arg device).mpr fills⟩

theorem untargeted_step {action : CharAction} {index : ℕ} (fills : FillsNothing state action)
    (other : ¬Targets state action index) (moves : CharMoves state action after) :
    after.buffer index = state.buffer index := by
  cases moves with
  | interrupts dma arg stream comes => rfl
  | begins command arg idle call => rfl
  | moves event arg running after idle call step => rfl
  | sets request arg after idle call step =>
      exact congrFun ((fills_nothing_iff request arg after).mpr fills) index
  | memsets arg idle call => exact fill_other state.buffer other
  | refuses idle call => rfl
  | reads count user idle call => rfl
  | writes count user idle call => rfl
  | transfers event transfer after at_ step =>
      cases step with
      | copiesIn point =>
          apply copy_other
          intro inside
          exact other ⟨transfer, at_, point, inside⟩
      | programs point | starts point | clears point | done point is | sleeps point is
      | signalled point | finishes point => rfl
  | arrives dma byte value started there writes running inside =>
      apply write_bus_other
      intro here
      exact other ⟨started, there, here.1, here.2⟩

end Steps

theorem untargeted_run {state after : CharDevice} {actions : List CharAction} {index : ℕ}
    (run : charSystem.runFrom state actions = some after)
    (along : charSystem.Along (fun state action =>
      FillsNothing state action ∧ ¬Targets state action index) state actions) :
    after.buffer index = state.buffer index := by
  induction actions generalizing state with
  | nil =>
      cases run
      rfl
  | cons action rest ih =>
      rcases System.run_from_cons run with ⟨middle, step, later⟩
      rcases (System.along_cons step).mp along with ⟨here, further⟩
      rw [ih later further]
      exact untargeted_step here.1 here.2 (char_cases step)

/-- A setting disturbs nothing exactly if it fills nothing; and where none does, a byte stays
until something is meant for it. -/
theorem settings_disturb_nothing_iff (state : CharDevice) :
    (∀ request arg after, request.sets = true →
      charSystem.step state (.request request arg) = some after →
      (SetsOnlyOwn request state after ↔ FillsNothing state (.request request arg))) ∧
    ∀ actions after index, charSystem.runFrom state actions = some after →
      charSystem.Along (fun state action => FillsNothing state action ∧
        ¬Targets state action index) state actions →
      after.buffer index = state.buffer index := by
  constructor
  · intro request arg after sets step
    exact sets_own_iff sets (char_cases step)
  · intro actions after index run along
    exact untargeted_run run along

/-- The number of packets may be set on a buffer of zeros through a pointer that ends in a
zero. -/
theorem settings_disturb_nothing_zeros :
    (∃ after, charSystem.step probedChar (.request (.setTlpCount 64#32 64#32) 0x1000#64) =
        some after ∧ (SetsOnlyOwn (.setTlpCount 64#32 64#32) probedChar after ↔
      FillsNothing probedChar (.request (.setTlpCount 64#32 64#32) 0x1000#64))) ∧
    ∃ after, charSystem.runFrom probedChar [.request (.setTlpSize 16#32 16#32) 0x1000#64] =
        some after ∧ after.buffer 0 = 0#8 := by
  constructor
  · refine ⟨_, rfl, ?_⟩
    exact (settings_disturb_nothing_iff probedChar).1 _ _ _ rfl rfl
  · refine ⟨_, rfl, ?_⟩
    apply (settings_disturb_nothing_iff probedChar).2
      [.request (.setTlpSize 16#32 16#32) 0x1000#64] _ 0 rfl
    constructor
    · constructor
      · intro request arg is falls
        cases is
        cases falls
      · exact id
    · intro after step
      trivial

/-- The card has written to the first half, which is handed out. -/
def delivered : List CharAction :=
  streamStarted ++ .arrive 0 0 0x2a#8 :: charInterrupt 0 :: streamNext

theorem tlp_count_fills_half :
    ∃ before after, charSystem.runFrom probedChar delivered = some before ∧
      before.device.stream.handed = [0#32] ∧ before.buffer 0 = 0x2a#8 ∧
      charSystem.step before (.request (.setTlpCount 128#32 128#32) 0x1000#64) = some after ∧
      after.device.ret = 0#32 ∧ after.buffer 0 = 0#8 ∧
      ¬Targets before (.request (.setTlpCount 128#32 128#32) 0x1000#64) 0 ∧
      ¬SetsOnlyOwn (.setTlpCount 128#32 128#32) before after := by
  refine ⟨_, _, rfl, rfl, rfl, rfl, rfl, rfl, id, ?_⟩
  intro only
  have same := congrFun only.buffer 0
  exact absurd same (by decide)

end FpgaPcie.Creotech
