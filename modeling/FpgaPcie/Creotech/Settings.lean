import FpgaPcie.Creotech.StreamStage

/-!
# The settings of the card

Three numbers decide how much the card writes: how many DMAs a call starts, and the size
and the count of the packets of each. They are set by ioctls between the stream calls. A
session keeps on record which call started a DMA and where the selected half was.
-/

namespace FpgaPcie.Creotech

open FpgaPcie.Transition

set_option autoImplicit false

def regRdmaTlpP : U32 := 0x018
def regRdmaTlpA : U32 := 0x01c
def regRdmaTlpS : U32 := 0x020
def regRdmaTlpC : U32 := 0x024

def einval : U32 := -22

namespace Stream

def fpgaInitDevice (stream : Stream) : Stream :=
  { stream with
    card := [(regDcsr, bitInitReset), (regDcsr, bitInit), (regDdmacr, 0x0#32),
      (regWdmaTlpA, stream.descr.bufferHwAddr.setWidth 32), (regWdmaTlpS, 0x32#32),
      (regWdmaTlpC, 0x128#32), (regWdmaTlpP, 0x1e2e3e4e#32), (regRdmaTlpP, 0xfeedbeef#32),
      (regRdmaTlpA, stream.descr.bufferHwAddr.setWidth 32), (regRdmaTlpS, 0x20#32),
      (regRdmaTlpC, 0x2000#32)].foldl (fun card write => card.writeReg write.1 write.2) stream.card }

def setDmaCount (stream : Stream) (count : U32) : Stream :=
  { stream with descr := { stream.descr with dmaCount := count } }

def setTlpSize (stream : Stream) (size : U32) : Stream :=
  { stream with descr := { stream.descr with tlpSize := size } }

def setTlpCount (stream : Stream) (count : U32) : Stream :=
  { stream with descr := { stream.descr with tlpCount := count } }

end Stream

theorem init_device_card (stream : Stream) :
    ∃ regs, stream.fpgaInitDevice.card = { stream.card with regs := regs } := by
  refine ⟨_, writes_idle _ stream.card ?_⟩
  simp only [List.forall_mem_cons]
  have dcsr : regDcsr ≠ regDdmacr := by decide
  have wdmaA : regWdmaTlpA ≠ regDdmacr := by decide
  have wdmaS : regWdmaTlpS ≠ regDdmacr := by decide
  have wdmaC : regWdmaTlpC ≠ regDdmacr := by decide
  have wdmaP : regWdmaTlpP ≠ regDdmacr := by decide
  have rdmaP : regRdmaTlpP ≠ regDdmacr := by decide
  have rdmaA : regRdmaTlpA ≠ regDdmacr := by decide
  have rdmaS : regRdmaTlpS ≠ regDdmacr := by decide
  have rdmaC : regRdmaTlpC ≠ regDdmacr := by decide
  exact ⟨Or.inl dcsr, Or.inl dcsr, Or.inr (by decide), Or.inl wdmaA, Or.inl wdmaS, Or.inl wdmaC,
    Or.inl wdmaP, Or.inl rdmaP, Or.inl rdmaA, Or.inl rdmaS, Or.inl rdmaC, nofun⟩

/-- The user's number of packets or their size is read twice, when it is checked and when
it is stored. -/
inductive Request where
  | stream (action : Action)
  | resetCard
  | setDmaCount (arg : U32)
  | setTlpSize (checked stored : U32)
  | setTlpCount (checked stored : U32)
  deriving DecidableEq, Repr

namespace Device

/-- An `ioctl` that only touches the settings. -/
def serve (device : Device) (stream : Stream) : Device := { device with stream := stream, ret := 0#32 }

def refuse (device : Device) : Device := { device with ret := einval }

/-- Calls follow one another, and so these are served while no stream call is at work. Only
numbers that are too large are refused. What `SET_TLPCOUNT` then does to the buffer is left
out. -/
def request (device : Device) : Request → Option Device
  | .stream action => device.step action
  | .resetCard =>
      if device.call = none then some (device.serve device.stream.fpgaInitDevice) else none
  | .setDmaCount arg =>
      if device.call = none then some (device.serve (device.stream.setDmaCount arg)) else none
  | .setTlpSize checked stored =>
      if device.call = none then
        some (if 32 < checked.toInt then device.refuse
          else device.serve (device.stream.setTlpSize stored))
      else none
  | .setTlpCount checked stored =>
      if device.call = none then
        some (if 128 < checked.toInt then device.refuse
          else device.serve (device.stream.setTlpCount stored))
      else none

end Device

/-- A DMA as it was started, by which call, and the bus address of the half selected. -/
structure Started where
  call : ℕ
  half : U64
  dma : Dma
  deriving DecidableEq, Repr

structure Session where
  device : Device
  calls : ℕ
  started : List Started

namespace Session

/-- `buffer_hw_addr` and the offset of the half. -/
def half (session : Session) : U64 :=
  session.device.stream.descr.bufferHwAddr + session.device.stream.descr.half

def newDmas (session : Session) (after : Device) : List Dma :=
  after.stream.card.dmas.drop session.device.stream.card.dmas.length

def record (session : Session) (request : Request) (after : Device) : Session where
  device := after
  calls := match request with
    | .stream (.ioctl _) => session.calls + 1
    | _ => session.calls
  started := session.started ++
    (session.newDmas after).map fun dma => ⟨session.calls, session.half, dma⟩

def step (session : Session) (request : Request) : Option Session :=
  (session.device.request request).map (session.record request)

end Session

def sessionSystem : System Session Request where
  initial session := Probed session.device ∧ session.calls = 0 ∧ session.started = []
  step := Session.step

def Dma.bytes (dma : Dma) : ℕ := 4 * dma.tlpSize.toNat * dma.tlpCount.toNat

structure Started.Inside (started : Started) : Prop where
  front : started.half.toNat ≤ started.dma.address.toNat
  back : started.dma.address.toNat + started.dma.bytes ≤ started.half.toNat + bufSize

def Dma.Disjoint (first second : Dma) : Prop :=
  first.address.toNat + first.bytes ≤ second.address.toNat ∨
    second.address.toNat + second.bytes ≤ first.address.toNat

def PcieDescr.bytes (descr : PcieDescr) : ℕ := 4 * descr.tlpSize.toNat * descr.tlpCount.toNat

def PcieDescr.Fits (descr : PcieDescr) : Prop := (descr.silentDmas + 1) * descr.bytes ≤ bufSize

instance (descr : PcieDescr) : Decidable descr.Fits := inferInstanceAs (Decidable (_ ≤ _))

/-- A stream call that comes to its DMAs finds settings that fit. -/
def StartsFitting (session : Session) (request : Request) : Prop :=
  ∀ running ∈ session.device.call, running.point = .select → running.command ≠ .endStream →
    request = .stream (.proceed .plain) → session.device.stream.descr.Fits

instance (session : Session) (request : Request) : Decidable (StartsFitting session request) :=
  inferInstanceAs (Decidable (∀ running ∈ session.device.call, _ → _ → _ → _))

end FpgaPcie.Creotech
