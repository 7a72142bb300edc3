import FpgaPcie.Driver.Interface
import FpgaPcie.Lib.Transition
import Mathlib.Logic.Function.Basic

/-!
# The interrupt handler and the calls that wait for it

`pcidriver_irq_handler` raises the counter of the source it acknowledged, and
`PCIDRIVER_IOC_WAITI` takes one from it: it tries the decrement after every timed
wait, takes a decrement that went below zero back, and waits again. Each atomic
operation on a counter is one step. The registers of the board belong to the handler
alone, so that a run of it is one step as well.
-/

namespace FpgaPcie.Driver.Irq

open FpgaPcie.Transition

set_option autoImplicit false

def intMaxSources : ℕ := 16

abbrev Source := Fin intMaxSources

def pcieabbVendorId : BitVec 16 := 0x10dc
def pcieabbDeviceId : BitVec 16 := 0x0153

def abbIrqCh0 : Source := ⟨0, by decide⟩
def abbIrqCh1 : Source := ⟨1, by decide⟩
def abbIrqIg : Source := ⟨2, by decide⟩

def abbIntCh1Timeout : U32 := 1#32 <<< 4
def abbIntCh0Timeout : U32 := 1#32 <<< 5
def abbIntIg : U32 := 1#32 <<< 2
def abbIntCh0 : U32 := 1#32 <<< 1
def abbIntCh1 : U32 := 1#32
def abbIgAck : U32 := 0x00F0

/-- What the interrupt code uses of the device and of BAR 0. `acknowledged` is not data
of the driver: it records the sources of the interrupts acknowledged so far. -/
structure Privdata where
  vendor : BitVec 16
  device : BitVec 16
  intEnable : U32
  igCtrl : U32
  irqOutstanding : Source → U32
  irqCount : U32
  acknowledged : List Source

namespace Privdata

def logicalNot (interrupt : U32) : U32 := if interrupt = 0#32 then 1#32 else 0#32

/-- `intStat` is what this read of the status register returns. -/
def checkAcknowlegdeChannel (privdata : Privdata) (interrupt : U32) (channel : Source)
    (intStat : U32) : Option Privdata :=
  if intStat &&& interrupt = 0#32 then none
  else some { privdata with
    intEnable := privdata.intEnable &&& logicalNot interrupt
    igCtrl := if interrupt = abbIntIg then abbIgAck else privdata.igCtrl
    irqOutstanding := Function.update privdata.irqOutstanding channel
      (privdata.irqOutstanding channel + 1#32)
    acknowledged := channel :: privdata.acknowledged }

def irqAcknowledge (privdata : Privdata) (intStat : Fin 5 → U32) : Option Privdata :=
  if privdata.vendor ≠ pcieabbVendorId ∨ privdata.device ≠ pcieabbDeviceId then none
  else
    privdata.checkAcknowlegdeChannel abbIntCh0 abbIrqCh0 (intStat 0) <|>
    privdata.checkAcknowlegdeChannel abbIntCh1 abbIrqCh1 (intStat 1) <|>
    privdata.checkAcknowlegdeChannel abbIntIg abbIrqIg (intStat 2) <|>
    privdata.checkAcknowlegdeChannel abbIntCh0Timeout abbIrqCh0 (intStat 3) <|>
    privdata.checkAcknowlegdeChannel abbIntCh1Timeout abbIrqCh1 (intStat 4)

def irqHandler (privdata : Privdata) (intStat : Fin 5 → U32) : Privdata × Bool :=
  match privdata.irqAcknowledge intStat with
  | none => (privdata, false)
  | some after => ({ after with irqCount := after.irqCount + 1#32 }, true)

end Privdata

/-- Where a call stands: in the timed wait, before the decrement, between a failed
decrement and the increment back, or out of the loop. -/
inductive Phase where
  | waiting
  | trying
  | restoring
  | done
  deriving DecidableEq, Repr

structure Call where
  irqSource : Source
  phase : Phase
  deriving DecidableEq, Repr

/-- Why `wait_event_interruptible_timeout` returned. The loop does not ask. -/
inductive Wake where
  | condition
  | timeout
  | signal
  deriving DecidableEq, Repr

/-- One step of the loop of `ioctl_wait_interrupt`, on the counter it waits for. -/
def Phase.proceed (outstanding : U32) (wake : Wake) : Phase → Option (U32 × Phase)
  | .waiting =>
      if wake = .condition ∧ outstanding.toInt ≤ 0 then none else some (outstanding, .trying)
  | .trying =>
      let result := outstanding - 1#32
      some (result, if result.toInt < 0 then .restoring else .done)
  | .restoring => some (outstanding + 1#32, .waiting)
  | .done => none

structure Device where
  privdata : Privdata
  calls : List Call

inductive Action where
  | interrupt (intStat : Fin 5 → U32)
  | waitInterrupt (arg : U64)
  | clearIoq (arg : U64)
  | proceed (call : ℕ) (wake : Wake)

namespace Device

def setOutstanding (device : Device) (source : Source) (value : U32) : Device :=
  { device with privdata := { device.privdata with
      irqOutstanding := Function.update device.privdata.irqOutstanding source value } }

/-- One call has moved on to `phase` and left `outstanding` in its counter. -/
def moved (device : Device) (index : ℕ) (call : Call) (outstanding : U32) (phase : Phase) :
    Device :=
  { device.setOutstanding call.irqSource outstanding with
    calls := device.calls.set index { call with phase := phase } }

def step (device : Device) : Action → Option Device
  | .interrupt intStat =>
      some { device with privdata := (device.privdata.irqHandler intStat).1 }
  | .waitInterrupt arg =>
      if bound : arg.toNat < intMaxSources then
        some { device with calls := device.calls ++ [⟨⟨arg.toNat, bound⟩, .waiting⟩] }
      else some device
  | .clearIoq arg =>
      if bound : arg.toNat < intMaxSources then
        some (device.setOutstanding ⟨arg.toNat, bound⟩ 0#32)
      else some device
  | .proceed index wake =>
      match device.calls[index]? with
      | none => none
      | some call =>
          (call.phase.proceed (device.privdata.irqOutstanding call.irqSource) wake).map
            fun (outstanding, phase) => device.moved index call outstanding phase

end Device

/-- As `pcidriver_probe_irq` leaves it. -/
def irqSystem : System Device Action where
  initial device := (∀ source, device.privdata.irqOutstanding source = 0#32) ∧
    device.privdata.acknowledged = [] ∧ device.calls = []
  step := Device.step

end FpgaPcie.Driver.Irq
