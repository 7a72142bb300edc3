import FpgaPcie.Driver.Resources

/-!
# Binding and removing a device

`pcidriver_probe` takes the resources of a device one after the other and, where it fails,
jumps into a cleanup; `pcidriver_remove` gives back those of a bound device. The count of
devices is shared by all devices; it also numbers them.
-/

namespace FpgaPcie.Driver.Resources

open FpgaPcie.Holdings
open FpgaPcie.Driver.Umem (Page)

set_option autoImplicit false

def minornr : U32 := 0#32
def maxdevices : U32 := 4#32

/-- `MKDEV` and `MINOR`, with 20 bits for the minor number. -/
def mkdev (major minor : U32) : U32 := major <<< 20 ||| minor
def minorOf (devno : U32) : U32 := devno &&& 0xfffff#32

def enomsg : ℤ := 42
def enomem : ℤ := 12
def eio : ℤ := 5

structure Bar where
  start : U64
  length : U64
  io : Bool
  deriving DecidableEq, Repr

abbrev Bars := Fin 6 → Bar

/-- How the calls of a probe go. A result of zero is success. A config byte that cannot be
read is `none`. -/
structure ProbeAnswers where
  pciEnableDevice : ℤ
  kcallocPrivdata : Bool
  pciRequestRegion : Fin 6 → ℤ
  ioremap : Fin 6 → Bool
  interruptPin : Option U8
  interruptLine : Option U8
  requestIrq : ℤ
  createFile : DeviceAttribute → Bool
  cdevAdd : ℤ

/-- What the driver has for all devices, and the record of the resources of one of them. -/
structure Host where
  deviceCount : U32
  record : List (Event Resource)

namespace Host

def take (host : Host) (resource : Resource) : Host :=
  { host with record := .taken resource :: host.record }

def give (host : Host) (resource : Resource) : Host :=
  { host with record := .given resource :: host.record }

end Host

def deviceAttributes : List DeviceAttribute :=
  [.irqCount, .irqQueues, .mmapMode, .mmapArea, .kmemCount, .kmemAlloc, .kmemFree, .kbuffers,
    .umappings, .umemUnmap]

def irqUnmapBars (barsKmapped : Fin 6 → Bool) (record : List (Event Resource)) :
    List (Event Resource) :=
  (List.finRange 6).foldl (fun record bar =>
    if barsKmapped bar then .given (.region bar) :: .given (.barMapping bar) :: record
    else record) record

/-- What `pcidriver_probe_irq` does to the private data, and what it returns. -/
structure IrqProbe where
  host : Host
  barsKmapped : Fin 6 → Bool
  irqEnabled : Bool
  err : ℤ

def Bar.isMemory (bar : Bar) : Bool := !(bar.start = 0#64 ∨ bar.length = 0#64) && !bar.io

/-- The loop over the BARs. A region that cannot be mapped stays requested. -/
def probeBars (bars : Bars) (answers : ProbeAnswers) : List (Fin 6) → IrqProbe → IrqProbe
  | [], probe => probe
  | bar :: rest, probe =>
      if !(bars bar).isMemory then probeBars bars answers rest probe
      else if answers.pciRequestRegion bar ≠ 0 then
        { probe with err := answers.pciRequestRegion bar }
      else
        let host := probe.host.take (.region bar)
        if !answers.ioremap bar then { probe with host := host, err := -eio }
        else
          probeBars bars answers rest
            { probe with
              host := host.take (.barMapping bar)
              barsKmapped := Function.update probe.barsKmapped bar true }

/-- `pcidriver_probe_irq`. Without an interrupt pin or line the device does without. -/
def probeIrq (bars : Bars) (answers : ProbeAnswers) (host : Host) : IrqProbe :=
  let probe := probeBars bars answers (List.finRange 6) ⟨host, fun _ => false, false, 0⟩
  if probe.err ≠ 0 then probe
  else if answers.interruptPin.getD 0#8 = 0#8 then probe
  else if answers.interruptLine = none then probe
  else if answers.requestIrq ≠ 0 then probe
  else { probe with host := probe.host.take .irqHandler, irqEnabled := true }

/-- The `sysfs_attr` steps, with `false` where one goes to `probe_device_create_fail`. -/
def createFiles (answers : ProbeAnswers) : List DeviceAttribute → Host → Host × Bool
  | [], host => (host, true)
  | attr :: rest, host =>
      if !answers.createFile attr then (host, false)
      else createFiles answers rest (host.take (.attributeFile attr))

/-- `bound` is the device where the probe gets to its end. -/
structure Probed where
  host : Host
  err : ℤ
  bound : Option Device

-- The labels of `pcidriver_probe`, the last one first.

def probeMaxdevicesFail (host : Host) (err : ℤ) : Probed := ⟨host.give .pciDevice, err, none⟩

def probeNomem (host : Host) (err : ℤ) : Probed :=
  probeMaxdevicesFail { host with deviceCount := host.deviceCount - 1#32 } err

def probeIrqProbeFail (host : Host) (barsKmapped : Fin 6 → Bool) (err : ℤ) : Probed :=
  let unmapped := { host with record := irqUnmapBars barsKmapped host.record }
  probeNomem (unmapped.give .privdata) err

/-- `pcidriver_probe` from the private data on. Where a file cannot be made, `err` is what
`pcidriver_probe_irq` returned. -/
def probePrivdata (major : U32) (bars : Bars) (locked : Page → Bool) (devid : U32) (host : Host)
    (answers : ProbeAnswers) : Probed :=
  let host := (host.take .privdata).take .classDevice
  let irq := probeIrq bars answers host
  if irq.err ≠ 0 then probeIrqProbeFail irq.host irq.barsKmapped irq.err
  else
    match createFiles answers deviceAttributes irq.host with
    | (host, false) => probeIrqProbeFail host irq.barsKmapped irq.err
    | (host, true) =>
        if answers.cdevAdd ≠ 0 then probeIrqProbeFail host irq.barsKmapped answers.cdevAdd
        else
          let host := host.take .charDevice
          let device : Device :=
            { devno := mkdev major (minornr + devid)
              kmemList := []
              kmemCount := 0#32
              umemList := []
              umemCount := 0#32
              barsKmapped := irq.barsKmapped
              irqEnabled := irq.irqEnabled
              locked := locked
              nextSerial := 0
              record := host.record
              synced := [] }
          ⟨host, 0, some device⟩

/-- `pcidriver_probe`, for the device with these BARs. Its number is a signed integer. -/
def probe (major : U32) (bars : Bars) (locked : Page → Bool) (host : Host)
    (answers : ProbeAnswers) : Probed :=
  if answers.pciEnableDevice ≠ 0 then ⟨host, answers.pciEnableDevice, none⟩
  else
    let host := host.take .pciDevice
    let devid := host.deviceCount
    let host := { host with deviceCount := host.deviceCount + 1#32 }
    if maxdevices.toInt ≤ devid.toInt then probeMaxdevicesFail host (-enomsg)
    else if !answers.kcallocPrivdata then probeNomem host (-enomem)
    else probePrivdata major bars locked devid host answers

/-- A device with one BAR, and a probe of it in which every call goes well. -/
def oneBar : Bars := fun bar =>
  if bar.val = 0 then ⟨0x1000#64, 0x100#64, false⟩ else ⟨0#64, 0#64, false⟩

def allSucceeds : ProbeAnswers where
  pciEnableDevice := 0
  kcallocPrivdata := true
  pciRequestRegion := fun _ => 0
  ioremap := fun _ => true
  interruptPin := some 1#8
  interruptLine := some 11#8
  requestIrq := 0
  createFile := fun _ => true
  cdevAdd := 0

namespace Device

def removeIrq (device : Device) : Device :=
  let device := if device.irqEnabled then device.give .irqHandler else device
  { device with record := irqUnmapBars device.barsKmapped device.record }

/-- `pcidriver_remove`. It frees the kernel buffers; there is nothing about user memory, and
nothing about the count of devices. -/
def remove (device : Device) : Device :=
  let device := (deviceAttributes.map .attributeFile).foldl give device
  let device := device.kmemFreeAll.removeIrq
  (((device.give .charDevice).give .classDevice).give .privdata).give .pciDevice

end Device

end FpgaPcie.Driver.Resources
