import FpgaPcie.Driver.Interface
import FpgaPcie.Lib.Transition
import Mathlib.Logic.Function.Basic

/-!
# The stream of the fpga_pcie driver

The buffer has two halves of `BUF_SIZE` bytes. A stream call waits for the DMA in
flight, turns to the other half, starts the next DMA and hands the finished half out.
Between any two of its statements the interrupt handler may run, and so the calls are
cut where they read or write what the handler shares with them, or let the card start.
-/

namespace FpgaPcie.Creotech

open FpgaPcie.Transition

set_option autoImplicit false

def bufSize : ℕ := 16 * 1024

def regDcsr : U32 := 0x000
def bitInit : U32 := 0
def bitInitReset : U32 := 1
def regDdmacr : U32 := 0x004
def bitWdmaStart : U32 := 1
def bitWdmaIntDone : U32 := 1#32 <<< 7
def regWdmaTlpA : U32 := 0x008
def regWdmaTlpS : U32 := 0x00c
def regWdmaTlpC : U32 := 0x010
def regWdmaTlpP : U32 := 0x014

structure Dma where
  address : U32
  tlpSize : U32
  tlpCount : U32
  interrupt : Bool
  deriving DecidableEq, Repr

/-- `dmas` are the DMAs in the order of their start, `running` those whose interrupt is
still to come, `completed` those whose interrupt came. -/
structure Card where
  regs : U32 → U32
  dmas : List Dma
  running : List ℕ
  completed : List ℕ

/-- The card starts the DMA its registers describe when `BIT_WDMASTART` is written. With
`BIT_WDMAINTDONE` it raises no interrupt. -/
def Card.writeReg (card : Card) (offset val : U32) : Card :=
  if offset = regDdmacr ∧ val &&& bitWdmaStart ≠ 0#32 then
    let interrupt := decide (val &&& bitWdmaIntDone = 0#32)
    { card with
      regs := Function.update card.regs offset val
      dmas := card.dmas ++
        [⟨card.regs regWdmaTlpA, card.regs regWdmaTlpS, card.regs regWdmaTlpC, interrupt⟩]
      running := if interrupt then card.running ++ [card.dmas.length] else card.running }
  else { card with regs := Function.update card.regs offset val }

structure PcieDescr where
  buffer : U64
  bufferHwAddr : U64
  evenBuffer : Bool
  offset : U64
  dmaAddr : U64
  dmaDone : Bool
  tlpSize : U32
  tlpCount : U32
  dmaCount : U32
  wake : Bool
  pattern : U32
  deriving DecidableEq, Repr

namespace PcieDescr

def half (descr : PcieDescr) : U64 := if descr.evenBuffer then 0#64 else BitVec.ofNat 64 bufSize

/-- What `run_dma` writes to `REG_WDMATLPA`, a 32-bit register. -/
def tlpAddress (descr : PcieDescr) (offset : U64) : U32 :=
  (descr.bufferHwAddr + descr.half + offset).setWidth 32

/-- `4*tlp_size*tlp_count`, an `int`, as `dma_addr_t`. -/
def transferSize (descr : PcieDescr) : U64 :=
  (4#32 * descr.tlpSize * descr.tlpCount).signExtend 64

/-- Iterations of `for(i=0;i<pcie_descr.dma_count-1;i++)`. -/
def silentDmas (descr : PcieDescr) : ℕ := (descr.dmaCount - 1#32).toInt.toNat

end PcieDescr

inductive DmaApiCall where
  | map (address : U64) (size : ℕ)
  | unmap (address : U64) (size : ℕ)
  deriving DecidableEq, Repr

/-- `handed` and `base` are on record: the halves handed out so far, and how many DMAs
had been started when the stream was. `isOpen` follows the user's protocol. -/
structure Stream where
  descr : PcieDescr
  card : Card
  dmaApi : List DmaApiCall
  handed : List U32
  base : ℕ
  isOpen : Bool

namespace Stream

/-- `run_dma` up to the start bit; `pci_map_single` returns `mapped`. The mapping is made
with the offset of the DMA before. -/
def programDma (stream : Stream) (offset mapped : U64) : Stream :=
  let descr := stream.descr
  { stream with
    descr := { descr with dmaAddr := mapped, offset := offset }
    dmaApi := DmaApiCall.map (descr.buffer + descr.half + descr.offset) bufSize :: stream.dmaApi
    card := [(regDcsr, bitInitReset), (regDcsr, bitInit), (regWdmaTlpC, descr.tlpCount),
      (regWdmaTlpS, descr.tlpSize), (regWdmaTlpP, descr.pattern),
      (regWdmaTlpA, descr.tlpAddress offset)].foldl
        (fun card write => card.writeReg write.1 write.2) stream.card }

def launchDma (stream : Stream) (sendInterrupt : Bool) : Stream :=
  { stream with
    card := stream.card.writeReg regDdmacr
      (if sendInterrupt then bitWdmaStart else bitWdmaStart ||| bitWdmaIntDone) }

def irqHandler (stream : Stream) : Stream :=
  let descr := stream.descr
  { stream with
    descr := { descr with dmaDone := true }
    dmaApi := DmaApiCall.unmap (descr.dmaAddr + descr.half + descr.offset) bufSize :: stream.dmaApi }

def interrupt (stream : Stream) (dma : ℕ) : Option Stream :=
  if dma ∈ stream.card.running then
    some { stream with card := { stream.card with
        running := stream.card.running.erase dma
        completed := dma :: stream.card.completed } }.irqHandler
  else none

def retarg (stream : Stream) : U32 :=
  if stream.descr.evenBuffer then 0#32 else BitVec.ofNat 32 bufSize

def startSelect (stream : Stream) : Stream :=
  { stream with
    descr := { stream.descr with evenBuffer := true, wake := false, pattern := 0x2a2a2a2a }
    base := stream.card.dmas.length }

def nextSelect (stream : Stream) : Stream :=
  { stream with descr := { stream.descr with
      evenBuffer := !stream.descr.evenBuffer
      pattern := if stream.descr.evenBuffer then 0x2b2b2b2b else 0x2c2c2c2c
      wake := false } }

def endSelect (stream : Stream) : Stream :=
  { stream with descr := { stream.descr with evenBuffer := !stream.descr.evenBuffer } }

def arm (stream : Stream) : Stream :=
  { stream with descr := { stream.descr with dmaDone := false, wake := true } }

end Stream

inductive Command where
  | startStream
  | nextStream
  | endStream
  deriving DecidableEq, Repr

/-- Where a call stands. `waiting` is the timed wait, `waitingDone` the second one of
`END_STREAM`; of the DMAs of the call, `left` are to be started without an interrupt. -/
inductive Point where
  | check
  | waiting
  | recheck
  | waitingDone
  | select
  | loop (left : ℕ) (offset : U64)
  | last (offset : U64)
  | launch (sendInterrupt : Bool) (left : ℕ) (offset : U64)
  | copy
  deriving DecidableEq, Repr

structure Running where
  command : Command
  point : Point
  retarg : U32
  deriving DecidableEq, Repr

def Running.at (running : Running) (point : Point) : Running := { running with point := point }

/-- What a statement gets to see: how a wait ended, where `pci_map_single` mapped, how
`copy_to_user` went. -/
inductive Event where
  | plain
  | woken
  | timedOut
  | signalled
  | mapped (dmaAddr : U64)
  | copied
  | faulted
  deriving DecidableEq, Repr

structure Device where
  stream : Stream
  call : Option Running
  /-- what the last call returned -/
  ret : U32

inductive Action where
  | ioctl (command : Command)
  | proceed (event : Event)
  | interrupt (dma : ℕ)
  deriving DecidableEq, Repr

def eio : U32 := -5
def efault : U32 := -14

namespace Device

def goto (device : Device) (stream : Stream) (running : Running) (point : Point) :
    Option Device :=
  some { device with stream := stream, call := some (running.at point) }

def finish (ret : U32) (stream : Stream) : Option Device :=
  some { stream := stream, call := none, ret := ret }

/-- After the timed wait `END_STREAM` looks at `dma_done` again. -/
def afterWait (running : Running) : Point :=
  match running.command with
  | .endStream => .recheck
  | _ => .select

def select (device : Device) (running : Running) : Option Device :=
  let stream := device.stream
  match running.command with
  | .startStream =>
      device.goto stream.startSelect running (.loop stream.descr.silentDmas 0#64)
  | .nextStream =>
      device.goto stream.nextSelect { running with retarg := stream.retarg }
        (.loop stream.descr.silentDmas 0#64)
  | .endStream => device.goto stream.endSelect { running with retarg := stream.retarg } .copy

def launched (device : Device) (running : Running) (sendInterrupt : Bool) (left : ℕ)
    (offset : U64) : Option Device :=
  let stream := device.stream.launchDma sendInterrupt
  if sendInterrupt then
    match running.command with
    | .startStream => finish 0#32 { stream with isOpen := true }
    | _ => device.goto stream running .copy
  else device.goto stream running (.loop left (offset + stream.descr.transferSize))

def copied (device : Device) (running : Running) : Option Device :=
  finish 0#32 { device.stream with
    handed := device.stream.handed ++ [running.retarg]
    isOpen := running.command ≠ .endStream }

/-- A wait that a signal cuts short counts as a finished DMA, unlike one that times out. -/
def proceed (device : Device) (running : Running) (event : Event) : Option Device :=
  let stream := device.stream
  match event, running.point with
  | .plain, .check =>
      device.goto stream running (if stream.descr.dmaDone then afterWait running else .waiting)
  | .woken, .waiting =>
      if stream.descr.dmaDone then device.goto stream running (afterWait running) else none
  | .timedOut, .waiting => finish eio stream
  | .signalled, .waiting => device.goto stream running (afterWait running)
  | .plain, .recheck =>
      device.goto stream running (if stream.descr.dmaDone then .select else .waitingDone)
  | .woken, .waitingDone =>
      if stream.descr.dmaDone then device.goto stream running .select else none
  | .signalled, .waitingDone => device.goto stream running .select
  | .plain, .select => device.select running
  | .mapped dmaAddr, .loop (left + 1) offset =>
      device.goto (stream.programDma offset dmaAddr) running (.launch false left offset)
  | .plain, .loop 0 offset => device.goto stream.arm running (.last offset)
  | .mapped dmaAddr, .last offset =>
      device.goto (stream.programDma offset dmaAddr) running (.launch true 0 offset)
  | .plain, .launch sendInterrupt left offset => device.launched running sendInterrupt left offset
  | .copied, .copy => device.copied running
  | .faulted, .copy => finish efault stream
  | _, _ => none

/-- The device can be opened once, so that calls follow one another. -/
def step (device : Device) (action : Action) : Option Device :=
  match action, device.call with
  | .ioctl .startStream, none => device.goto device.stream ⟨.startStream, .select, 0#32⟩ .select
  | .ioctl command, none => device.goto device.stream ⟨command, .check, 0#32⟩ .check
  | .ioctl _, some _ => none
  | .proceed event, some running => device.proceed running event
  | .proceed _, none => none
  | .interrupt dma, _ => (device.stream.interrupt dma).map fun stream =>
      { device with stream := stream }

end Device

/-- A device that was probed. The buffer comes from `pci_alloc_consistent`, which keeps to
the coherent mask: 32 bits, as `fpga_probe` widens the streaming mask only. -/
structure Probed (device : Device) : Prop where
  lowBuffer : device.stream.descr.bufferHwAddr.toNat + 2 * bufSize ≤ 2 ^ 32
  noDmas : device.stream.card.dmas = [] ∧ device.stream.card.running = [] ∧
    device.stream.card.completed = []
  nothingHanded : device.stream.handed = [] ∧ device.stream.base = 0
  closed : device.stream.isOpen = false ∧ device.call = none

def streamSystem : System Device Action where
  initial := Probed
  step := Device.step

end FpgaPcie.Creotech
