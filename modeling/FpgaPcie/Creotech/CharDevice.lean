import FpgaPcie.Creotech.Moves
import FpgaPcie.Creotech.Settings

/-!
# The fpga_pcie device with read and write

The stream calls and the settings, together with `read`, `write`, the command that fills the
buffer, and the bytes that the card writes to it. Only one of the calls is at work at a time,
while the interrupts of the card and its bytes come when they come.
-/

namespace FpgaPcie.Creotech

open FpgaPcie.Transition

set_option autoImplicit false

def bitRdmaStart : U32 := 1#32 <<< 16
def enotty : U32 := -25

/-- `tlp_size*tlp_count*sizeof(char)` of the variables that `fpga_char_read` and
`fpga_char_write` have of their own. -/
def transferLength : ℕ := 32 * 128

/-- `pcie_descr.buffer`, and the user's memory behind a pointer. -/
abbrev Bytes := ℕ → U8

namespace Bytes

def copy (target source : Bytes) (count : ℕ) : Bytes := fun index =>
  if index < count then source index else target index

def fill (target : Bytes) (value : U8) (count : ℕ) : Bytes := fun index =>
  if index < count then value else target index

/-- A byte for the bus address, in a buffer of `size` bytes at `base`. -/
def writeBus (target : Bytes) (base size address : ℕ) (value : U8) : Bytes :=
  if base ≤ address ∧ address < base + size then Function.update target (address - base) value
  else target

end Bytes

/-- The card starts to read memory as its registers tell when `BIT_RDMASTART` is written. -/
def Card.startRead (card : Card) : Card :=
  { card.writeReg regDdmacr bitRdmaStart with
    dmas := card.dmas ++
      [⟨card.regs regRdmaTlpA, card.regs regRdmaTlpS, card.regs regRdmaTlpC, true⟩]
    running := card.running ++ [card.dmas.length] }

namespace Stream

/-- `fpga_char_read` up to the start bit. -/
def programRead (stream : Stream) : Stream :=
  { stream with
    card := [(regDcsr, bitInitReset), (regDcsr, bitInit), (regWdmaTlpC, stream.descr.tlpCount),
      (regWdmaTlpS, stream.descr.tlpSize), (regWdmaTlpP, 0x2a2b2c2d#32),
      (regWdmaTlpA, stream.descr.bufferHwAddr.setWidth 32)].foldl
        (fun card write => card.writeReg write.1 write.2) stream.card }

/-- `fpga_char_write` up to the start bit. -/
def programWrite (stream : Stream) : Stream :=
  { stream with
    card := [(regDcsr, bitInitReset), (regDcsr, bitInit), (regRdmaTlpC, stream.descr.tlpCount),
      (regRdmaTlpS, stream.descr.tlpSize), (regRdmaTlpP, 0x2a2b2c2d#32),
      (regRdmaTlpA, stream.descr.bufferHwAddr.setWidth 32)].foldl
        (fun card write => card.writeReg write.1 write.2) stream.card }

def launchRead (stream : Stream) : Stream := { stream with card := stream.card.startRead }

def clearDone (stream : Stream) : Stream :=
  { stream with descr := { stream.descr with dmaDone := false } }

end Stream

/-- Where a read or a write stands. At `wait` it is about to look at `dma_done`. -/
inductive TransferPoint where
  | copyIn
  | program
  | start
  | clear
  | wait
  | asleep
  | copyOut
  deriving DecidableEq, Repr

/-- `dma` is on record: the DMA that the call has started. -/
structure Transfer where
  writes : Bool
  point : TransferPoint
  count : U64
  dma : ℕ
  deriving DecidableEq, Repr

def Transfer.at (transfer : Transfer) (point : TransferPoint) : Transfer :=
  { transfer with point := point }

def Transfer.wakeUp (transfer : Transfer) : Transfer :=
  if transfer.point = .asleep then transfer.at .wait else transfer

/-- On record are `latest`, the DMA last started with its interrupt, and `reads`, the DMAs by
which the card reads memory. -/
structure CharDevice where
  device : Device
  transfer : Option Transfer
  buffer : Bytes
  user : Bytes
  latest : Option ℕ
  reads : List ℕ

/-- `request` with its argument, which `MEMSET_WRITEBUFFER` also takes; `unknown` are the
commands that there are not. The statements of a stream call and its interrupts are
requests, and `proceed` is a statement of a read or a write. -/
inductive CharAction where
  | request (request : Request) (arg : U64)
  | memsetWriteBuffer (arg : U64)
  | unknown
  | read (count : U64) (user : Bytes)
  | write (count : U64) (user : Bytes)
  | proceed (event : Event)
  | arrive (dma index : ℕ) (value : U8)

namespace Request

def interrupts : Request → Option ℕ
  | .stream (.interrupt dma) => some dma
  | .stream (.ioctl _) => none
  | .stream (.proceed _) => none
  | .resetCard => none
  | .setDmaCount _ => none
  | .setTlpSize _ _ => none
  | .setTlpCount _ _ => none

/-- There is no `break` behind `SET_TLPCOUNT`, and so it goes on to fill the buffer. -/
def fallsThrough : Request → Bool
  | .setTlpCount checked _ => decide (¬128 < checked.toInt)
  | .setTlpSize _ _ => false
  | .setDmaCount _ => false
  | .resetCard => false
  | .stream _ => false

end Request

namespace CharDevice

def memset (state : CharDevice) (arg : U64) : Bytes :=
  state.buffer.fill (arg.setWidth 8) (2 * bufSize)

/-- The record of a step of the driver: more DMAs run when one was started with its
interrupt. -/
def launched (state : CharDevice) (card : Card) : CharDevice :=
  if state.device.stream.card.running.length < card.running.length then
    { state with latest := some state.device.stream.card.dmas.length }
  else state

def serve (state : CharDevice) (request : Request) (arg : U64) (after : Device) : CharDevice :=
  { state.launched after.stream.card with
    device := after
    buffer := if request.fallsThrough then state.memset arg else state.buffer }

/-- The handler has run: it wakes a sleeping call up if `wake` is set. -/
def strike (state : CharDevice) (after : Device) : CharDevice :=
  { state with
    device := after
    transfer := if after.stream.descr.wake then state.transfer.map Transfer.wakeUp
      else state.transfer }

def request (state : CharDevice) (request : Request) (arg : U64) : Option CharDevice :=
  match request.interrupts with
  | some _ => (state.device.request request).map state.strike
  | none =>
      if state.transfer.isNone then (state.device.request request).map (state.serve request arg)
      else none

def idle (state : CharDevice) : Bool := state.transfer.isNone && state.device.call.isNone

def begin_ (state : CharDevice) (transfer : Transfer) (user : Bytes) : Option CharDevice :=
  if state.idle then some { state with transfer := some transfer, user := user } else none

def goto (state : CharDevice) (stream : Stream) (transfer : Transfer) (point : TransferPoint) :
    CharDevice :=
  { state with
    device := { state.device with stream := stream }
    transfer := some (transfer.at point) }

def copyIn (state : CharDevice) (transfer : Transfer) : CharDevice :=
  { state.goto state.device.stream transfer .program with
    buffer := state.buffer.copy state.user transferLength }

def start (state : CharDevice) (transfer : Transfer) : CharDevice :=
  let stream := state.device.stream
  let dma := stream.card.dmas.length
  { state.goto (if transfer.writes then stream.launchRead else stream.launchDma true)
      { transfer with dma := dma } .clear with
    latest := some dma
    reads := if transfer.writes then dma :: state.reads else state.reads }

def finish (state : CharDevice) (transfer : Transfer) : CharDevice :=
  { state with
    device := { state.device with ret := BitVec.ofNat 32 transferLength }
    transfer := none
    user := if transfer.writes then state.user else state.user.copy state.buffer transferLength }

/-- The statements of `fpga_char_read` and `fpga_char_write`. What `wait_event_interruptible`
returns is not looked at. -/
def proceed (state : CharDevice) (transfer : Transfer) (event : Event) : Option CharDevice :=
  let stream := state.device.stream
  match event, transfer.point with
  | .plain, .copyIn => some (state.copyIn transfer)
  | .plain, .program =>
      some (state.goto (if transfer.writes then stream.programWrite else stream.programRead)
        transfer .start)
  | .plain, .start => some (state.start transfer)
  | .plain, .clear => some (state.goto stream.clearDone transfer .wait)
  | .plain, .wait =>
      some (state.goto stream transfer (if stream.descr.dmaDone then .copyOut else .asleep))
  | .signalled, .wait => some (state.goto stream transfer .copyOut)
  | .signalled, .asleep => some (state.goto stream transfer .copyOut)
  | .plain, .copyOut => some (state.finish transfer)
  | _, _ => none

def arrived (state : CharDevice) (started : Dma) (index : ℕ) (value : U8) : CharDevice :=
  { state with
    buffer := state.buffer.writeBus state.device.stream.descr.bufferHwAddr.toNat (2 * bufSize)
      (started.address.toNat + index) value }

/-- A byte that the card writes. After the interrupt of a DMA there come no more. -/
def arrive (state : CharDevice) (dma index : ℕ) (value : U8) : Option CharDevice :=
  let stream := state.device.stream
  match stream.card.dmas[dma]? with
  | none => none
  | some started =>
      if dma ∈ state.reads ∨ dma ∈ stream.card.completed ∨ started.bytes ≤ index then none
      else some (state.arrived started index value)

def step (state : CharDevice) : CharAction → Option CharDevice
  | .request request arg => state.request request arg
  | .memsetWriteBuffer arg =>
      if state.idle then
        some { state with buffer := state.memset arg, device := { state.device with ret := 0#32 } }
      else none
  | .unknown =>
      if state.idle then some { state with device := { state.device with ret := enotty } }
      else none
  | .read count user => state.begin_ ⟨false, .program, count, 0⟩ user
  | .write count user => state.begin_ ⟨true, .copyIn, count, 0⟩ user
  | .proceed event => state.transfer.bind fun transfer => state.proceed transfer event
  | .arrive dma index value => state.arrive dma index value

end CharDevice

structure ProbedChar (state : CharDevice) : Prop where
  device : Probed state.device
  transfer : state.transfer = none
  records : state.latest = none ∧ state.reads = []

def charSystem : System CharDevice CharAction where
  initial := ProbedChar
  step := CharDevice.step

inductive Transfers (state : CharDevice) (transfer : Transfer) : Event → CharDevice → Prop where
  | copiesIn (point : transfer.point = .copyIn) :
      Transfers state transfer .plain (state.copyIn transfer)
  | programs (point : transfer.point = .program) : Transfers state transfer .plain
      (state.goto (if transfer.writes then state.device.stream.programWrite
        else state.device.stream.programRead) transfer .start)
  | starts (point : transfer.point = .start) :
      Transfers state transfer .plain (state.start transfer)
  | clears (point : transfer.point = .clear) : Transfers state transfer .plain
      (state.goto state.device.stream.clearDone transfer .wait)
  | done (point : transfer.point = .wait) (is : state.device.stream.descr.dmaDone = true) :
      Transfers state transfer .plain (state.goto state.device.stream transfer .copyOut)
  | sleeps (point : transfer.point = .wait) (is : state.device.stream.descr.dmaDone = false) :
      Transfers state transfer .plain (state.goto state.device.stream transfer .asleep)
  | signalled (point : transfer.point = .wait ∨ transfer.point = .asleep) :
      Transfers state transfer .signalled (state.goto state.device.stream transfer .copyOut)
  | finishes (point : transfer.point = .copyOut) :
      Transfers state transfer .plain (state.finish transfer)

section Cases

variable {state after : CharDevice} {transfer : Transfer} {event : Event}

theorem wait_transfers {writes : Bool} {count : U64} {dma : ℕ}
    (step : state.proceed ⟨writes, .wait, count, dma⟩ event = some after) :
    Transfers state ⟨writes, .wait, count, dma⟩ event after := by
  cases event with
  | plain =>
      cases step
      cases done : state.device.stream.descr.dmaDone with
      | true => exact .done rfl done
      | false => exact .sleeps rfl done
  | signalled =>
      cases step
      exact .signalled (Or.inl rfl)
  | woken | timedOut | mapped | copied | faulted => cases step

theorem transfer_cases (step : state.proceed transfer event = some after) :
    Transfers state transfer event after := by
  rcases transfer with ⟨writes, point, count, dma⟩
  cases point with
  | copyIn =>
      cases event with
      | plain =>
          cases step
          exact .copiesIn rfl
      | woken | timedOut | signalled | mapped | copied | faulted => cases step
  | program =>
      cases event with
      | plain =>
          cases step
          exact .programs rfl
      | woken | timedOut | signalled | mapped | copied | faulted => cases step
  | start =>
      cases event with
      | plain =>
          cases step
          exact .starts rfl
      | woken | timedOut | signalled | mapped | copied | faulted => cases step
  | clear =>
      cases event with
      | plain =>
          cases step
          exact .clears rfl
      | woken | timedOut | signalled | mapped | copied | faulted => cases step
  | wait => exact wait_transfers step
  | asleep =>
      cases event with
      | signalled =>
          cases step
          exact .signalled (Or.inr rfl)
      | plain | woken | timedOut | mapped | copied | faulted => cases step
  | copyOut =>
      cases event with
      | plain =>
          cases step
          exact .finishes rfl
      | woken | timedOut | signalled | mapped | copied | faulted => cases step

end Cases

inductive Sets (device : Device) : Request → Device → Prop where
  | resetCard : Sets device .resetCard (device.serve device.stream.fpgaInitDevice)
  | dmaCount (arg : U32) : Sets device (.setDmaCount arg)
      (device.serve (device.stream.setDmaCount arg))
  | tlpSize (checked stored : U32) (passed : ¬32 < checked.toInt) :
      Sets device (.setTlpSize checked stored) (device.serve (device.stream.setTlpSize stored))
  | tlpSizeRefused (checked stored : U32) (large : 32 < checked.toInt) :
      Sets device (.setTlpSize checked stored) device.refuse
  | tlpCount (checked stored : U32) (passed : ¬128 < checked.toInt) :
      Sets device (.setTlpCount checked stored) (device.serve (device.stream.setTlpCount stored))
  | tlpCountRefused (checked stored : U32) (large : 128 < checked.toInt) :
      Sets device (.setTlpCount checked stored) device.refuse

theorem request_cases {device after : Device} {request : Request}
    (step : device.request request = some after) :
    (∃ action, request = .stream action ∧ device.step action = some after) ∨
      (device.call = none ∧ Sets device request after) := by
  cases request with
  | stream action => exact Or.inl ⟨action, rfl, step⟩
  | resetCard =>
      simp only [Device.request, Option.ite_none_right_eq_some, Option.some.injEq] at step
      rcases step with ⟨idle, is⟩
      subst is
      exact Or.inr ⟨idle, .resetCard⟩
  | setDmaCount arg =>
      simp only [Device.request, Option.ite_none_right_eq_some, Option.some.injEq] at step
      rcases step with ⟨idle, is⟩
      subst is
      exact Or.inr ⟨idle, .dmaCount arg⟩
  | setTlpSize checked stored =>
      simp only [Device.request, Option.ite_none_right_eq_some, Option.some.injEq] at step
      rcases step with ⟨idle, is⟩
      subst is
      apply Or.inr
      apply And.intro idle
      split
      · exact .tlpSizeRefused checked stored ‹_›
      · exact .tlpSize checked stored ‹_›
  | setTlpCount checked stored =>
      simp only [Device.request, Option.ite_none_right_eq_some, Option.some.injEq] at step
      rcases step with ⟨idle, is⟩
      subst is
      apply Or.inr
      apply And.intro idle
      split
      · exact .tlpCountRefused checked stored ‹_›
      · exact .tlpCount checked stored ‹_›

inductive CharMoves (state : CharDevice) : CharAction → CharDevice → Prop where
  | interrupts (dma : ℕ) (arg : U64) (stream : Stream)
      (comes : state.device.stream.interrupt dma = some stream) :
      CharMoves state (.request (.stream (.interrupt dma)) arg)
        (state.strike { state.device with stream := stream })
  | begins (command : Command) (arg : U64) (idle : state.transfer = none)
      (call : state.device.call = none) :
      CharMoves state (.request (.stream (.ioctl command)) arg)
        (state.serve (.stream (.ioctl command)) arg ⟨state.device.stream, some ⟨command,
          if command = .startStream then .select else .check, 0#32⟩, state.device.ret⟩)
  | moves (event : Event) (arg : U64) (running : Running) (after : Device)
      (idle : state.transfer = none) (call : state.device.call = some running)
      (step : Moves state.device running event after) :
      CharMoves state (.request (.stream (.proceed event)) arg)
        (state.serve (.stream (.proceed event)) arg after)
  | sets (request : Request) (arg : U64) (after : Device) (idle : state.transfer = none)
      (call : state.device.call = none) (step : Sets state.device request after) :
      CharMoves state (.request request arg) (state.serve request arg after)
  | memsets (arg : U64) (idle : state.transfer = none) (call : state.device.call = none) :
      CharMoves state (.memsetWriteBuffer arg)
        { state with buffer := state.memset arg, device := { state.device with ret := 0#32 } }
  | refuses (idle : state.transfer = none) (call : state.device.call = none) :
      CharMoves state .unknown { state with device := { state.device with ret := enotty } }
  | reads (count : U64) (user : Bytes) (idle : state.transfer = none)
      (call : state.device.call = none) :
      CharMoves state (.read count user)
        { state with transfer := some ⟨false, .program, count, 0⟩, user := user }
  | writes (count : U64) (user : Bytes) (idle : state.transfer = none)
      (call : state.device.call = none) :
      CharMoves state (.write count user)
        { state with transfer := some ⟨true, .copyIn, count, 0⟩, user := user }
  | transfers (event : Event) (transfer : Transfer) (after : CharDevice)
      (at_ : state.transfer = some transfer) (step : Transfers state transfer event after) :
      CharMoves state (.proceed event) after
  | arrives (dma index : ℕ) (value : U8) (started : Dma)
      (there : state.device.stream.card.dmas[dma]? = some started) (writes : dma ∉ state.reads)
      (running : dma ∉ state.device.stream.card.completed) (inside : index < started.bytes) :
      CharMoves state (.arrive dma index value) (state.arrived started index value)

section Cases

variable {state after : CharDevice}

theorem idle_cases (idle : state.idle = true) :
    state.transfer = none ∧ state.device.call = none := by
  simpa [CharDevice.idle] using idle

theorem served_cases {request : Request} {arg : U64}
    (step : state.request request arg = some after) :
    CharMoves state (.request request arg) after := by
  have quietly : request.interrupts = none → state.transfer = none ∧
      ∃ device, state.device.request request = some device ∧
        after = state.serve request arg device := by
    intro none_
    simp only [CharDevice.request, none_] at step
    split at step
    · rcases Option.map_eq_some_iff.mp step with ⟨device, served, is⟩
      exact ⟨by simpa using ‹state.transfer.isNone = true›, device, served, is.symm⟩
    · cases step
  have sets : request.interrupts = none → ∀ device, state.device.call = none →
      Sets state.device request device → after = state.serve request arg device →
      CharMoves state (.request request arg) after := by
    intro none_ device call served is
    subst is
    exact .sets request arg device (quietly none_).1 call served
  cases request with
  | stream action =>
      cases action with
      | interrupt dma =>
          rcases Option.map_eq_some_iff.mp step with ⟨device, served, is⟩
          rcases Option.map_eq_some_iff.mp served with ⟨stream, comes, same⟩
          subst is
          subst same
          exact .interrupts dma arg stream comes
      | ioctl command =>
          rcases quietly rfl with ⟨idle, device, served, is⟩
          subst is
          rcases step_moves served with begins | moves | interrupts
          · rcases begins with ⟨this, same, call, is⟩
            cases same
            subst is
            exact .begins command arg idle call
          · rcases moves with ⟨running, event, same, _⟩
            cases same
          · rcases interrupts with ⟨dma, stream, same, _⟩
            cases same
      | proceed event =>
          rcases quietly rfl with ⟨idle, device, served, is⟩
          subst is
          rcases step_moves served with begins | moves | interrupts
          · rcases begins with ⟨this, same, _⟩
            cases same
          · rcases moves with ⟨running, this, same, call, moves⟩
            cases same
            exact .moves event arg running device idle call moves
          · rcases interrupts with ⟨dma, stream, same, _⟩
            cases same
  | resetCard | setDmaCount | setTlpSize | setTlpCount =>
      rcases quietly rfl with ⟨idle, device, served, is⟩
      rcases request_cases served with stream | settings
      · rcases stream with ⟨action, same, _⟩
        cases same
      · exact sets rfl device settings.1 settings.2 is

theorem char_cases {action : CharAction} (step : state.step action = some after) :
    CharMoves state action after := by
  cases action with
  | request request arg => exact served_cases step
  | memsetWriteBuffer arg =>
      simp only [CharDevice.step, Option.ite_none_right_eq_some, Option.some.injEq] at step
      rcases step with ⟨idle, is⟩
      subst is
      exact .memsets arg (idle_cases idle).1 (idle_cases idle).2
  | unknown =>
      simp only [CharDevice.step, Option.ite_none_right_eq_some, Option.some.injEq] at step
      rcases step with ⟨idle, is⟩
      subst is
      exact .refuses (idle_cases idle).1 (idle_cases idle).2
  | read count user =>
      simp only [CharDevice.step, CharDevice.begin_, Option.ite_none_right_eq_some,
        Option.some.injEq] at step
      rcases step with ⟨idle, is⟩
      subst is
      exact .reads count user (idle_cases idle).1 (idle_cases idle).2
  | write count user =>
      simp only [CharDevice.step, CharDevice.begin_, Option.ite_none_right_eq_some,
        Option.some.injEq] at step
      rcases step with ⟨idle, is⟩
      subst is
      exact .writes count user (idle_cases idle).1 (idle_cases idle).2
  | proceed event =>
      rcases Option.bind_eq_some_iff.mp step with ⟨transfer, at_, proceeds⟩
      exact .transfers event transfer after at_ (transfer_cases proceeds)
  | arrive dma index value =>
      simp only [CharDevice.step, CharDevice.arrive] at step
      cases there : state.device.stream.card.dmas[dma]? with
      | none =>
          rw [there] at step
          cases step
      | some started =>
          rw [there] at step
          simp only at step
          split at step
          · cases step
          · rename_i enabled
            rw [not_or, not_or] at enabled
            cases step
            exact .arrives dma index value started there enabled.1 enabled.2.1
              (Nat.lt_of_not_le enabled.2.2)

end Cases

end FpgaPcie.Creotech
