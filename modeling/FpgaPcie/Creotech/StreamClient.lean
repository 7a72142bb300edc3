import FpgaPcie.Creotech.CharMmap
import FpgaPcie.Creotech.SettingsFrame
import FpgaPcie.Creotech.StreamOrder

/-!
# The client that sends the stream on

`client.c` maps the buffer, starts a stream and asks for one half after the other; each is
sent in four datagrams, from the mapping and while the card fills the other half. The bytes
of the card, its interrupts and the statements of the driver come in any order.
-/

namespace FpgaPcie.Creotech

open FpgaPcie.PageTable FpgaPcie.Transition

set_option autoImplicit false

def bufLen : ℕ := 16 * 1024

def npack : ℕ := 64 * 1024

inductive Socket where
  | s
  | r
  | o
  | p
  deriving DecidableEq, Repr

structure Datagram where
  socket : Socket
  payload : List U8
  deriving DecidableEq, Repr

/-- What the loop sends of a half: to which socket, and from where on. -/
def loopParts : List (Socket × ℕ) :=
  [(.r, 0), (.s, bufLen / 4), (.o, bufLen / 2), (.p, bufLen * 3 / 4)]

def lastParts : List (Socket × ℕ) :=
  [(.s, 0), (.s, bufLen / 4), (.s, bufLen / 2), (.p, bufLen * 3 / 4)]

/-- Where the client stands. At `calls` it is at the head of the loop; of the half that it
`sends` the parts in `left` are still to come, and `taken` has been read of the first. -/
inductive ClientPoint where
  | setsCount
  | starts
  | calls
  | inCall (command : Command)
  | sends (last : Bool) (left : List (Socket × ℕ)) (taken : List U8)
  | done
  deriving DecidableEq, Repr

/-- `vma` is what the client has mapped. On record are `arrived`, the bytes that the card has
written of each DMA, `first`, the DMAs started before the client came, and `outcomes`, which
of its calls for a half have succeeded. -/
structure StreamClient where
  device : Device
  buffer : Bytes
  vma : VmArea
  point : ClientPoint
  i : ℕ
  offset : U32
  sent : List Datagram
  arrived : ℕ → ℕ
  first : ℕ
  outcomes : List Bool

inductive ClientAction where
  | call
  | proceed (event : Event)
  | interrupt (dma : ℕ)
  | arrive (dma : ℕ)
  | send
  | sendFails
  deriving DecidableEq, Repr

/-- Where byte `index` of the buffer is in memory. -/
def PcieDescr.byteFrame (pageFrame : ℕ → ℕ) (pageShift : ℕ) (descr : PcieDescr) (index : ℕ) : ℕ :=
  pageFrame ((descr.buffer.toNat + index) / 2 ^ pageShift) * 2 ^ pageShift +
    (descr.buffer.toNat + index) % 2 ^ pageShift

namespace StreamClient

/-- A byte through the mapping: the one of the buffer that is in the page entered, if any. -/
def mapped (pageFrame : ℕ → ℕ) (pageShift : ℕ) (client : StreamClient) (address : ℕ) : Option U8 :=
  let descr := client.device.stream.descr
  (translate (fpgaCharMmap pageShift descr client.vma .remapped).entries (2 ^ pageShift)
    address).bind fun place =>
      ((List.range (2 * bufSize)).find? fun index =>
        descr.byteFrame pageFrame pageShift index = place).map client.buffer

def enter (client : StreamClient) (command : Command) : Option StreamClient :=
  (client.device.step (.ioctl command)).map fun device =>
    { client with device := device, point := .inCall command }

def call (client : StreamClient) : Option StreamClient :=
  match client.point with
  | .setsCount => (client.device.request (.setDmaCount 1#32)).map fun device =>
      { client with device := device, point := .starts }
  | .starts => client.enter .startStream
  | .calls => client.enter (if client.i < npack then .nextStream else .endStream)
  | _ => none

/-- The half at which `copy_to_user` writes to `offset`. -/
def pointed (client : StreamClient) (running : Running) (event : Event) : U32 :=
  if event = .copied then running.retarg else client.offset

/-- An ioctl that fails is reported on the terminal, and the client goes on. -/
def returned (client : StreamClient) (command : Command) (after : Device) : StreamClient :=
  match command with
  | .startStream => { client with device := after, point := .calls }
  | .nextStream => { client with
      device := after
      point := .sends false loopParts []
      outcomes := client.outcomes ++ [decide (after.ret = 0#32)] }
  | .endStream => { client with
      device := after
      point := .sends true lastParts []
      outcomes := client.outcomes ++ [decide (after.ret = 0#32)] }

def proceed (client : StreamClient) (event : Event) : Option StreamClient :=
  match client.point, client.device.call with
  | .inCall command, some running =>
      (client.device.step (.proceed event)).map fun after =>
        let client := { client with offset := client.pointed running event }
        if after.call = none then client.returned command after
        else { client with device := after }
  | _, _ => none

def interrupt (client : StreamClient) (dma : ℕ) : Option StreamClient :=
  if client.device.stream.card.dmas[dma]?.map Dma.bytes = some (client.arrived dma) then
    (client.device.step (.interrupt dma)).map fun device => { client with device := device }
  else none

/-- The next byte of a DMA; `source` is what the card has to tell. -/
def arrive (source : ℕ → ℕ → U8) (client : StreamClient) (dma : ℕ) : Option StreamClient :=
  match client.device.stream.card.dmas[dma]? with
  | none => none
  | some started =>
      let index := client.arrived dma
      if dma ∈ client.device.stream.card.running ∧ index < started.bytes then
        some { client with
          buffer := client.buffer.writeBus client.device.stream.descr.bufferHwAddr.toNat
            (2 * bufSize) (started.address.toNat + index) (source dma index)
          arrived := Function.update client.arrived dma (index + 1) }
      else none

def sentAll (last : Bool) (client : StreamClient) : StreamClient :=
  if last then { client with point := .done }
  else { client with point := .calls, i := client.i + 1 }

def send (pageFrame : ℕ → ℕ) (pageShift : ℕ) (client : StreamClient) : Option StreamClient :=
  match client.point with
  | .sends last ((socket, start) :: rest) taken =>
      (client.mapped pageFrame pageShift (client.vma.vmStart.toNat + client.offset.toNat + start +
        taken.length)).map fun byte =>
          if taken.length + 1 < bufLen / 4 then
            { client with point := .sends last ((socket, start) :: rest) (taken ++ [byte]) }
          else
            let client := { client with
              sent := client.sent ++ [Datagram.mk socket (taken ++ [byte])] }
            if rest = [] then client.sentAll last else { client with point := .sends last rest [] }
  | _ => none

def sendFails (client : StreamClient) : Option StreamClient :=
  match client.point with
  | .sends _ _ _ => some { client with point := .done }
  | _ => none

def step (pageFrame : ℕ → ℕ) (pageShift : ℕ) (source : ℕ → ℕ → U8) (client : StreamClient) :
    ClientAction → Option StreamClient
  | .call => client.call
  | .proceed event => client.proceed event
  | .interrupt dma => client.interrupt dma
  | .arrive dma => client.arrive source dma
  | .send => client.send pageFrame pageShift
  | .sendFails => client.sendFails

end StreamClient

/-- Allocations and vmas start with a page, and the bus has the pages where they are. -/
structure Aligned (pageFrame : ℕ → ℕ) (pageShift : ℕ) (descr : PcieDescr) (vma : VmArea) : Prop where
  buffer : 2 ^ pageShift ∣ descr.buffer.toNat
  bus : 2 ^ pageShift ∣ descr.bufferHwAddr.toNat
  start : 2 ^ pageShift ∣ vma.vmStart.toNat
  direct : DirectMapped pageFrame pageShift descr

/-- The client has opened a device of the probe's settings on which no stream is open, and
has mapped `32*1024+1` bytes of it. -/
structure Opened (pageFrame : ℕ → ℕ) (pageShift : ℕ) (client : StreamClient) : Prop where
  reached : streamSystem.ReachableUnder FollowsProtocol client.device
  idle : client.device.call = none
  closed : client.device.stream.isOpen = false
  settings : client.device.stream.descr.tlpSize = 32#32 ∧
    client.device.stream.descr.tlpCount = 128#32
  aligned : Aligned pageFrame pageShift client.device.stream.descr client.vma
  maps : pagesFor (2 ^ pageShift) (32 * 1024 + 1) ≤ client.vma.pages pageShift
  begins : client.point = .setsCount ∧ client.i = 1 ∧ client.offset = 0#32 ∧ client.sent = []
  records : client.first = client.device.stream.card.dmas.length ∧ client.outcomes = [] ∧
    ∀ dma, client.first ≤ dma → client.arrived dma = 0

/-- `pageFrame` is the page frame behind a page of the kernel's addresses. -/
def clientSystem (pageFrame : ℕ → ℕ) (pageShift : ℕ) (source : ℕ → ℕ → U8) :
    System StreamClient ClientAction where
  initial := Opened pageFrame pageShift
  step := StreamClient.step pageFrame pageShift source

/-- No signal reaches the client; `offset` is a variable of its own. -/
def Undisrupted (_ : StreamClient) (action : ClientAction) : Prop :=
  action ≠ .proceed .signalled ∧ action ≠ .proceed .faulted

instance (client : StreamClient) (action : ClientAction) : Decidable (Undisrupted client action) :=
  instDecidableAnd

section Mapping

variable {pageFrame : ℕ → ℕ} {pageShift : ℕ} {client : StreamClient} {descr : PcieDescr}
  {vma : VmArea}

theorem Aligned.congr (aligned : Aligned pageFrame pageShift descr vma) {after : PcieDescr}
    (buffer : after.buffer = descr.buffer) (hwAddr : after.bufferHwAddr = descr.bufferHwAddr) :
    Aligned pageFrame pageShift after vma := by
  have page : after.bufferPage pageShift = descr.bufferPage pageShift := by
    rw [PcieDescr.bufferPage, buffer, PcieDescr.bufferPage]
  have pages : after.bufferPages pageShift = descr.bufferPages pageShift := by
    rw [PcieDescr.bufferPages, buffer, PcieDescr.bufferPages]
  have pfn : after.bufferPfn pageShift = descr.bufferPfn pageShift := by
    rw [PcieDescr.bufferPfn, hwAddr, PcieDescr.bufferPfn]
  constructor
  · rw [buffer]
    exact aligned.buffer
  · rw [hwAddr]
    exact aligned.bus
  · exact aligned.start
  · intro offset inside
    rw [pages] at inside
    rw [page, pfn]
    exact aligned.direct offset inside

theorem byte_frame_eq (aligned : Aligned pageFrame pageShift descr vma) {index : ℕ}
    (inside : index < 2 * bufSize) : descr.byteFrame pageFrame pageShift index =
      (descr.bufferPfn pageShift).toNat * 2 ^ pageShift + index := by
  have positive : 0 < 2 ^ pageShift := Nat.two_pow_pos pageShift
  obtain ⟨page, start⟩ := aligned.buffer
  have first : descr.bufferPage pageShift = page := by
    rw [PcieDescr.bufferPage, start, Nat.mul_div_cancel_left page positive]
  have within : index / 2 ^ pageShift < descr.bufferPages pageShift := by
    rw [PcieDescr.bufferPages, pagesTouched, start, Nat.mul_mod_right, Nat.zero_add,
      Nat.div_lt_iff_lt_mul positive]
    exact Nat.lt_of_lt_of_le inside (size_le_round_up positive)
  have quotient : (descr.buffer.toNat + index) / 2 ^ pageShift =
      descr.bufferPage pageShift + index / 2 ^ pageShift := by
    rw [first, start, Nat.mul_add_div positive]
  have remainder : (descr.buffer.toNat + index) % 2 ^ pageShift = index % 2 ^ pageShift := by
    rw [start, Nat.mul_add_mod]
  have parts := Nat.div_add_mod index (2 ^ pageShift)
  rw [PcieDescr.byteFrame, quotient, remainder, aligned.direct _ within, Nat.add_mul,
    Nat.mul_comm (index / _)]
  omega

theorem mapped_byte (aligned : Aligned pageFrame pageShift client.device.stream.descr client.vma)
    (maps : pagesFor (2 ^ pageShift) (32 * 1024 + 1) ≤ client.vma.pages pageShift) {index : ℕ}
    (inside : index < 2 * bufSize) :
    client.mapped pageFrame pageShift (client.vma.vmStart.toNat + index) =
      some (client.buffer index) := by
  have positive : 0 < 2 ^ pageShift := Nat.two_pow_pos pageShift
  obtain ⟨page, start⟩ := aligned.start
  have firstPage : client.vma.firstPage pageShift = page := by
    rw [VmArea.firstPage, start, Nat.mul_div_cancel_left page positive]
  have quotient : (client.vma.vmStart.toNat + index) / 2 ^ pageShift =
      client.vma.firstPage pageShift + index / 2 ^ pageShift := by
    rw [firstPage, start, Nat.mul_add_div positive]
  have remainder : (client.vma.vmStart.toNat + index) % 2 ^ pageShift = index % 2 ^ pageShift := by
    rw [start, Nat.mul_add_mod]
  have bound : index / 2 ^ pageShift < client.vma.pages pageShift := by
    apply Nat.lt_of_lt_of_le _ maps
    rw [Nat.div_lt_iff_lt_mul positive]
    have covers := @size_le_round_up (2 ^ pageShift) (32 * 1024 + 1) positive
    simp only [roundUp, bufSize] at covers inside
    omega
  have entry := @remapped_page pageShift client.device.stream.descr client.vma _ bound
  rw [← quotient] at entry
  have place : ((client.device.stream.descr.bufferPfn pageShift).toNat + index / 2 ^ pageShift) *
      2 ^ pageShift + index % 2 ^ pageShift =
        client.device.stream.descr.byteFrame pageFrame pageShift index := by
    have parts := Nat.div_add_mod index (2 ^ pageShift)
    rw [byte_frame_eq aligned inside, Nat.add_mul, Nat.mul_comm (index / _)]
    omega
  have found : ((List.range (2 * bufSize)).find? fun other =>
      client.device.stream.descr.byteFrame pageFrame pageShift other =
        client.device.stream.descr.byteFrame pageFrame pageShift index) = some index := by
    rw [List.find?_range_eq_some]
    refine ⟨decide_eq_true rfl, List.mem_range.mpr inside, ?_⟩
    intro other before
    have apart := byte_frame_eq aligned (Nat.lt_trans before inside)
    rw [apart, byte_frame_eq aligned inside, Bool.not_eq_true', decide_eq_false_iff_not]
    omega
  rw [StreamClient.mapped, translate_eq entry, remainder, place, Option.bind_some, found,
    Option.map_some]

end Mapping

end FpgaPcie.Creotech
