import FpgaPcie.Lib.Ram
import FpgaPcie.Lib.Scatter
import FpgaPcie.Lib.Refinement
import FpgaPcie.Mprace.KernelPath
import FpgaPcie.Mprace.ListIntegrity
import FpgaPcie.Mprace.UserBuffer

/-!
# A program that copies between buffers and the board

The whole way of a transfer: the driver maps the user's pages, the library makes descriptors of
them, a call edits the list and writes the first descriptor to the channel, the engine walks the
chain and moves bytes, and the wait puts the list back. The engine knows bus addresses only; where
the bytes of a buffer really lie is kept apart from the list, as the kernel has it. Calls wait for
their transfer. A wait can end while the engine is still at work, which then goes on along a list
that has been put back; such calls are not followed here.
-/

namespace FpgaPcie.Mprace

open FpgaPcie.Segments FpgaPcie.Scatter FpgaPcie.Transition FpgaPcie.Driver FpgaPcie.Driver.Umem

set_option autoImplicit false

/-- Where on the board a transfer goes. Without `inc` all words have the same address. -/
structure BoardPlace where
  bar : U32
  address : U64
  inc : Bool
  deriving DecidableEq, Repr

def Descriptor.place (d : Descriptor) : BoardPlace where
  bar := (d.control >>> 16) &&& 7#32
  address := join d.perAddrH d.perAddrL
  inc := d.control &&& ctrlInc != 0

def Request.place (request : Request) : BoardPlace where
  bar := request.bar &&& 7#32
  address := (request.addr * 4).setWidth 64
  inc := request.inc

structure BoardSide (Board : Type) where
  store : BoardPlace → List U8 → Board → Board
  fetch : BoardPlace → ℕ → Board → List U8 × Board
  fetch_length : ∀ place count board, (fetch place count board).1.length = count

/-- A board of memory, one for each bar. Without `inc` only the dword addressed is used. -/
def memoryBoard : BoardSide (U32 × ℕ → U8) where
  store place bytes memory := Ram.contents
    (((List.range bytes.length).map fun index => (place.bar, place.address.toNat +
      if place.inc then index else index % 4)).zip bytes) memory
  fetch place count memory := ((List.range count).map fun index => memory (place.bar,
    place.address.toNat + if place.inc then index else index % 4), memory)
  fetch_length place count memory := by rw [List.length_map, List.length_range]

/-- What a `DMABuffer` is constructed on; user memory is mapped on the way. -/
inductive Source where
  | kernel (kBuf : U64)
  | kernelPieces (kBuf : U64) (pieces : U32)
  | user (os : Kernel) (sgmap : SgmapOutcome) (sgget : SggetOutcome) (privdata : Umem.Privdata)
      (mem : U64)

namespace Source

/-- `none` when `mapUserMemory` throws. -/
def memory (size : U32) : Source → Option Memory
  | .kernel kBuf => some (.kernel kBuf)
  | .kernelPieces kBuf pieces => some (.kernelPieces kBuf pieces)
  | .user os sgmap sgget privdata mem =>
      match (UserMemory.construct os sgmap sgget privdata mem size true).2 with
      | .error _ => none
      | .ok object => some (.user object.sg)

def placed (size : U32) : Source → List U64
  | .kernel kBuf => expand ⟨kBuf, size.toNat⟩
  | .kernelPieces kBuf _ => expand ⟨kBuf, size.toNat⟩
  | .user os _ _ _ mem => busTranslation os mem size

def Honest : Source → Prop
  | .user os _ _ privdata _ => KernelHonest os ∧ IdUnused privdata
  | _ => True

end Source

/-- The bytes at these addresses, as far as the device is concerned. -/
def DMABuffer.deviceBytes (buf : DMABuffer) : List U8 :=
  match buf.memory with
  | .user _ => buf.bounce
  | _ => buf.host

structure Machine (Board : Type) where
  world : World
  placed : BufId → List U64
  board : Board

/-- The addresses a channel will go through. A `KERNEL` transfer has no list to follow. -/
def World.chainOf (world : World) (ch : Channel) (b : BufId) : Option (List U64) :=
  (world.bufs b).bind fun buf =>
    (walkChain buf.descriptors (buf.descriptors.length + 1) (world.engine.channel ch)).map expandAll

/-- `progress` tells how many bytes of its chain the engine has moved at an instant of the wait. -/
inductive CopyCall (Time : Type) where
  | create (b : BufId) (source : Source) (size : U32) (pas : List U64) (host bounce : List U8)
  | destroy (b : BufId)
  | poke (b : BufId) (position : ℕ) (bytes : List U8)
  | write (b : BufId) (request : Request) (progress : ℕ → ℕ) (timeout : Time)
      (env : Environment Time) (fuel : ℕ)
  | read (b : BufId) (request : Request) (progress : ℕ → ℕ) (timeout : Time)
      (env : Environment Time) (fuel : ℕ)

namespace Machine

variable {Board : Type} (machine : Machine Board)

def create (b : BufId) (source : Source) (size : U32) (pas : List U64) (host bounce : List U8) :
    Option (Machine Board) :=
  (source.memory size).bind fun memory =>
    (machine.world.create b ⟨memory, size, [], host, bounce⟩ pas).map fun world =>
      { machine with
        world := world
        placed := Function.update machine.placed b (source.placed size) }

def poke (b : BufId) (position : ℕ) (bytes : List U8) : Machine Board :=
  { machine with
    world := machine.world.mapBuf b fun buf => { buf with host := splice buf.host position bytes } }

variable {Time : Type} [Zero Time] [LT Time] [DecidableLT Time]

/-- A blocking `host2board`. `none` where it does not return, the chain does not end, or the engine
is still at work when the wait ends. -/
def write (side : BoardSide Board) (b : BufId) (request : Request) (progress : ℕ → ℕ)
    (timeout : Time) (env : Environment Time) (fuel : ℕ) : Option (Machine Board) :=
  (machine.world.bufs b).bind fun buf =>
    if checkRequest buf request ≠ none then some machine
    else
      (machine.world.startHost2board b request).bind fun started =>
        (started.chainOf 0 b).bind fun targets =>
          (started.bufs b).bind fun sent =>
            (machine.world.host2board b request (some (timeout, env)) fuel).bind fun waited =>
              if targets.length ≤ progress waited.instant then
                some { machine with
                  world := waited.world
                  board := side.store (started.engine.channel 0).place
                    (pick (machine.placed b) sent.deviceBytes 0 targets) machine.board }
              else none

/-- A blocking `board2host`; what the device has put into memory is what the board sent. `none` as
for `write`. -/
def read (side : BoardSide Board) (b : BufId) (request : Request) (progress : ℕ → ℕ)
    (timeout : Time) (env : Environment Time) (fuel : ℕ) : Option (Machine Board) :=
  (machine.world.bufs b).bind fun buf =>
    if checkRequest buf request ≠ none then some machine
    else
      (machine.world.startBoard2host b request).bind fun started =>
        (started.chainOf 1 b).bind fun targets =>
          let sent := side.fetch (started.engine.channel 1).place targets.length machine.board
          (machine.world.board2host b request (some (timeout, { env with
            arrived := put (machine.placed b) (targets.zip sent.1) })) fuel).bind fun waited =>
              if targets.length ≤ progress waited.instant then
                some { machine with world := waited.world, board := sent.2 }
              else none

def call (side : BoardSide Board) : CopyCall Time → Option (Machine Board)
  | .create b source size pas host bounce => machine.create b source size pas host bounce
  | .destroy b => (machine.world.destroy b).map fun world => { machine with world := world }
  | .poke b position bytes => some (machine.poke b position bytes)
  | .write b request progress timeout env fuel =>
      machine.write side b request progress timeout env fuel
  | .read b request progress timeout env fuel =>
      machine.read side b request progress timeout env fuel

end Machine

variable {Board Time : Type} [Zero Time] [LT Time] [DecidableLT Time]

variable (Time) in
def copySystem (side : BoardSide Board) : System (Machine Board) (CopyCall Time) where
  initial machine := (∀ ch, machine.world.engine.saved ch = false) ∧
    ∀ b, machine.world.bufs b = none
  step machine := machine.call side

structure Copies (Board : Type) where
  contents : BufId → Option (List U8)
  board : Board

inductive Operation where
  | create (b : BufId) (bytes : List U8)
  | destroy (b : BufId)
  | poke (b : BufId) (position : ℕ) (bytes : List U8)
  | write (b : BufId) (request : Request)
  | read (b : BufId) (request : Request)

/-- The requests that throw: empty ones, and ones that reach past the end. -/
def RefusedRequest (size : ℕ) (request : Request) : Prop :=
  request.count.toNat = 0 ∨ size < 4 * (request.offset.toNat + request.count.toNat)

instance (size : ℕ) (request : Request) : Decidable (RefusedRequest size request) := instDecidableOr

def copySpec (side : BoardSide Board) (before : Copies Board) (operation : Operation)
    (after : Copies Board) : Prop :=
  match operation with
  | .create b bytes => before.contents b = none ∧
      after = { before with contents := Function.update before.contents b (some bytes) }
  | .destroy b => after = { before with contents := Function.update before.contents b none }
  | .poke b position bytes => after = { before with
      contents := Function.update before.contents b
        ((before.contents b).map fun old => splice old position bytes) }
  | .write b request => ∃ bytes, before.contents b = some bytes ∧
      after = if RefusedRequest bytes.length request then before else { before with
        board := side.store request.place ((bytes.drop (4 * request.offset.toNat)).take
          (4 * request.count.toNat)) before.board }
  | .read b request => ∃ bytes, before.contents b = some bytes ∧
      after = if RefusedRequest bytes.length request then before else
        let sent := side.fetch request.place (4 * request.count.toNat) before.board
        ⟨Function.update before.contents b
          (some (splice bytes (4 * request.offset.toNat) sent.1)), sent.2⟩

def Machine.view (machine : Machine Board) : Copies Board :=
  ⟨fun b => (machine.world.bufs b).map DMABuffer.host, machine.board⟩

def CopyCall.operation : CopyCall Time → Operation
  | .create b _ _ _ host _ => .create b host
  | .destroy b => .destroy b
  | .poke b position bytes => .poke b position bytes
  | .write b request _ _ _ _ => .write b request
  | .read b request _ _ _ _ => .read b request

end FpgaPcie.Mprace
