import FpgaPcie.Lib.Polling
import FpgaPcie.Mprace.EngineWG

/-!
# Waiting for a channel

`waitChannel` and the two transfer calls around it. What the board, the clock and
the driver do while the call waits comes from an `Environment`; the loops run on
fuel, and `none` means that they have not stopped within it.
-/

namespace FpgaPcie.Mprace

open FpgaPcie.Polling

set_option autoImplicit false

inductive DMAStatus where
  | idle
  | busy
  | timeout
  | error
  deriving DecidableEq, Repr

def statusTout : U32 := 0x00000010#32
def statusBusy : U32 := 0x00000002#32
def statusDone : U32 := 0x00000001#32

/-- `getStatus`, on the value read from register 8 of the channel. -/
def getStatus (status : U32) : DMAStatus :=
  if status &&& statusBusy ≠ 0 ∧ status &&& statusDone ≠ 0 then .error
  else if status &&& statusBusy ≠ 0 then .busy
  else if status &&& statusTout ≠ 0 then .timeout
  else .idle

/-- What a waiting call meets. Instants count the reads of the status register, or
in interrupt mode the first read and then the attempts of the driver's `WAITI`
loop to take an interrupt. -/
structure Environment (Time : Type) where
  register : ℕ → U32
  /-- the timer, stopped at an instant -/
  elapsed : ℕ → Time
  /-- whether an attempt finds the interrupt count of the channel positive -/
  counted : ℕ → Bool
  /-- the exception of `waitForInterrupt`, when the ioctl is refused -/
  waitiFails : Option Exception
  /-- the register of actually transferred bytes, where the board has one -/
  dmatrans : Option U32
  /-- what the device has put into the memory it writes -/
  arrived : List U8 → List U8

/-- How a call ended: normally (`thrown = none`) or by an exception, in which world,
and at which instant. -/
structure Waited where
  thrown : Option Exception
  world : World
  instant : ℕ

def Waiting (status : DMAStatus) : Prop := status ≠ .idle ∧ status ≠ .timeout

instance (status : DMAStatus) : Decidable (Waiting status) := instDecidableAnd

section Waiting

variable {Time : Type} [Zero Time] [LT Time] [DecidableLT Time]

/-- `timeout > 0.0 && timer.asMillis() > timeout`. -/
def expired (timeout elapsed : Time) : Bool := decide (0 < timeout) && decide (timeout < elapsed)

inductive PollEnd where
  | settled
  | expired
  deriving DecidableEq, Repr

/-- One turn of the polling loop. The register is also read before the loop and at
the end of each turn, to a variable nothing uses; turn `k` therefore looks at
read `2 * k + 1`. -/
def pollOnce (env : Environment Time) (timeout : Time) (turn : ℕ) : Option PollEnd :=
  if Waiting (getStatus (env.register (2 * turn + 1))) then
    if expired timeout (env.elapsed (2 * turn + 1)) then some .expired else none
  else some .settled

/-- One turn of the driver's loop: try to take an interrupt from the count. -/
def takeInterrupt (env : Environment Time) (attempt : ℕ) : Option Unit :=
  if env.counted attempt then some () else none

def finish (world : World) (ch : Channel) (thrown : Option Exception) (instant : ℕ) :
    Option Waited :=
  (world.restoreIfSaved ch).map fun restored => ⟨thrown, restored, instant⟩

/-- The end of the interrupt branch: the software timeout is checked once. -/
def finishInterrupt (world : World) (ch : Channel) (env : Environment Time) (timeout : Time)
    (instant : ℕ) : Option Waited :=
  if expired timeout (env.elapsed instant) then
    finish world ch (some (.dmaTimeout env.dmatrans)) instant
  else finish world ch none instant

def waitChannel (world : World) (ch : Channel) (timeout : Time) (env : Environment Time)
    (fuel : ℕ) : Option Waited :=
  if world.engine.useInterrupts then
    if Waiting (getStatus (env.register 0)) then
      let enabled := world.engine.enableInterrupt ch
      match env.waitiFails with
      | some exception => some ⟨some exception, { world with engine := enabled }, 0⟩
      | none =>
          match firstStop (takeInterrupt env) fuel 0 with
          | none => none
          | some (attempt, _) =>
              finishInterrupt { world with engine := enabled.disableInterrupt ch } ch env timeout
                (attempt + 1)
    else finishInterrupt world ch env timeout 0
  else
    match firstStop (pollOnce env timeout) fuel 0 with
    | none => none
    | some (turn, .expired) =>
        finish world ch (some (.dmaTimeout env.dmatrans)) (2 * turn + 1)
    | some (turn, .settled) => finish world ch none (2 * turn + 1)

def DMABuffer.receive (buf : DMABuffer) (arrived : List U8 → List U8) : DMABuffer :=
  match buf.memory with
  | .user _ => { buf with bounce := arrived buf.bounce }
  | _ => { buf with host := arrived buf.host }

namespace World

def mapBuf (world : World) (b : BufId) (edit : DMABuffer → DMABuffer) : World :=
  { world with bufs := Function.update world.bufs b ((world.bufs b).map edit) }

/-- `lock` with the environment of the wait, or a call that returns at once. -/
def host2board (world : World) (b : BufId) (request : Request)
    (lock : Option (Time × Environment Time)) (fuel : ℕ) : Option Waited :=
  match world.bufs b with
  | none => none
  | some buf =>
      match checkRequest buf request with
      | some exception => some ⟨some exception, world, 0⟩
      | none =>
          match world.startHost2board b request with
          | none => none
          | some started =>
              match lock with
              | none => some ⟨none, started, 0⟩
              | some (timeout, env) => waitChannel started 0 timeout env fuel

/-- The buffer is synchronised from the device however the wait ends. -/
def board2host (world : World) (b : BufId) (request : Request)
    (lock : Option (Time × Environment Time)) (fuel : ℕ) : Option Waited :=
  match world.bufs b with
  | none => none
  | some buf =>
      match checkRequest buf request with
      | some exception => some ⟨some exception, world, 0⟩
      | none =>
          match world.startBoard2host b request with
          | none => none
          | some started =>
              match lock with
              | none => some ⟨none, started, 0⟩
              | some (timeout, env) =>
                  (waitChannel (started.mapBuf b fun buf => buf.receive env.arrived) 1 timeout env
                    fuel).map fun waited =>
                      { waited with
                        world := waited.world.mapBuf b fun buf => buf.sync .fromDevice }

/-- The call for a channel: `host2board` on 0, `board2host` on 1. -/
def transfer (world : World) (ch : Channel) (b : BufId) (request : Request)
    (lock : Option (Time × Environment Time)) (fuel : ℕ) : Option Waited :=
  if ch = 0 then world.host2board b request lock fuel else world.board2host b request lock fuel

end World

end Waiting

end FpgaPcie.Mprace
