import FpgaPcie.Mprace.CutDescriptors
import FpgaPcie.Mprace.InterruptEnable
import FpgaPcie.Mprace.ListIntegrity

/-!
# The engine on its way through a list

The board next to the library. A channel takes its first descriptor from its registers
and every further one from host memory, at the moment it has finished the one before.
Meanwhile the program goes on with its calls: a call that waits is one step for the start
of the transfer and one for the end of the wait, with whatever the channels do in between.
-/

namespace FpgaPcie.Mprace

open FpgaPcie.Segments FpgaPcie.Transition FpgaPcie.LinkReader DMADescriptorWG

set_option autoImplicit false

/-- One channel of the board: the descriptor it works on, and the ranges of all it has
loaded since it was started. `requested` holds the bytes of the request, if it was for a
buffer whose list was as it had been filled. -/
structure Walk where
  current : Option Descriptor
  loaded : List (Segment U64)
  requested : Option (List U64)

namespace Walk

def idle : Walk := ⟨none, [], none⟩

def begin (registers : Descriptor) (requested : Option (List U64)) : Walk :=
  ⟨some registers, [registers.segment], requested⟩

def load (walk : Walk) (d : Descriptor) : Walk :=
  { walk with current := some d, loaded := walk.loaded ++ [d.segment] }

def stop (walk : Walk) : Walk := { walk with current := none }

end Walk

structure Session where
  world : World
  made : List BufId
  walks : Channel → Walk

def hostMemory (made : List BufId) (bufs : BufId → Option DMABuffer) (address : U64) :
    Option Descriptor :=
  made.findSome? fun b => (bufs b).bind fun buf =>
    (buf.descriptors.find? fun d => d.pa == address).map DMADescriptorWG.native

/-- The bus addresses of bytes `4*offset` to `4*(offset+count)-1`. -/
def requestedBytes (buf : DMABuffer) (request : Request) : Option (List U64) :=
  if buf.hasList = true ∧ buf.descriptors = buf.filled then
    some (((busAddresses buf.filled).drop (4 * request.offset.toNat)).take
      (4 * request.count.toNat))
  else none

/-- What the program, the device and the channels can do. `arrive` is what the device has
written by the time a read is over, `garbage` what memory without a descriptor holds. -/
inductive WalkStep (Time : Type) where
  | create (b : BufId) (buf : DMABuffer) (pas : List U64)
  | start (ch : Channel) (b : BufId) (request : Request)
  | arrive (b : BufId) (arrived : List U8 → List U8)
  | wait (ch : Channel) (timeout : Time) (env : Environment Time) (fuel : ℕ)
  | sync (b : BufId) (dir : SyncDir)
  | getStatus (ch : Channel)
  | reset (ch : Channel)
  | setUseInterrupts (value : Bool)
  | destroy (b : BufId)
  | engine (ch : Channel) (garbage : Descriptor)

namespace Session

def memory (session : Session) : U64 → Option Descriptor :=
  hostMemory session.made session.world.bufs

def setWalk (session : Session) (ch : Channel) (walk : Walk) : Session :=
  { session with walks := Function.update session.walks ch walk }

/-- The list memory of a new buffer is memory that no other list has. -/
def Fresh (session : Session) (pas : List U64) : Prop :=
  pas.Nodup ∧ ∀ address ∈ pas, session.memory address = none

instance (session : Session) (pas : List U64) : Decidable (session.Fresh pas) :=
  @instDecidableAnd _ _ (List.nodupDecidable pas) (List.decidableBAll _ pas)

/-- `host2board` or `board2host` up to the start of the transfer; a request that is refused
comes before the reset of the channel. -/
def start (session : Session) (ch : Channel) (b : BufId) (request : Request) : Option Session :=
  match session.world.bufs b with
  | none => none
  | some buf =>
      match checkRequest buf request with
      | some _ => some session
      | none =>
          (session.world.start ch b request).map fun started =>
            { world := started
              made := session.made
              walks := Function.update session.walks ch
                (.begin (started.engine.channel ch) (requestedBytes buf request)) }

def advance (session : Session) (ch : Channel) (garbage : Descriptor) : Option Session :=
  match (session.walks ch).current with
  | none => none
  | some current =>
      some (session.setWalk ch (if hasLast current.control then (session.walks ch).stop
        else (session.walks ch).load ((session.memory current.nextBda).getD garbage)))

variable {Time : Type} [Zero Time] [LT Time] [DecidableLT Time]

def step (session : Session) : WalkStep Time → Option Session
  | .create b buf pas =>
      if session.Fresh pas then
        (session.world.create b buf pas).map fun world =>
          { session with world := world, made := b :: session.made }
      else none
  | .start ch b request => session.start ch b request
  | .arrive b arrived =>
      some { session with world := session.world.mapBuf b fun buf => buf.receive arrived }
  | .wait ch timeout env fuel =>
      (waitChannel session.world ch timeout env fuel).map fun waited =>
        { session with world := waited.world }
  | .sync b dir => some { session with world := session.world.mapBuf b fun buf => buf.sync dir }
  | .getStatus _ => some session
  | .reset ch =>
      some { session.setWalk ch (session.walks ch).stop with
        world := { session.world with engine := session.world.engine.reset ch } }
  | .setUseInterrupts value =>
      some { session with
        world := { session.world with engine := session.world.engine.setUseInterrupts value } }
  | .destroy b => (session.world.destroy b).map fun world => { session with world := world }
  | .engine ch garbage => session.advance ch garbage

variable (Time) in
def system : System Session (WalkStep Time) where
  initial session := (∀ ch, session.world.engine.saved ch = false) ∧
    (∀ b, session.world.bufs b = none) ∧ ∀ ch, session.walks ch = .idle
  step := Session.step

/-- A channel that works on a request has still to read the descriptor at an address. -/
def Unread (session : Session) (ch : Channel) (address : U64) : Prop :=
  (session.walks ch).requested ≠ none ∧ ∃ current, (session.walks ch).current = some current ∧
    StillToRead engineFormat session.memory current address

/-- The driver refuses the ioctl of `waitForInterrupt`; its exception leaves `waitChannel`
before the list is restored. -/
def Refused (session : Session) (env : Environment Time) : Prop :=
  session.world.engine.useInterrupts = true ∧ Waiting (getStatus (env.register 0)) ∧
    env.waitiFails ≠ none

/-- Steps that take nothing from under a channel: a transfer is started for a range whose
end does not wrap, and its control word takes the place of no `CTRL_LAST` the other channel
has still to read; a wait restores no descriptor, and a buffer is destroyed with none, that
a channel has still to read. -/
def Careful (session : Session) : WalkStep Time → Prop
  | .start ch b request => ∀ buf, session.world.bufs b = some buf →
      checkRequest buf request = none → buf.hasList = true →
        (buf.descriptors = buf.filled → request.offset.toNat + request.count.toNat < 2 ^ 32) ∧
        ∀ index d, secondDescriptor request buf.size buf.descriptors = some index →
          buf.descriptors[index]? = some d → hasLast d.native.control = true →
            ¬session.Unread (flip ch) d.pa
  | .wait ch _ env _ => session.world.engine.saved ch = true → ¬session.Refused env →
      ∀ buf, session.world.bufs (session.world.engine.savedData ch).savedBuf = some buf →
        ∀ index d, buf.descriptors[index]? = some d →
          Rewrites (session.world.engine.savedData ch) index d.native →
            ∀ other, ¬session.Unread other d.pa
  | .destroy b => ∀ buf, session.world.bufs b = some buf →
      ∀ d ∈ buf.descriptors, ∀ ch, ¬session.Unread ch d.pa
  | _ => True

theorem start_accepted {session : Session} {ch : Channel} {b : BufId} {buf : DMABuffer}
    {request : Request} {started : World} (live : session.world.bufs b = some buf)
    (checked : checkRequest buf request = none)
    (begins : session.world.start ch b request = some started) :
    session.start ch b request = some
      { world := started
        made := session.made
        walks := Function.update session.walks ch
          (.begin (started.engine.channel ch) (requestedBytes buf request)) } := by
  simp only [Session.start, live, checked, begins, Option.map_some]

/-- A transfer call, whether it waits or not, is a run of steps of the program and the
device, between any two of which the channels can move. -/
theorem transfer_is_run {session : Session} {ch : Channel} {b : BufId} {request : Request}
    {lock : Option (Time × Environment Time)} {fuel : ℕ} {waited : Waited}
    (result : session.world.transfer ch b request lock fuel = some waited) :
    ∃ steps after, (system Time).runFrom session steps = some after ∧
      after.world = waited.world ∧
        ∀ step ∈ steps, ∀ other garbage, step ≠ .engine other garbage := by
  obtain ⟨buf, live, same | ⟨checked, started, begins, rest⟩⟩ := transfer_cases result
  · exact ⟨[], session, rfl, same.symm, by simp⟩
  · let walks := Function.update session.walks ch
      (.begin (started.engine.channel ch) (requestedBytes buf request))
    have first : session.start ch b request = some ⟨started, session.made, walks⟩ :=
      start_accepted live checked begins
    rcases rest with same | ⟨timeout, env, waits⟩ | ⟨timeout, env, before, waits, same⟩
    · refine ⟨[.start ch b request], ⟨started, session.made, walks⟩, ?_, same.symm, by simp⟩
      simp only [System.runFrom, system, Session.step, first]
    · refine ⟨[.start ch b request, .wait ch timeout env fuel],
        ⟨waited.world, session.made, walks⟩, ?_, rfl, by simp⟩
      simp only [System.runFrom, system, Session.step, first, waits, Option.map_some]
    · refine ⟨[.start ch b request, .arrive b env.arrived, .wait ch timeout env fuel,
        .sync b .fromDevice], ⟨waited.world, session.made, walks⟩, ?_, rfl, by simp⟩
      simp only [System.runFrom, system, Session.step, first, waits, Option.map_some, same]

end Session

end FpgaPcie.Mprace
