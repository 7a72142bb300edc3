import FpgaPcie.Creotech.Moves
import FpgaPcie.Creotech.StreamStage

/-!
# The halves of a stream in order

Between the calls of an open stream exactly one DMA has been started beyond the halves
handed out, and `dma_done` is false exactly while it runs. Every point of a call has a
stage of its own; the handler, which may run at any of them, finds a DMA running only
where a call waits or no call is at work, or behind the last start of the call.
-/

namespace FpgaPcie.Creotech

open FpgaPcie.Transition

set_option autoImplicit false

/-- `even_buffer` selects the half of DMA `turn`. -/
def Turned (stream : Stream) (turn : ℕ) : Prop :=
  stream.descr.evenBuffer = decide (turn % 2 = 0)

theorem Turned.flips {stream : Stream} {turn : ℕ} (turned : Turned stream turn) :
    (!stream.descr.evenBuffer) = decide ((turn + 1) % 2 = 0) := by
  rw [turned]
  by_cases even : turn % 2 = 0
  · have odd : ¬(turn + 1) % 2 = 0 := by omega
    simp [even, odd]
  · have even' : (turn + 1) % 2 = 0 := by omega
    simp [even, even']

theorem Turned.retarg {stream : Stream} {turn : ℕ} (turned : Turned stream turn) :
    stream.retarg = streamHalf turn := by
  rw [Stream.retarg, turned, streamHalf]
  simp only [decide_eq_true_eq]

theorem stream_half_cases (turn : ℕ) :
    (streamHalf turn).toNat = 0 ∨ (streamHalf turn).toNat = bufSize := by
  by_cases even : turn % 2 = 0
  · exact Or.inl (by simp [streamHalf, even])
  · exact Or.inr (by simp [streamHalf, even, bufSize])

theorem streamed_address {stream : Stream} {turn : ℕ} (turned : Turned stream turn)
    (low : stream.descr.bufferHwAddr.toNat + 2 * bufSize ≤ 2 ^ 32) :
    (stream.descr.tlpAddress 0#64).toNat =
      stream.descr.bufferHwAddr.toNat + (streamHalf turn).toNat := by
  have same : stream.descr.half.toNat = (streamHalf turn).toNat := by
    rw [PcieDescr.half, turned, streamHalf]
    simp only [decide_eq_true_eq]
    split <;> simp [bufSize]
  have small := stream_half_cases turn
  rw [PcieDescr.tlpAddress, BitVec.toNat_setWidth, BitVec.toNat_add, BitVec.toNat_add, same]
  simp only [bufSize] at low small
  simp only [BitVec.toNat_ofNat, Nat.zero_mod, Nat.add_zero, Nat.mod_mod]
  omega

/-- `dma_done` is false exactly while a DMA runs. -/
def Awaited (stream : Stream) : Prop := stream.descr.dmaDone = stream.card.running.isEmpty

structure Streaming (stream : Stream) : Prop where
  isOpen : stream.isOpen = true
  stage : Stage stream.view (stream.view.served + 1)
  turned : Turned stream stream.view.served
  awaited : Awaited stream

structure Closed (stream : Stream) : Prop where
  isOpen : stream.isOpen = false
  stage : Stage stream.view stream.view.served
  quiet : stream.card.running = []

structure Chosen (stream : Stream) (started : ℕ) : Prop where
  stage : Stage stream.view started
  quiet : stream.card.running = []
  turned : Turned stream started

def Prepared (stream : Stream) (running : Running) : Prop :=
  match running.command with
  | .startStream => stream.view.served = 0 ∧ Chosen stream 0
  | .nextStream => running.retarg = streamHalf stream.view.served ∧
      Chosen stream (stream.view.served + 1)
  | .endStream => False

theorem Prepared.quiet {stream : Stream} {running : Running} (here : Prepared stream running) :
    stream.card.running = [] := by
  obtain ⟨command, point, retarg⟩ := running
  cases command with
  | startStream => exact here.2.quiet
  | nextStream => exact here.2.quiet
  | endStream => exact here.elim

theorem Prepared.stage {stream : Stream} {running : Running} (here : Prepared stream running) :
    ∃ started, Stage stream.view started := by
  obtain ⟨command, point, retarg⟩ := running
  cases command with
  | startStream => exact ⟨_, here.2.stage⟩
  | nextStream => exact ⟨_, here.2.stage⟩
  | endStream => exact here.elim

inductive Placed (stream : Stream) : Option Running → Prop where
  | streaming (here : Streaming stream) : Placed stream none
  | closed (here : Closed stream) : Placed stream none
  | starts (retarg : U32) (here : Closed stream) :
      Placed stream (some ⟨.startStream, .select, retarg⟩)
  | waits (running : Running) (call : running.command ≠ .startStream)
      (point : running.point = .check ∨ running.point = .waiting) (here : Streaming stream) :
      Placed stream (some running)
  | ended (running : Running) (call : running.command ≠ .startStream)
      (point : running.point = .recheck ∨ running.point = .waitingDone ∨ running.point = .select)
      (here : Streaming stream) (quiet : stream.card.running = []) : Placed stream (some running)
  | selected (running : Running) (point : running.point = .loop 0 0#64)
      (here : Prepared stream running) : Placed stream (some running)
  | armed (running : Running) (point : running.point = .last 0#64)
      (here : Prepared stream running) (awaited : stream.descr.dmaDone = false) :
      Placed stream (some running)
  | programmed (running : Running) (point : running.point = .launch true 0 0#64)
      (here : Prepared stream running) (awaited : stream.descr.dmaDone = false)
      (registers : Programmed stream.card stream.descr (stream.descr.tlpAddress 0#64)) :
      Placed stream (some running)
  | handsNext (retarg : U32) (half : retarg = streamHalf stream.view.served)
      (stage : Stage stream.view (stream.view.served + 1 + 1))
      (turned : Turned stream (stream.view.served + 1)) (awaited : Awaited stream) :
      Placed stream (some ⟨.nextStream, .copy, retarg⟩)
  | handsEnd (retarg : U32) (half : retarg = streamHalf stream.view.served)
      (stage : Stage stream.view (stream.view.served + 1)) (quiet : stream.card.running = []) :
      Placed stream (some ⟨.endStream, .copy, retarg⟩)

section Interrupts

variable {stream after : Stream} {dma : ℕ}

theorem interrupt_spec (interrupts : stream.interrupt dma = some after) :
    dma ∈ stream.card.running ∧
    after.view = { stream.view with
      running := stream.card.running.erase dma, completed := dma :: stream.card.completed } ∧
    after.isOpen = stream.isOpen ∧ after.descr.evenBuffer = stream.descr.evenBuffer ∧
    after.descr.dmaDone = true := by
  simp only [Stream.interrupt, Option.ite_none_right_eq_some, Option.some.injEq] at interrupts
  obtain ⟨runs, rfl⟩ := interrupts
  exact ⟨runs, rfl, rfl, rfl, rfl⟩

theorem Streaming.interrupted (here : Streaming stream)
    (interrupts : stream.interrupt dma = some after) : Streaming after := by
  obtain ⟨runs, view, isOpen, even, done⟩ := interrupt_spec interrupts
  obtain ⟨stage, quiet⟩ := here.stage.interrupted runs
  have running : after.card.running = [] := (congrArg View.running view).trans quiet
  refine ⟨isOpen.trans here.isOpen, ?_, ?_, ?_⟩
  · rw [view]
    exact stage
  · rw [Turned, even, view]
    exact here.turned
  · rw [Awaited, done, running]
    rfl

theorem Placed.interrupted {call : Option Running} (placed : Placed stream call)
    (interrupts : stream.interrupt dma = some after) : Placed after call := by
  obtain ⟨runs, view, isOpen, even, done⟩ := interrupt_spec interrupts
  have loud : stream.card.running ≠ [] := List.ne_nil_of_mem runs
  cases placed with
  | streaming here => exact .streaming (here.interrupted interrupts)
  | waits running command point here =>
      exact .waits running command point (here.interrupted interrupts)
  | closed here => exact absurd here.quiet loud
  | starts retarg here => exact absurd here.quiet loud
  | ended running command point here quiet => exact absurd quiet loud
  | selected running point here => exact absurd here.quiet loud
  | armed running point here awaited => exact absurd here.quiet loud
  | programmed running point here awaited registers => exact absurd here.quiet loud
  | handsNext retarg half stage turned awaited =>
      obtain ⟨later, quiet⟩ := stage.interrupted runs
      have running : after.card.running = [] := (congrArg View.running view).trans quiet
      refine .handsNext retarg ?_ ?_ ?_ ?_
      · rw [view]
        exact half
      · rw [view]
        exact later
      · rw [Turned, even, view]
        exact turned
      · rw [Awaited, done, running]
        rfl
  | handsEnd retarg half stage quiet => exact absurd quiet loud

end Interrupts

section Statements

variable {stream : Stream} {running : Running}

theorem Closed.startSelect (here : Closed stream) (retarg : U32) (point : Point) :
    Prepared stream.startSelect ⟨.startStream, point, retarg⟩ := by
  have stage : Stage stream.startSelect.view 0 := here.stage.restarted here.quiet
  refine ⟨?_, stage, here.quiet, rfl⟩
  have count := here.stage.count
  have behind := here.stage.behind
  have all : stream.startSelect.view.served = stream.handed.length - stream.card.dmas.length := rfl
  rw [all]
  simp only [View.served, Stream.view] at count behind
  omega

theorem Streaming.nextSelect (here : Streaming stream) (quiet : stream.card.running = [])
    (point : Point) : Prepared stream.nextSelect ⟨.nextStream, point, stream.retarg⟩ :=
  ⟨here.turned.retarg, here.stage, quiet, here.turned.flips⟩

theorem Prepared.arm (here : Prepared stream running) (point : Point) :
    Prepared stream.arm (running.at point) := by
  obtain ⟨command, at_, retarg⟩ := running
  cases command with
  | startStream => exact ⟨here.1, here.2.stage, here.2.quiet, here.2.turned⟩
  | nextStream => exact ⟨here.1, here.2.stage, here.2.quiet, here.2.turned⟩
  | endStream => exact here.elim

theorem Prepared.program (here : Prepared stream running) (offset mapped : U64) (point : Point) :
    Prepared (stream.programDma offset mapped) (running.at point) := by
  obtain ⟨dmas, runs, completed, -⟩ := program_dma_card stream offset mapped
  have view : (stream.programDma offset mapped).view = stream.view := by
    simp only [Stream.view, dmas, runs, completed]
    rfl
  obtain ⟨command, at_, retarg⟩ := running
  cases command with
  | startStream =>
      exact ⟨view ▸ here.1, view ▸ here.2.stage, runs.trans here.2.quiet, here.2.turned⟩
  | nextStream =>
      refine ⟨?_, ?_, runs.trans here.2.quiet, ?_⟩
      · rw [view]
        exact here.1
      · rw [view]
        exact here.2.stage
      · rw [view]
        exact here.2.turned
  | endStream => exact here.elim

theorem Chosen.launched {started : ℕ} (here : Chosen stream started)
    (registers : Programmed stream.card stream.descr (stream.descr.tlpAddress 0#64))
    (fits : 4 * stream.descr.tlpSize.toNat * stream.descr.tlpCount.toNat ≤ bufSize) :
    Stage (stream.launchDma true).view (started + 1) ∧ (stream.launchDma true).card.running ≠ [] := by
  obtain ⟨dmas, runs, completed⟩ := launch_card stream registers
  let dma := stream.descr.dmaAt (stream.descr.tlpAddress 0#64)
  have fills : dma.Fills stream.view.bufferHwAddr (streamHalf started) :=
    ⟨streamed_address here.turned here.stage.low, fits⟩
  have view : (stream.launchDma true).view = { stream.view with
      dmas := stream.view.dmas ++ [dma]
      running := [stream.view.dmas.length] } := by
    simp only [Stream.view, dmas, runs, completed, here.quiet, List.nil_append]
    rfl
  rw [view]
  constructor
  · exact here.stage.launched here.quiet fills
  · rw [runs]
    simp

end Statements

/-- What a run of the protocol may do: a stream is started when none is open, the other
calls are made in an open stream, no wait is cut short by a signal, and the user's
memory can be written. -/
def FollowsProtocol (device : Device) (action : Action) : Prop :=
  device.stream.descr.dmaCount = 1#32 ∧
  4 * device.stream.descr.tlpSize.toNat * device.stream.descr.tlpCount.toNat ≤ bufSize ∧
  match action with
  | .ioctl .startStream => device.stream.isOpen = false
  | .ioctl _ => device.stream.isOpen = true
  | .proceed event => event ≠ .signalled ∧ event ≠ .faulted
  | .interrupt _ => True

section Steps

variable {device after : Device} {running : Running} {event : Event}

theorem goto_eq {stream : Stream} {point : Point}
    (moves : device.goto stream running point = some after) :
    after.stream = stream ∧ after.call = some (running.at point) := by
  cases moves
  exact ⟨rfl, rfl⟩

theorem no_silent_dmas {descr : PcieDescr} (one : descr.dmaCount = 1#32) :
    descr.silentDmas = 0 := by
  rw [PcieDescr.silentDmas, one]
  rfl

theorem Placed.selects (one : device.stream.descr.dmaCount = 1#32)
    (placed : Placed device.stream (some running)) (point : running.point = .select)
    (step : device.select running = some after) : Placed after.stream after.call := by
  cases placed with
  | starts retarg here =>
      simp only [Device.select, no_silent_dmas one] at step
      obtain ⟨stream, call⟩ := goto_eq step
      rw [stream, call]
      exact .selected _ rfl (here.startSelect retarg _)
  | ended running call at_ here quiet =>
      obtain ⟨command, point', retarg⟩ := running
      cases command with
      | startStream => exact absurd rfl call
      | nextStream =>
          simp only [Device.select, no_silent_dmas one] at step
          obtain ⟨stream, call⟩ := goto_eq step
          rw [stream, call]
          exact .selected _ rfl (here.nextSelect quiet _)
      | endStream =>
          simp only [Device.select] at step
          obtain ⟨stream, call⟩ := goto_eq step
          rw [stream, call]
          exact .handsEnd _ here.turned.retarg here.stage quiet
  | waits running call at_ here => rcases at_ with at_ | at_ <;> cases point.symm.trans at_
  | selected running at_ here => cases point.symm.trans at_
  | armed running at_ here awaited => cases point.symm.trans at_
  | programmed running at_ here awaited registers => cases point.symm.trans at_
  | handsNext retarg half stage turned awaited => cases point
  | handsEnd retarg half stage quiet => cases point

theorem Streaming.waits_on (here : Streaming device.stream) (call : running.command ≠ .startStream)
    (point : running.point = .check ∨ running.point = .waiting) (signalled : event ≠ .signalled)
    (step : device.proceed running event = some after) : Placed after.stream after.call := by
  have quiet : device.stream.descr.dmaDone = true → device.stream.card.running = [] := by
    intro done
    have awaited := here.awaited
    rw [Awaited, done] at awaited
    simpa using awaited.symm
  have arrived : device.stream.descr.dmaDone = true →
      Placed device.stream (some (running.at (Device.afterWait running))) := by
    intro done
    refine .ended _ call ?_ here (quiet done)
    obtain ⟨command, at_, retarg⟩ := running
    cases command with
    | startStream => exact absurd rfl call
    | nextStream => exact Or.inr (Or.inr rfl)
    | endStream => exact Or.inl rfl
  obtain ⟨command, at_, retarg⟩ := running
  rcases point with rfl | rfl
  · cases event with
    | plain =>
        obtain ⟨stream, next⟩ := goto_eq step
        rw [stream, next]
        split
        · exact arrived ‹_›
        · exact .waits _ call (Or.inr rfl) here
    | woken | timedOut | signalled | mapped | copied | faulted => cases step
  · cases event with
    | woken =>
        rw [proceed_woken] at step
        split at step
        · obtain ⟨stream, next⟩ := goto_eq step
          rw [stream, next]
          exact arrived ‹_›
        · cases step
    | timedOut =>
        cases step
        exact .streaming here
    | signalled => exact absurd rfl signalled
    | plain | mapped | copied | faulted => cases step

theorem Placed.is_ended (one : device.stream.descr.dmaCount = 1#32)
    (call : running.command ≠ .startStream)
    (point : running.point = .recheck ∨ running.point = .waitingDone ∨ running.point = .select)
    (here : Streaming device.stream) (quiet : device.stream.card.running = [])
    (signalled : event ≠ .signalled)
    (step : device.proceed running event = some after) : Placed after.stream after.call := by
  have placed := Placed.ended running call point here quiet
  obtain ⟨command, at_, retarg⟩ := running
  rcases point with rfl | rfl | rfl
  · cases event with
    | plain =>
        obtain ⟨stream, next⟩ := goto_eq step
        rw [stream, next]
        refine .ended _ call ?_ here quiet
        split
        · exact Or.inr (Or.inr rfl)
        · exact Or.inr (Or.inl rfl)
    | woken | timedOut | signalled | mapped | copied | faulted => cases step
  · cases event with
    | woken =>
        rw [proceed_woken_done] at step
        split at step
        · obtain ⟨stream, next⟩ := goto_eq step
          rw [stream, next]
          exact .ended _ call (Or.inr (Or.inr rfl)) here quiet
        · cases step
    | signalled => exact absurd rfl signalled
    | plain | timedOut | mapped | copied | faulted => cases step
  · cases event with
    | plain => exact placed.selects one rfl step
    | woken | timedOut | signalled | mapped | copied | faulted => cases step

/-- Starting the DMA opens a stream, or leaves the half to be copied to the user. -/
theorem Prepared.launched (here : Prepared device.stream running)
    (awaited : device.stream.descr.dmaDone = false)
    (registers : Programmed device.stream.card device.stream.descr
      (device.stream.descr.tlpAddress 0#64))
    (fits : 4 * device.stream.descr.tlpSize.toNat * device.stream.descr.tlpCount.toNat ≤ bufSize)
    (step : device.launched running true 0 0#64 = some after) : Placed after.stream after.call := by
  have waits : ∀ {stream : Stream}, stream.card.running ≠ [] → stream.descr.dmaDone = false →
      Awaited stream := by
    intro stream loud off
    rw [Awaited, off]
    exact (List.isEmpty_eq_false_iff.mpr loud).symm
  obtain ⟨command, at_, retarg⟩ := running
  cases command with
  | startStream =>
      cases step
      obtain ⟨stage, loud⟩ := here.2.launched registers fits
      have none_ : (device.stream.launchDma true).view.served = 0 := here.1
      refine .streaming ⟨rfl, ?_, ?_, waits loud awaited⟩
      · rw [← none_] at stage
        exact stage
      · have turned := here.2.turned
        rw [← none_] at turned
        exact turned
  | nextStream =>
      cases step
      obtain ⟨stage, loud⟩ := here.2.launched registers fits
      exact .handsNext retarg here.1 stage here.2.turned (waits loud awaited)
  | endStream => exact here.elim

theorem Placed.copies (placed : Placed device.stream (some running)) (point : running.point = .copy)
    (step : device.copied running = some after) : Placed after.stream after.call := by
  cases placed with
  | starts retarg here => cases point
  | ended running call at_ here quiet =>
      rcases at_ with at_ | at_ | at_ <;> cases point.symm.trans at_
  | waits running call at_ here => rcases at_ with at_ | at_ <;> cases point.symm.trans at_
  | selected running at_ here => cases point.symm.trans at_
  | armed running at_ here awaited => cases point.symm.trans at_
  | programmed running at_ here awaited registers => cases point.symm.trans at_
  | handsNext retarg half stage turned awaited =>
      cases step
      have ended : device.stream.view.handed.length ∉ device.stream.view.running := by
        have behind := stage.behind
        rcases stage.running with none_ | ⟨-, one⟩
        · rw [none_]
          exact List.not_mem_nil
        · rw [one, List.mem_singleton, View.served]
          omega
      have later := stage.hands (by omega) ended
      have served := device.stream.view.served_hands stage.behind
      rw [half]
      refine .streaming ⟨rfl, ?_, ?_, awaited⟩
      · rw [← served] at later
        exact later
      · rw [← served] at turned
        exact turned
  | handsEnd retarg half stage quiet =>
      cases step
      have ended : device.stream.view.handed.length ∉ device.stream.view.running := by
        rw [show device.stream.view.running = [] from quiet]
        exact List.not_mem_nil
      have later := stage.hands (by omega) ended
      rw [← device.stream.view.served_hands stage.behind] at later
      rw [half]
      exact .closed ⟨rfl, later, quiet⟩

theorem Placed.proceeded (one : device.stream.descr.dmaCount = 1#32)
    (fits : 4 * device.stream.descr.tlpSize.toNat * device.stream.descr.tlpCount.toNat ≤ bufSize)
    (placed : Placed device.stream (some running))
    (undisturbed : event ≠ .signalled ∧ event ≠ .faulted)
    (step : device.proceed running event = some after) : Placed after.stream after.call := by
  cases placed with
  | starts retarg here =>
      cases event with
      | plain => exact (Placed.starts retarg here).selects one rfl step
      | woken | timedOut | signalled | mapped | copied | faulted => cases step
  | waits running call point here => exact here.waits_on call point undisturbed.1 step
  | ended running call point here quiet =>
      exact Placed.is_ended one call point here quiet undisturbed.1 step
  | selected running point here =>
      obtain ⟨command, at_, retarg⟩ := running
      cases point
      cases event with
      | plain =>
          obtain ⟨stream, next⟩ := goto_eq step
          rw [stream, next]
          exact .armed _ rfl (here.arm _) rfl
      | woken | timedOut | signalled | mapped | copied | faulted => cases step
  | armed running point here awaited =>
      obtain ⟨command, at_, retarg⟩ := running
      cases point
      cases event with
      | mapped dmaAddr =>
          obtain ⟨stream, next⟩ := goto_eq step
          rw [stream, next]
          obtain ⟨-, -, -, registers⟩ := program_dma_card device.stream 0#64 dmaAddr
          exact .programmed _ rfl (here.program _ _ _) awaited
            ⟨registers.address, registers.tlpSize, registers.tlpCount⟩
      | plain | woken | timedOut | signalled | copied | faulted => cases step
  | programmed running point here awaited registers =>
      obtain ⟨command, at_, retarg⟩ := running
      cases point
      cases event with
      | plain => exact here.launched awaited registers fits step
      | woken | timedOut | signalled | mapped | copied | faulted => cases step
  | handsNext retarg half stage turned awaited =>
      cases event with
      | copied => exact (Placed.handsNext retarg half stage turned awaited).copies rfl step
      | faulted => exact absurd rfl undisturbed.2
      | plain | woken | timedOut | signalled | mapped => cases step
  | handsEnd retarg half stage quiet =>
      cases event with
      | copied => exact (Placed.handsEnd retarg half stage quiet).copies rfl step
      | faulted => exact absurd rfl undisturbed.2
      | plain | woken | timedOut | signalled | mapped => cases step

theorem Placed.step {action : Action} (placed : Placed device.stream device.call)
    (follows : FollowsProtocol device action) (step : device.step action = some after) :
    Placed after.stream after.call := by
  obtain ⟨one, fits, follows⟩ := follows
  cases action with
  | ioctl command =>
      cases call : device.call with
      | some running => cases command <;> simp [Device.step, call] at step
      | none =>
          rw [call] at placed
          cases placed with
          | closed here =>
              cases command with
              | startStream =>
                  simp only [Device.step, call] at step
                  obtain ⟨stream, next⟩ := goto_eq step
                  rw [stream, next]
                  exact .starts _ here
              | nextStream => exact absurd (here.isOpen.symm.trans follows) (by decide)
              | endStream => exact absurd (here.isOpen.symm.trans follows) (by decide)
          | streaming here =>
              cases command with
              | startStream => exact absurd (here.isOpen.symm.trans follows) (by decide)
              | nextStream | endStream =>
                  simp only [Device.step, call] at step
                  obtain ⟨stream, next⟩ := goto_eq step
                  rw [stream, next]
                  exact .waits _ (by simp [Running.at]) (Or.inl rfl) here
  | proceed event =>
      cases call : device.call with
      | none => simp [Device.step, call] at step
      | some running =>
          simp only [Device.step, call] at step
          rw [call] at placed
          exact Placed.proceeded one fits placed follows step
  | interrupt dma =>
      obtain ⟨stream, interrupts, rfl⟩ := Option.map_eq_some_iff.mp step
      exact placed.interrupted interrupts

theorem probed_placed (probed : Probed device) : Placed device.stream device.call := by
  obtain ⟨low, ⟨dmas, running, completed⟩, ⟨handed, base⟩, isOpen, call⟩ := probed
  rw [call]
  refine .closed ⟨isOpen, ?_, running⟩
  have view : device.stream.view = ⟨device.stream.descr.bufferHwAddr, [], [], [], [], 0⟩ := by
    simp only [Stream.view, dmas, running, completed, handed, base]
  rw [view]
  exact ⟨low, rfl, le_rfl, nofun, nofun, nofun, Or.inl rfl, nofun⟩

end Steps

def Dma.Apart (dma : Dma) (bufferHwAddr : U64) (half : U32) : Prop :=
  ∀ i < 4 * dma.tlpSize.toNat * dma.tlpCount.toNat, ∀ j < bufSize,
    dma.address.toNat + i ≠ bufferHwAddr.toNat + half.toNat + j

theorem Dma.Fills.apart {dma : Dma} {bufferHwAddr : U64} {turn : ℕ}
    (fills : dma.Fills bufferHwAddr (streamHalf (turn + 1))) :
    dma.Apart bufferHwAddr (streamHalf turn) := by
  intro i inside j bound
  have fits := fills.fits
  have start := fills.start
  have half := stream_half_cases turn
  have other : (streamHalf (turn + 1)).toNat + (streamHalf turn).toNat = bufSize := by
    by_cases even : turn % 2 = 0
    · have odd : ¬(turn + 1) % 2 = 0 := by omega
      simp [streamHalf, even, odd, bufSize]
    · have even' : (turn + 1) % 2 = 0 := by omega
      simp [streamHalf, even, even', bufSize]
  omega

/-- The halves handed out are those of the DMAs, in order and after their interrupts. At
most one DMA is ahead between calls, none when the stream is closed, and it keeps clear
of the half the stream handed out last. -/
structure InOrder (device : Device) : Prop where
  handedOut : ∀ k half, device.stream.handed[k]? = some half →
    ∃ dma, device.stream.card.dmas[k]? = some dma ∧
      dma.Fills device.stream.descr.bufferHwAddr half ∧ k ∈ device.stream.card.completed
  everyHalf : device.call = none → device.stream.card.dmas.length =
    device.stream.handed.length + if device.stream.isOpen then 1 else 0
  apart : (∀ running, device.call = some running → running.point ≠ .copy) →
    device.stream.base < device.stream.handed.length →
    ∀ half, device.stream.handed.getLast? = some half →
    ∀ k ∈ device.stream.card.running, ∀ dma, device.stream.card.dmas[k]? = some dma →
      dma.Apart device.stream.descr.bufferHwAddr half

theorem Placed.stage {stream : Stream} {call : Option Running} (placed : Placed stream call) :
    ∃ started, Stage stream.view started := by
  cases placed with
  | streaming here => exact ⟨_, here.stage⟩
  | closed here => exact ⟨_, here.stage⟩
  | starts retarg here => exact ⟨_, here.stage⟩
  | waits running command point here => exact ⟨_, here.stage⟩
  | ended running command point here quiet => exact ⟨_, here.stage⟩
  | selected running point here => exact here.stage
  | armed running point here awaited => exact here.stage
  | programmed running point here awaited registers => exact here.stage
  | handsNext retarg half stage turned awaited => exact ⟨_, stage⟩
  | handsEnd retarg half stage quiet => exact ⟨_, stage⟩

theorem Placed.running {stream : Stream} {call : Option Running} (placed : Placed stream call)
    (uncopied : ∀ running, call = some running → running.point ≠ .copy) :
    Streaming stream ∨ stream.card.running = [] := by
  cases placed with
  | streaming here => exact Or.inl here
  | closed here => exact Or.inr here.quiet
  | starts retarg here => exact Or.inr here.quiet
  | waits running command point here => exact Or.inl here
  | ended running command point here quiet => exact Or.inl here
  | selected running point here => exact Or.inr here.quiet
  | armed running point here awaited => exact Or.inr here.quiet
  | programmed running point here awaited registers => exact Or.inr here.quiet
  | handsNext retarg half stage turned awaited => exact absurd rfl (uncopied _ rfl)
  | handsEnd retarg half stage quiet => exact Or.inr quiet

/-- The DMA in flight takes the turn after the half handed out last. -/
theorem Streaming.apart {stream : Stream} (here : Streaming stream)
    (some_ : stream.base < stream.handed.length) {half : U32}
    (last : stream.handed.getLast? = some half) {k : ℕ} (runs : k ∈ stream.card.running) {dma : Dma}
    (there : stream.card.dmas[k]? = some dma) : dma.Apart stream.descr.bufferHwAddr half := by
  have turn : stream.view.served - 1 + 1 = stream.view.served := by
    have pos : 0 < stream.view.served := Nat.sub_pos_of_lt some_
    omega
  have index : k = stream.handed.length := by
    rcases here.stage.running with none_ | ⟨-, one⟩
    · exact absurd runs (by rw [show stream.card.running = [] from none_]; exact List.not_mem_nil)
    · rw [show stream.card.running = [stream.base + (stream.view.served + 1) - 1] from one,
        List.mem_singleton] at runs
      have served : stream.view.served = stream.handed.length - stream.base := rfl
      omega
  have fills := here.stage.fills k dma (index ▸ here.stage.behind) there
  rw [show k - stream.view.base = stream.view.served from index ▸ rfl, ← turn] at fills
  rw [List.getLast?_eq_getElem?] at last
  have half_ := here.stage.turns (stream.handed.length - 1) half (Nat.le_sub_one_of_lt some_) last
  have same : stream.handed.length - 1 - stream.view.base = stream.view.served - 1 :=
    Nat.sub_right_comm _ _ _
  rw [half_, same]
  exact fills.apart

theorem streams_in_order {device : Device}
    (reached : streamSystem.ReachableUnder FollowsProtocol device) : InOrder device := by
  have placed : Placed device.stream device.call :=
    @System.invariant_under _ _ _ _ (fun device => Placed device.stream device.call)
      (fun _ => probed_placed) (fun _ _ _ placed follows step => placed.step follows step) _ reached
  obtain ⟨started, stage⟩ := placed.stage
  refine ⟨stage.handedOut, ?_, ?_⟩
  · intro call
    rw [call] at placed
    have behind : device.stream.base ≤ device.stream.handed.length := stage.behind
    cases placed with
    | streaming here =>
        have count : device.stream.card.dmas.length =
          device.stream.base + (device.stream.handed.length - device.stream.base + 1) :=
          here.stage.count
        rw [here.isOpen, if_pos rfl]
        omega
    | closed here =>
        have count : device.stream.card.dmas.length =
          device.stream.base + (device.stream.handed.length - device.stream.base) :=
          here.stage.count
        rw [here.isOpen, if_neg (by decide)]
        omega
  · intro uncopied some_ half last k runs dma there
    rcases placed.running uncopied with here | quiet
    · exact here.apart some_ last runs there
    · rw [quiet] at runs
      cases runs

instance (device : Device) (action : Action) : Decidable (FollowsProtocol device action) :=
  match action with
  | .ioctl .startStream | .ioctl .nextStream | .ioctl .endStream | .interrupt _ | .proceed _ =>
      inferInstanceAs (Decidable (_ ∧ _ ∧ _))

def probedDevice : Device where
  stream := {
    descr := ⟨0xffff880000010000#64, 0x10000#64, false, 0#64, 0#64, false, 32#32, 128#32, 1#32,
      false, 0#32⟩
    card := ⟨fun _ => 0#32, [], [], []⟩
    dmaApi := []
    handed := []
    base := 0
    isOpen := false }
  call := none
  ret := 0#32

def deviceAfter (device : Device) (actions : List Action) : Device :=
  ((streamSystem.guarded FollowsProtocol).runFrom device actions).getD device

def startCall : List Action :=
  [.ioctl .startStream, .proceed .plain, .proceed .plain, .proceed (.mapped 0x20000#64),
    .proceed .plain]

def endCall : List Action :=
  [.ioctl .endStream, .proceed .plain, .proceed .plain, .proceed .plain, .proceed .copied]

theorem probed_reachable : streamSystem.ReachableUnder FollowsProtocol probedDevice :=
  .start ⟨by decide, ⟨rfl, rfl, rfl⟩, ⟨rfl, rfl⟩, ⟨rfl, rfl⟩⟩

/-- A `NEXT_STREAM` that times out first and is repeated. -/
def nextCalls : List Action :=
  [.ioctl .nextStream, .proceed .plain, .proceed .timedOut, .interrupt 0, .ioctl .nextStream,
    .proceed .plain, .proceed .plain, .proceed .plain, .proceed (.mapped 0x30000#64),
    .proceed .plain, .proceed .copied]

theorem streams_in_order_two_halves :
    (deviceAfter probedDevice (startCall ++ nextCalls ++ .interrupt 1 :: endCall)).stream.handed =
      [0#32, 0x4000#32] ∧
    InOrder (deviceAfter probedDevice (startCall ++ nextCalls ++ .interrupt 1 :: endCall)) :=
  ⟨rfl, streams_in_order (System.reachable_of_guarded_run
    (startCall ++ nextCalls ++ .interrupt 1 :: endCall) probed_reachable rfl)⟩

/-- The first DMA of a stream writes to the half the stream before has handed out last. -/
theorem next_stream_writes_handed_half : ∃ device dma half,
    streamSystem.ReachableUnder FollowsProtocol device ∧ device.call = none ∧
    device.stream.isOpen = true ∧ device.stream.handed.getLast? = some half ∧
    1 ∈ device.stream.card.running ∧ device.stream.card.dmas[1]? = some dma ∧
    dma.Fills device.stream.descr.bufferHwAddr half ∧
    ¬dma.Apart device.stream.descr.bufferHwAddr half := by
  let actions := startCall ++ .interrupt 0 :: endCall ++ startCall
  have reached : streamSystem.ReachableUnder FollowsProtocol (deviceAfter probedDevice actions) :=
    System.reachable_of_guarded_run actions probed_reachable rfl
  refine ⟨_, ⟨0x10000#32, 32#32, 128#32, true⟩, 0#32, reached, rfl, rfl, rfl, by decide, rfl,
    ⟨rfl, by decide⟩, fun apart => ?_⟩
  exact apart 0 (by decide) 0 (by decide) rfl

end FpgaPcie.Creotech
