import FpgaPcie.Creotech.StreamOrder

/-!
# What a stream call leaves behind

`NEXT_STREAM` and `END_STREAM` turn to the other half before the last thing that can fail,
and take a wait that a signal cut short for one that ended. A call is honest when success
means a finished half, and failure a stream as it was.
-/

namespace FpgaPcie.Creotech

open FpgaPcie.Transition

set_option autoImplicit false

structure LatestSelected (stream : Stream) (latest : ℕ) : Prop where
  last : latest + 1 = stream.card.dmas.length
  address : ∃ dma, stream.card.dmas[latest]? = some dma ∧
    dma.address = stream.descr.tlpAddress stream.descr.offset

/-- `dma_done` tells whether the DMA for the selected half is over. -/
structure Sound (stream : Stream) (latest : ℕ) : Prop where
  selected : LatestSelected stream latest
  ended : stream.descr.dmaDone = true → stream.card.running = [] ∧ latest ∈ stream.card.completed
  inFlight : stream.descr.dmaDone = false → stream.card.running = [latest]

def HalfFinished (stream : Stream) : Prop :=
  ∃ latest, LatestSelected stream latest ∧ latest ∈ stream.card.completed ∧
    latest ∉ stream.card.running

namespace Stream

def struck (stream : Stream) : Action → Stream
  | .interrupt dma => (stream.interrupt dma).getD stream
  | .ioctl _ => stream
  | .proceed _ => stream

def interrupted (stream : Stream) (actions : List Action) : Stream :=
  actions.foldl struck stream

end Stream

structure Kept (before after : Stream) : Prop where
  evenBuffer : after.descr.evenBuffer = before.descr.evenBuffer
  dmaDone : after.descr.dmaDone = before.descr.dmaDone
  wake : after.descr.wake = before.descr.wake
  pattern : after.descr.pattern = before.descr.pattern
  dmas : after.card.dmas = before.card.dmas
  running : after.card.running = before.card.running

/-- Here a call other than `START_STREAM` turns to the other half. -/
def Turns (device : Device) (action : Action) : Prop :=
  action = .proceed .plain ∧ ∃ running, device.call = some running ∧ running.point = .select ∧
    running.command ≠ .startStream

def TurnsFinished (device : Device) (action : Action) : Prop :=
  Turns device action → HalfFinished device.stream

/-- A call that returned, from the state before it. What the interrupts that came in between
have done is not the doing of the call. -/
structure HonestCall (device : Device) (actions : List Action) (after : Device) : Prop where
  finished : after.ret = 0#32 → streamSystem.Along TurnsFinished device actions
  kept : after.ret ≠ 0#32 → Kept (device.stream.interrupted actions) after.stream

def Starts (device : Device) (action : Action) : Prop :=
  action = .proceed .plain ∧ ∃ running, device.call = some running ∧ running.point = .select ∧
    running.command = .startStream

/-- `copy_to_user` does not fail; a call turns to the other half with `dma_done` set, whatever
ended its wait; and no stream is started over a DMA in flight. -/
structure Undisturbed (device : Device) (action : Action) : Prop where
  copied : action ≠ .proceed .faulted
  turned : Turns device action → device.stream.descr.dmaDone = true
  started : Starts device action → device.stream.card.running = []

section Card

variable {stream after : Stream} {latest dma : ℕ}

theorem Sound.of_same (sound : Sound stream latest) (card : after.card = stream.card)
    (descr : after.descr = stream.descr) : Sound after latest := by
  constructor
  · constructor
    · rw [card]
      exact sound.selected.last
    · rw [card, descr]
      exact sound.selected.address
  · rw [card, descr]
    exact sound.ended
  · rw [card, descr]
    exact sound.inFlight

theorem Sound.quiet (sound : Sound stream latest) (done : stream.descr.dmaDone = true) :
    stream.card.running = [] := (sound.ended done).1

theorem Sound.finished_iff (sound : Sound stream latest) :
    HalfFinished stream ↔ stream.descr.dmaDone = true := by
  constructor
  · intro finished
    rcases finished with ⟨other, selected, _, notRunning⟩
    have same : other = latest := by
      have last := selected.last
      have last' := sound.selected.last
      omega
    subst same
    cases done : stream.descr.dmaDone with
    | true => rfl
    | false =>
        rw [sound.inFlight done] at notRunning
        exact absurd List.mem_cons_self notRunning
  · intro done
    have ended := sound.ended done
    refine ⟨latest, sound.selected, ended.2, ?_⟩
    rw [ended.1]
    exact List.not_mem_nil

theorem Sound.interrupted (sound : Sound stream latest)
    (interrupts : stream.interrupt dma = some after) : Sound after latest := by
  simp only [Stream.interrupt, Option.ite_none_right_eq_some, Option.some.injEq] at interrupts
  rcases interrupts with ⟨runs, is⟩
  have loud : stream.descr.dmaDone = false := by
    cases done : stream.descr.dmaDone with
    | false => rfl
    | true =>
        rw [sound.quiet done] at runs
        cases runs
  have one := sound.inFlight loud
  rw [one, List.mem_singleton] at runs
  subst runs
  subst is
  constructor
  · exact ⟨sound.selected.last, sound.selected.address⟩
  · intro _
    constructor
    · show stream.card.running.erase dma = []
      rw [one, List.erase_cons_head]
    · exact List.mem_cons_self
  · intro off
    cases off

/-- The last DMA of a call is in flight, and for the selected half. -/
theorem launched_sound {offset : U64} (quiet : stream.card.running = [])
    (off : stream.descr.dmaDone = false) (current : stream.descr.offset = offset)
    (address : stream.card.regs regWdmaTlpA = stream.descr.tlpAddress offset) :
    Sound (stream.launchDma true) stream.card.dmas.length := by
  have launched := launch_last stream
  constructor
  · constructor
    · rw [launched.1, List.length_append, List.length_singleton]
    · refine ⟨⟨stream.card.regs regWdmaTlpA, stream.card.regs regWdmaTlpS,
        stream.card.regs regWdmaTlpC, true⟩, ?_, ?_⟩
      · rw [launched.1, List.getElem?_append_right (Nat.le_refl _), Nat.sub_self]
        exact List.getElem?_cons_zero
      · show stream.card.regs regWdmaTlpA = stream.descr.tlpAddress stream.descr.offset
        rw [address, current]
  · intro done
    exact absurd (off.symm.trans done) (by decide)
  · intro _
    rw [launched.2.1, quiet, List.nil_append]

end Card

def Rests (stream : Stream) : Prop :=
  (stream.isOpen = true → ∃ latest, Sound stream latest) ∧
    (stream.isOpen = false → stream.card.running = [])

/-- Before its last start a call has nothing in flight, whatever it starts without an
interrupt. -/
structure Starting (stream : Stream) (running : Running) : Prop where
  command : running.command ≠ .endStream
  quiet : stream.card.running = []

def InStep (stream : Stream) : Option Running → Prop
  | none => Rests stream
  | some running =>
      match running.point with
      | .check | .waiting | .recheck | .waitingDone | .select => Rests stream
      | .loop _ _ | .launch false _ _ => Starting stream running
      | .last _ => Starting stream running ∧ stream.descr.dmaDone = false
      | .launch true _ offset => Starting stream running ∧ stream.descr.dmaDone = false ∧
          stream.descr.offset = offset ∧
          stream.card.regs regWdmaTlpA = stream.descr.tlpAddress offset
      | .copy => if running.command = .endStream then stream.card.running = []
          else ∃ latest, Sound stream latest

section Steps

variable {stream : Stream} {device after : Device} {running : Running} {event : Event}

theorem Rests.interrupted (rests : Rests stream) {dma : ℕ} {after : Stream}
    (interrupts : stream.interrupt dma = some after) : Rests after := by
  have spec := interrupt_spec interrupts
  constructor
  · intro isOpen
    rcases rests.1 (spec.2.2.1.symm.trans isOpen) with ⟨latest, sound⟩
    exact ⟨latest, sound.interrupted interrupts⟩
  · intro closed
    have quiet := rests.2 (spec.2.2.1.symm.trans closed)
    have runs := spec.1
    rw [quiet] at runs
    cases runs

theorem Rests.quiet (rests : Rests stream) (done : stream.descr.dmaDone = true) :
    stream.card.running = [] := by
  cases isOpen : stream.isOpen with
  | true =>
      rcases rests.1 isOpen with ⟨latest, sound⟩
      exact sound.quiet done
  | false => exact rests.2 isOpen

theorem InStep.interrupted {call : Option Running} (inStep : InStep stream call) {dma : ℕ}
    {after : Stream} (interrupts : stream.interrupt dma = some after) : InStep after call := by
  have runs := (interrupt_spec interrupts).1
  have quietly : stream.card.running = [] → InStep after call := by
    intro quiet
    rw [quiet] at runs
    cases runs
  cases call with
  | none => exact Rests.interrupted inStep interrupts
  | some running =>
      rcases running with ⟨command, point, retarg⟩
      cases point with
      | check | waiting | recheck | waitingDone | select =>
          exact Rests.interrupted inStep interrupts
      | loop left offset => exact quietly (Starting.quiet inStep)
      | last offset => exact quietly inStep.1.quiet
      | launch sendInterrupt left offset =>
          cases sendInterrupt with
          | false => exact quietly (Starting.quiet inStep)
          | true => exact quietly inStep.1.quiet
      | copy =>
          cases command with
          | endStream => exact quietly inStep
          | startStream | nextStream =>
              rcases inStep with ⟨latest, sound⟩
              exact ⟨latest, sound.interrupted interrupts⟩

theorem rests_waits {point : Point} (rests : Rests stream)
    (waits : point = .waiting ∨ point = .recheck ∨ point = .waitingDone ∨ point = .select)
    (running : Running) : InStep stream (some (running.at point)) := by
  rcases waits with is | is | is | is <;> subst is <;> exact rests

theorem after_wait_cases (running : Running) :
    Device.afterWait running = .recheck ∨ Device.afterWait running = .select := by
  rcases running with ⟨command, point, retarg⟩
  cases command with
  | startStream => exact Or.inr rfl
  | nextStream => exact Or.inr rfl
  | endStream => exact Or.inl rfl

theorem rests_after_wait (rests : Rests stream) (running : Running) :
    InStep stream (some (running.at (Device.afterWait running))) := by
  apply rests_waits rests
  rcases after_wait_cases running with is | is
  · exact Or.inr (Or.inl is)
  · exact Or.inr (Or.inr (Or.inr is))

theorem InStep.proceeded (inStep : InStep device.stream (some running))
    (call : device.call = some running) (allowed : Undisturbed device (.proceed event))
    (moves : Moves device running event after) : InStep after.stream after.call := by
  rcases running with ⟨command, at_, retarg⟩
  cases moves with
  | done point | woken point | signalled point =>
      cases point
      exact rests_after_wait inStep _
  | blocks point =>
      cases point
      exact rests_waits inStep (Or.inl rfl) _
  | timedOut point =>
      cases point
      exact inStep
  | doneAgain point | wokenAgain point | signalledAgain point =>
      cases point
      exact rests_waits inStep (Or.inr (Or.inr (Or.inr rfl))) _
  | blocksAgain point =>
      cases point
      exact rests_waits inStep (Or.inr (Or.inr (Or.inl rfl))) _
  | starts point command =>
      have quiet := allowed.started ⟨rfl, _, call, point, command⟩
      cases command
      constructor
      · intro same
        cases same
      · exact quiet
  | turns point command =>
      have other := allowed.turned ⟨rfl, _, call, point, by rw [command]; decide⟩
      cases point
      have rests : Rests device.stream := inStep
      cases command
      constructor
      · intro same
        cases same
      · exact rests.quiet other
  | ends point command =>
      have done := allowed.turned ⟨rfl, _, call, point, by rw [command]; decide⟩
      cases point
      have rests : Rests device.stream := inStep
      cases command
      exact rests.quiet done
  | programsSilent left offset dmaAddr point =>
      cases point
      have starting : Starting device.stream _ := inStep
      have card := program_dma_card device.stream offset dmaAddr
      exact ⟨starting.command, card.2.1.trans starting.quiet⟩
  | arms offset point =>
      cases point
      have starting : Starting device.stream _ := inStep
      exact ⟨⟨starting.command, starting.quiet⟩, rfl⟩
  | programs offset dmaAddr point =>
      cases point
      have card := program_dma_card device.stream offset dmaAddr
      exact ⟨⟨inStep.1.command, card.2.1.trans inStep.1.quiet⟩, inStep.2, rfl,
        card.2.2.2.address⟩
  | launchesSilent left offset point =>
      cases point
      have starting : Starting device.stream _ := inStep
      exact ⟨starting.command, (launch_silent device.stream).2.1.trans starting.quiet⟩
  | opens left offset point command =>
      cases point
      rcases inStep with ⟨starting, off, current, address⟩
      have sound := launched_sound starting.quiet off current address
      constructor
      · intro _
        exact ⟨_, sound.of_same rfl rfl⟩
      · intro closed
        cases closed
  | launches left offset point other =>
      cases point
      rcases inStep with ⟨starting, off, current, address⟩
      have sound := launched_sound starting.quiet off current address
      cases command with
      | startStream => exact absurd rfl other
      | nextStream => exact ⟨_, sound⟩
      | endStream => exact absurd rfl starting.command
  | copies point =>
      cases point
      cases command with
      | endStream =>
          constructor
          · intro isOpen
            cases isOpen
          · intro _
            exact inStep
      | startStream | nextStream =>
          constructor
          · intro _
            rcases inStep with ⟨latest, sound⟩
            exact ⟨latest, sound.of_same rfl rfl⟩
          · intro closed
            cases closed
  | faults point => exact absurd rfl allowed.copied

theorem InStep.step {action : Action} (inStep : InStep device.stream device.call)
    (allowed : Undisturbed device action) (step : device.step action = some after) :
    InStep after.stream after.call := by
  rcases step_moves step with begins | moves | interrupts
  · rcases begins with ⟨command, _, call, is⟩
    rw [call] at inStep
    subst is
    cases command <;> exact inStep
  · rcases moves with ⟨running, event, is, call, moves⟩
    subst is
    rw [call] at inStep
    exact inStep.proceeded call allowed moves
  · rcases interrupts with ⟨dma, stream, _, interrupts, is⟩
    subst is
    exact inStep.interrupted interrupts

theorem probed_in_step (probed : Probed device) : InStep device.stream device.call := by
  rw [probed.closed.2]
  constructor
  · intro isOpen
    exact absurd (probed.closed.1.symm.trans isOpen) (by decide)
  · intro _
    exact probed.noDmas.2.1

/-- Between the calls of undisturbed runs a started stream is sound. -/
theorem undisturbed_sound (reached : streamSystem.ReachableUnder Undisturbed device)
    (idle : device.call = none) (isOpen : device.stream.isOpen = true) :
    ∃ latest, Sound device.stream latest := by
  have inStep : InStep device.stream device.call :=
    @System.invariant_under _ _ _ _ (fun device => InStep device.stream device.call)
      (fun _ => probed_in_step) (fun _ _ _ inStep allowed step => inStep.step allowed step) _ reached
  rw [idle] at inStep
  exact inStep.1 isOpen

end Steps

def OneCall (actions : List Action) : Prop := ∀ action ∈ actions, ∀ command, action ≠ .ioctl command

def Point.Waits : Point → Prop
  | .check | .waiting | .recheck | .waitingDone | .select => True
  | .loop _ _ | .last _ | .launch _ _ _ | .copy => False

section Calls

variable {device middle after : Device} {running : Running} {action : Action}
  {actions : List Action} {event : Event} {latest : ℕ}

theorem OneCall.rest (one : OneCall (action :: actions)) : OneCall actions :=
  fun other member => one other (List.mem_cons_of_mem action member)

/-- Where no call turns or starts, a statement that does not fault is harmless. -/
theorem undisturbed_elsewhere (call : device.call = some running) (copied : event ≠ .faulted)
    (elsewhere : running.point ≠ .select) : Undisturbed device (.proceed event) := by
  constructor
  · intro same
    cases same
    exact copied rfl
  · intro turns
    rcases turns with ⟨_, other, same, point, _⟩
    rw [call] at same
    cases same
    exact absurd point elsewhere
  · intro starts
    rcases starts with ⟨_, other, same, point, _⟩
    rw [call] at same
    cases same
    exact absurd point elsewhere

theorem finished_elsewhere (call : device.call = some running)
    (elsewhere : running.point ≠ .select) : TurnsFinished device (.proceed event) := by
  intro turns
  rcases turns with ⟨_, other, same, point, _⟩
  rw [call] at same
  cases same
  exact absurd point elsewhere

theorem undisturbed_interrupt (device : Device) (dma : ℕ) :
    Undisturbed device (.interrupt dma) := by
  constructor
  · intro same
    cases same
  · intro turns
    cases turns.1
  · intro starts
    cases starts.1

theorem finished_interrupt (device : Device) (dma : ℕ) :
    TurnsFinished device (.interrupt dma) := by
  intro turns
  cases turns.1

theorem struck_interrupt {stream struck : Stream} {dma : ℕ}
    (interrupts : stream.interrupt dma = some struck) : stream.struck (.interrupt dma) = struck := by
  rw [Stream.struck, interrupts]
  rfl

theorem interrupted_cons (stream : Stream) (action : Action) (actions : List Action) :
    stream.interrupted (action :: actions) = (stream.struck action).interrupted actions := rfl

/-- While the call runs a step is a statement of it or an interrupt. -/
theorem OneCall.step_cases (one : OneCall (action :: actions)) (call : device.call = some running)
    (step : device.step action = some middle) :
    (∃ event, action = .proceed event ∧ Moves device running event middle) ∨
      ∃ dma stream, action = .interrupt dma ∧ device.stream.interrupt dma = some stream ∧
        middle = { device with stream := stream } := by
  rcases step_moves step with begins | moves | interrupts
  · rcases begins with ⟨command, is, _⟩
    exact absurd is (one action List.mem_cons_self command)
  · rcases moves with ⟨here, event, is, at_, moves⟩
    rw [call] at at_
    cases at_
    exact Or.inl ⟨event, is, moves⟩
  · exact Or.inr interrupts

theorem returned_run (idle : device.call = none) (one : OneCall actions)
    (run : streamSystem.runFrom device actions = some after) :
    after.ret = device.ret ∧ after.stream = device.stream.interrupted actions ∧
      streamSystem.Along Undisturbed device actions ∧
      streamSystem.Along TurnsFinished device actions := by
  induction actions generalizing device with
  | nil =>
      cases run
      exact ⟨rfl, rfl, trivial, trivial⟩
  | cons action actions ih =>
      rcases System.run_from_cons run with ⟨middle, step, rest⟩
      rcases step_moves step with begins | moves | interrupts
      · rcases begins with ⟨command, is, _⟩
        exact absurd is (one action List.mem_cons_self command)
      · rcases moves with ⟨running, event, _, call, _⟩
        rw [idle] at call
        cases call
      · rcases interrupts with ⟨dma, stream, is, interrupts, same⟩
        subst is
        subst same
        rcases @ih { device with stream := stream } idle one.rest rest with
          ⟨ret, left, undisturbed, finished⟩
        rw [System.along_cons step, System.along_cons step]
        refine ⟨ret, ?_, ⟨undisturbed_interrupt _ _, undisturbed⟩, finished_interrupt _ _, finished⟩
        rw [left, interrupted_cons, struck_interrupt interrupts]

theorem interrupted_even (stream : Stream) (actions : List Action) :
    (stream.interrupted actions).descr.evenBuffer = stream.descr.evenBuffer := by
  induction actions generalizing stream with
  | nil => rfl
  | cons action actions ih =>
      rw [interrupted_cons, ih]
      cases action with
      | ioctl command => rfl
      | proceed event => rfl
      | interrupt dma =>
          cases interrupts : stream.interrupt dma with
          | none =>
              rw [Stream.struck, interrupts]
              rfl
          | some struck =>
              rw [struck_interrupt interrupts]
              exact (interrupt_spec interrupts).2.2.2.1

/-- Behind the turn a statement leaves `even_buffer` alone, and the call goes on, or returns
as copying went. -/
theorem turned_moves (moves : Moves device running event middle) (turned : ¬running.point.Waits)
    (other : running.command ≠ .startStream) :
    middle.stream.descr.evenBuffer = device.stream.descr.evenBuffer ∧
    ((∃ later, middle.call = some later ∧ ¬later.point.Waits ∧ later.command ≠ .startStream ∧
        event ≠ .faulted) ∨
      (middle.call = none ∧ middle.ret = 0#32 ∧ event ≠ .faulted) ∨
      (middle.call = none ∧ middle.ret = efault ∧ event = .faulted)) := by
  cases moves with
  | done point | blocks point | woken point | timedOut point | signalled point | doneAgain point
  | blocksAgain point | wokenAgain point | signalledAgain point | starts point | turns point
  | ends point => exact absurd (by rw [point]; trivial) turned
  | programsSilent left offset dmaAddr point =>
      exact ⟨rfl, Or.inl ⟨_, rfl, id, other, by intro same; cases same⟩⟩
  | arms offset point => exact ⟨rfl, Or.inl ⟨_, rfl, id, other, by intro same; cases same⟩⟩
  | programs offset dmaAddr point =>
      exact ⟨rfl, Or.inl ⟨_, rfl, id, other, by intro same; cases same⟩⟩
  | launchesSilent left offset point =>
      exact ⟨rfl, Or.inl ⟨_, rfl, id, other, by intro same; cases same⟩⟩
  | opens left offset point command => exact absurd command other
  | launches left offset point command =>
      exact ⟨rfl, Or.inl ⟨_, rfl, id, other, by intro same; cases same⟩⟩
  | copies point => exact ⟨rfl, Or.inr (Or.inl ⟨rfl, rfl, by intro same; cases same⟩)⟩
  | faults point => exact ⟨rfl, Or.inr (Or.inr ⟨rfl, rfl, rfl⟩)⟩

theorem turned_elsewhere (turned : ¬running.point.Waits) : running.point ≠ .select := by
  intro point
  rw [point] at turned
  exact turned trivial

/-- Behind the turn a call returns 0 unless copying faults, and the turn is not taken back. -/
theorem turned_run (call : device.call = some running) (turned : ¬running.point.Waits)
    (other : running.command ≠ .startStream) (one : OneCall actions)
    (run : streamSystem.runFrom device actions = some after) (returned : after.call = none) :
    streamSystem.Along TurnsFinished device actions ∧
      ((after.ret = 0#32 ∧ streamSystem.Along Undisturbed device actions) ∨
        (after.ret ≠ 0#32 ∧ ¬streamSystem.Along Undisturbed device actions ∧
          after.stream.descr.evenBuffer = device.stream.descr.evenBuffer)) := by
  induction actions generalizing device running with
  | nil =>
      cases run
      rw [call] at returned
      cases returned
  | cons action actions ih =>
      rcases System.run_from_cons run with ⟨middle, step, rest⟩
      rw [System.along_cons step, System.along_cons step]
      rcases one.step_cases call step with moves | interrupts
      · rcases moves with ⟨event, is, moves⟩
        subst is
        have elsewhere := turned_elsewhere turned
        have finished := @finished_elsewhere device running event call elsewhere
        rcases turned_moves moves turned other with ⟨even, goesOn | hands | faulted⟩
        · rcases goesOn with ⟨later, call', turned', other', copied⟩
          rcases ih call' turned' other' one.rest rest with ⟨finished', outcome⟩
          apply And.intro ⟨finished, finished'⟩
          rcases outcome with ⟨ret, undisturbed⟩ | ⟨ret, disturbed, kept⟩
          · exact Or.inl ⟨ret, undisturbed_elsewhere call copied elsewhere, undisturbed⟩
          · refine Or.inr ⟨ret, ?_, kept.trans even⟩
            intro along
            exact disturbed along.2
        · rcases hands with ⟨idle, ret, copied⟩
          rcases returned_run idle one.rest rest with ⟨same, _, undisturbed, finished'⟩
          apply And.intro ⟨finished, finished'⟩
          exact Or.inl ⟨same.trans ret, undisturbed_elsewhere call copied elsewhere, undisturbed⟩
        · rcases faulted with ⟨idle, ret, faulted⟩
          rcases returned_run idle one.rest rest with ⟨same, stream, _, finished'⟩
          apply And.intro ⟨finished, finished'⟩
          refine Or.inr ⟨?_, ?_, ?_⟩
          · rw [same, ret]
            decide
          · intro along
            exact along.1.copied (by rw [faulted])
          · rw [stream, interrupted_even, even]
      · rcases interrupts with ⟨dma, stream, is, interrupts, same⟩
        subst is
        subst same
        rcases @ih { device with stream := stream } running call turned other one.rest rest with
          ⟨finished, outcome⟩
        have even := (interrupt_spec interrupts).2.2.2.1
        apply And.intro ⟨finished_interrupt _ _, finished⟩
        rcases outcome with ⟨ret, undisturbed⟩ | ⟨ret, disturbed, kept⟩
        · exact Or.inl ⟨ret, undisturbed_interrupt _ _, undisturbed⟩
        · refine Or.inr ⟨ret, ?_, kept.trans even⟩
          intro along
          exact disturbed along.2

theorem waits_moves (moves : Moves device running event middle) (waits : running.point.Waits)
    (other : running.command ≠ .startStream) :
    (middle.stream = device.stream ∧ running.point ≠ .select ∧ event ≠ .faulted ∧
      ((∃ later, middle.call = some later ∧ later.point.Waits ∧ later.command ≠ .startStream) ∨
        (middle.call = none ∧ middle.ret = eio))) ∨
    (running.point = .select ∧ event = .plain ∧ ∃ later, middle.call = some later ∧
      ¬later.point.Waits ∧ later.command ≠ .startStream ∧
      middle.stream.descr.evenBuffer = !device.stream.descr.evenBuffer) := by
  have afterWait : (Device.afterWait running).Waits := by
    rcases after_wait_cases running with is | is
    · rw [is]
      trivial
    · rw [is]
      trivial
  cases moves with
  | done point | woken point | signalled point =>
      exact Or.inl ⟨rfl, by rw [point]; decide, by decide,
        Or.inl ⟨_, rfl, afterWait, other⟩⟩
  | blocks point | doneAgain point | blocksAgain point | wokenAgain point | signalledAgain point =>
      exact Or.inl ⟨rfl, by rw [point]; decide, by decide,
        Or.inl ⟨_, rfl, trivial, other⟩⟩
  | timedOut point =>
      exact Or.inl ⟨rfl, by rw [point]; decide, by decide,
        Or.inr ⟨rfl, rfl⟩⟩
  | starts point command => exact absurd command other
  | turns point command => exact Or.inr ⟨point, rfl, _, rfl, id, other, rfl⟩
  | ends point command => exact Or.inr ⟨point, rfl, _, rfl, id, other, rfl⟩
  | programsSilent left offset dmaAddr point | launchesSilent left offset point
  | arms offset point | programs offset dmaAddr point | opens left offset point
  | launches left offset point | copies point | faults point =>
      rw [point] at waits
      cases waits

/-- Where an action finds no turn, or a finished one, the rest of the call decides. -/
theorem honest_cons (step : streamSystem.step device action = some middle)
    (finished : TurnsFinished device action) (stream : middle.stream = device.stream.struck action) :
    HonestCall device (action :: actions) after ↔ HonestCall middle actions after := by
  constructor
  · intro whole
    constructor
    · intro ret
      exact ((System.along_cons step).mp (whole.finished ret)).2
    · intro ret
      have kept := whole.kept ret
      rwa [interrupted_cons, ← stream] at kept
  · intro part
    constructor
    · intro ret
      exact (System.along_cons step).mpr ⟨finished, part.finished ret⟩
    · intro ret
      rw [interrupted_cons, ← stream]
      exact part.kept ret

theorem returned_honest (idle : device.call = none) (one : OneCall actions)
    (run : streamSystem.runFrom device actions = some after) :
    HonestCall device actions after ↔ streamSystem.Along Undisturbed device actions := by
  rcases returned_run idle one run with ⟨_, left, undisturbed, finished⟩
  constructor
  · intro _
    exact undisturbed
  · intro _
    constructor
    · intro _
      exact finished
    · intro _
      rw [left]
      exact ⟨rfl, rfl, rfl, rfl, rfl, rfl⟩

theorem undisturbed_turn (call : device.call = some running) (other : running.command ≠ .startStream)
    (done : device.stream.descr.dmaDone = true) : Undisturbed device (.proceed .plain) := by
  constructor
  · intro same
    cases same
  · intro _
    exact done
  · intro starts
    rcases starts with ⟨_, this, same, _, command⟩
    rw [call] at same
    cases same
    exact absurd command other

/-- At the turn success asks for a finished half, and any failure comes too late. -/
theorem turn_honest (call : device.call = some running) (point : running.point = .select)
    (other : running.command ≠ .startStream) (sound : Sound device.stream latest)
    (step : streamSystem.step device (.proceed .plain) = some middle) {later : Running}
    (goesOn : middle.call = some later) (turned : ¬later.point.Waits)
    (other' : later.command ≠ .startStream)
    (even : middle.stream.descr.evenBuffer = !device.stream.descr.evenBuffer)
    (one : OneCall actions) (rest : streamSystem.runFrom middle actions = some after)
    (returned : after.call = none) :
    HonestCall device (.proceed .plain :: actions) after ↔
      streamSystem.Along Undisturbed device (.proceed .plain :: actions) := by
  rcases turned_run goesOn turned other' one rest returned with ⟨finished, outcome⟩
  have here : Turns device (.proceed .plain) := ⟨rfl, running, call, point, other⟩
  rw [System.along_cons step]
  rcases outcome with ⟨ret, undisturbed⟩ | ⟨ret, disturbed, kept⟩
  · constructor
    · intro whole
      have half := ((System.along_cons step).mp (whole.finished ret)).1 here
      exact ⟨undisturbed_turn call other (sound.finished_iff.mp half), undisturbed⟩
    · intro along
      constructor
      · intro _
        apply (System.along_cons step).mpr
        apply And.intro _ finished
        intro _
        exact sound.finished_iff.mpr (along.1.turned here)
      · intro failed
        exact absurd ret failed
  · constructor
    · intro whole
      have same := (whole.kept ret).evenBuffer
      rw [interrupted_even, kept, even] at same
      exact absurd same (by cases device.stream.descr.evenBuffer <;> decide)
    · intro along
      exact absurd along.2 disturbed

/-- From a sound state an honest call is one that is undisturbed. -/
theorem waits_honest (call : device.call = some running) (waits : running.point.Waits)
    (other : running.command ≠ .startStream) (sound : Sound device.stream latest)
    (one : OneCall actions) (run : streamSystem.runFrom device actions = some after)
    (returned : after.call = none) :
    HonestCall device actions after ↔ streamSystem.Along Undisturbed device actions := by
  induction actions generalizing device running with
  | nil =>
      cases run
      rw [call] at returned
      cases returned
  | cons action actions ih =>
      rcases System.run_from_cons run with ⟨middle, step, rest⟩
      rcases one.step_cases call step with moves | interrupts
      · rcases moves with ⟨event, is, moves⟩
        subst is
        rcases waits_moves moves waits other with stays | turns
        · rcases stays with ⟨stream, elsewhere, copied, goesOn⟩
          have undisturbed := undisturbed_elsewhere call copied elsewhere
          rw [honest_cons step (finished_elsewhere call elsewhere) stream, System.along_cons step]
          have part : HonestCall middle actions after ↔
              streamSystem.Along Undisturbed middle actions := by
            rcases goesOn with ⟨later, call', waits', other'⟩ | ⟨idle, _⟩
            · exact ih call' waits' other' (by rw [stream]; exact sound) one.rest rest
            · exact returned_honest idle one.rest rest
          rw [part]
          exact ⟨fun along => ⟨undisturbed, along⟩, fun along => along.2⟩
        · rcases turns with ⟨point, is, later, goesOn, turned, other', even⟩
          subst is
          exact turn_honest call point other sound step goesOn turned other' even one.rest rest
            returned
      · rcases interrupts with ⟨dma, stream, is, interrupts, same⟩
        subst is
        subst same
        have part := @ih { device with stream := stream } running call waits other
          (sound.interrupted interrupts) one.rest rest
        rw [honest_cons step (finished_interrupt _ _) (struck_interrupt interrupts).symm,
          System.along_cons step, part]
        exact ⟨fun along => ⟨undisturbed_interrupt _ _, along⟩, fun along => along.2⟩

end Calls

theorem ioctl_turns_nothing (device : Device) (command : Command) :
    Undisturbed device (.ioctl command) ∧ TurnsFinished device (.ioctl command) := by
  constructor
  · constructor
    · intro same
      cases same
    · intro turns
      cases turns.1
    · intro starts
      cases starts.1
  · intro turns
    cases turns.1

/-- In undisturbed runs a started stream stays sound, and from a sound state the calls that
are undisturbed are the honest ones. -/
theorem stream_calls_honest (device : Device) :
    (streamSystem.ReachableUnder Undisturbed device → device.call = none →
      device.stream.isOpen = true → ∃ latest, Sound device.stream latest) ∧
    ∀ latest command actions after, device.call = none → Sound device.stream latest →
      command ≠ .startStream → OneCall actions →
      streamSystem.runFrom device (.ioctl command :: actions) = some after → after.call = none →
      (HonestCall device (.ioctl command :: actions) after ↔
        streamSystem.Along Undisturbed device (.ioctl command :: actions)) := by
  constructor
  · intro reached idle isOpen
    exact undisturbed_sound reached idle isOpen
  · intro latest command actions after idle sound other one run returned
    rcases System.run_from_cons run with ⟨middle, step, rest⟩
    rcases step_moves step with begins | moves | interrupts
    · rcases begins with ⟨this, same, _, is⟩
      cases same
      subst is
      rcases ioctl_turns_nothing device command with ⟨undisturbed, finished⟩
      have part := @waits_honest ⟨device.stream, some ⟨command, .check, 0#32⟩, device.ret⟩ after
        ⟨command, .check, 0#32⟩ actions latest rfl trivial other sound one
      rw [honest_cons step finished rfl, System.along_cons step]
      rw [if_neg other] at rest ⊢
      rw [part rest returned]
      exact ⟨fun along => ⟨undisturbed, along⟩, fun along => along.2⟩
    · rcases moves with ⟨running, event, is, _⟩
      cases is
    · rcases interrupts with ⟨dma, stream, is, _⟩
      cases is

def startedDevice : Device := deviceAfter probedDevice startCall

def signalledCall : List Action :=
  [.proceed .plain, .proceed .signalled, .proceed .plain, .proceed .plain,
    .proceed (.mapped 0x30000#64), .proceed .plain, .proceed .copied]

/-- The half is ready, and the user's memory cannot be written. -/
def faultedCall : List Action :=
  [.interrupt 0, .proceed .plain, .proceed .plain, .proceed .plain,
    .proceed (.mapped 0x30000#64), .proceed .plain, .proceed .faulted]

theorem started_sound : Sound startedDevice.stream 0 := by
  constructor
  · exact ⟨rfl, _, rfl, rfl⟩
  · intro done
    cases done
  · intro _
    rfl

/-- The call cut short succeeds with DMA 0 still in flight, and the one that faults has turned
to the other half. -/
theorem next_call_dishonest :
    (∃ after, streamSystem.runFrom startedDevice (.ioctl .nextStream :: signalledCall) =
        some after ∧ after.call = none ∧ after.ret = 0#32 ∧ 0 ∈ after.stream.card.running ∧
      ¬HonestCall startedDevice (.ioctl .nextStream :: signalledCall) after) ∧
    ∃ after, streamSystem.runFrom startedDevice (.ioctl .nextStream :: faultedCall) =
        some after ∧ after.call = none ∧ after.ret = efault ∧
      startedDevice.stream.descr.evenBuffer = true ∧ after.stream.descr.evenBuffer = false ∧
      ¬HonestCall startedDevice (.ioctl .nextStream :: faultedCall) after := by
  constructor
  · refine ⟨_, rfl, rfl, rfl, List.mem_cons_self, ?_⟩
    intro honest
    have along := honest.finished rfl
    have turn := (((along.2 _ rfl).2 _ rfl).2 _ rfl).1
    rcases turn ⟨rfl, _, rfl, rfl, by decide⟩ with ⟨latest, selected, _, notRunning⟩
    have last : latest + 1 = 1 := selected.last
    have zero : latest = 0 := by omega
    subst zero
    exact notRunning List.mem_cons_self
  · refine ⟨_, rfl, rfl, rfl, rfl, rfl, ?_⟩
    intro honest
    have kept := (honest.kept (by decide)).evenBuffer
    cases kept

instance (device : Device) (action : Action) : Decidable (Undisturbed device action) :=
  have _turns : Decidable (Turns device action) := inferInstanceAs (Decidable (_ ∧ ∃ running ∈
    device.call, running.point = .select ∧ running.command ≠ .startStream))
  have _starts : Decidable (Starts device action) := inferInstanceAs (Decidable (_ ∧ ∃ running ∈
    device.call, running.point = .select ∧ running.command = .startStream))
  decidable_of_iff (action ≠ .proceed .faulted ∧
      (Turns device action → device.stream.descr.dmaDone = true) ∧
      (Starts device action → device.stream.card.running = []))
    ⟨fun all => ⟨all.1, all.2.1, all.2.2⟩, fun all => ⟨all.1, all.2, all.3⟩⟩

def nextCall : List Action :=
  [.proceed .plain, .interrupt 0, .proceed .woken, .proceed .plain, .proceed .plain,
    .proceed (.mapped 0x30000#64), .proceed .plain, .proceed .copied]

theorem stream_calls_honest_next : ∃ after,
    streamSystem.runFrom startedDevice (.ioctl .nextStream :: nextCall) = some after ∧
    after.ret = 0#32 ∧ HonestCall startedDevice (.ioctl .nextStream :: nextCall) after := by
  have runs : ((streamSystem.guarded Undisturbed).runFrom startedDevice
      (.ioctl .nextStream :: nextCall)).map (fun device => (device.call, device.ret)) =
        some (none, 0#32) := rfl
  obtain ⟨after, guarded, ended⟩ := Option.map_eq_some_iff.mp runs
  obtain ⟨undisturbed, run⟩ := System.run_of_guarded _ guarded
  have one : OneCall nextCall := by
    intro action member command same
    subst same
    simp [nextCall] at member
  exact ⟨after, run, congrArg Prod.snd ended, ((stream_calls_honest startedDevice).2 0 .nextStream
    nextCall after rfl started_sound (by decide) one run (congrArg Prod.fst ended)).mpr undisturbed⟩

end FpgaPcie.Creotech
