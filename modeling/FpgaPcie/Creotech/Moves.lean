import FpgaPcie.Creotech.Pcie
import Mathlib.Tactic.Common

/-!
# What a call can do next

The statements of the stream calls, one by one: where each stands, under which condition it
leads on, and what it leaves behind.
-/

namespace FpgaPcie.Creotech

set_option autoImplicit false

inductive Moves (device : Device) (running : Running) : Event → Device → Prop where
  | done (point : running.point = .check) (is : device.stream.descr.dmaDone = true) :
      Moves device running .plain
        ⟨device.stream, some (running.at (Device.afterWait running)), device.ret⟩
  | blocks (point : running.point = .check) (is : device.stream.descr.dmaDone = false) :
      Moves device running .plain ⟨device.stream, some (running.at .waiting), device.ret⟩
  | woken (point : running.point = .waiting) (is : device.stream.descr.dmaDone = true) :
      Moves device running .woken
        ⟨device.stream, some (running.at (Device.afterWait running)), device.ret⟩
  | timedOut (point : running.point = .waiting) :
      Moves device running .timedOut ⟨device.stream, none, eio⟩
  | signalled (point : running.point = .waiting) :
      Moves device running .signalled
        ⟨device.stream, some (running.at (Device.afterWait running)), device.ret⟩
  | doneAgain (point : running.point = .recheck) (is : device.stream.descr.dmaDone = true) :
      Moves device running .plain ⟨device.stream, some (running.at .select), device.ret⟩
  | blocksAgain (point : running.point = .recheck) (is : device.stream.descr.dmaDone = false) :
      Moves device running .plain ⟨device.stream, some (running.at .waitingDone), device.ret⟩
  | wokenAgain (point : running.point = .waitingDone) (is : device.stream.descr.dmaDone = true) :
      Moves device running .woken ⟨device.stream, some (running.at .select), device.ret⟩
  | signalledAgain (point : running.point = .waitingDone) :
      Moves device running .signalled ⟨device.stream, some (running.at .select), device.ret⟩
  | starts (point : running.point = .select) (command : running.command = .startStream) :
      Moves device running .plain ⟨device.stream.startSelect,
        some (running.at (.loop device.stream.descr.silentDmas 0#64)), device.ret⟩
  | turns (point : running.point = .select) (command : running.command = .nextStream) :
      Moves device running .plain ⟨device.stream.nextSelect,
        some { running with
          point := .loop device.stream.descr.silentDmas 0#64
          retarg := device.stream.retarg }, device.ret⟩
  | ends (point : running.point = .select) (command : running.command = .endStream) :
      Moves device running .plain ⟨device.stream.endSelect,
        some { running with point := .copy, retarg := device.stream.retarg }, device.ret⟩
  | programsSilent (left : ℕ) (offset dmaAddr : U64)
      (point : running.point = .loop (left + 1) offset) :
      Moves device running (.mapped dmaAddr) ⟨device.stream.programDma offset dmaAddr,
        some (running.at (.launch false left offset)), device.ret⟩
  | arms (offset : U64) (point : running.point = .loop 0 offset) :
      Moves device running .plain
        ⟨device.stream.arm, some (running.at (.last offset)), device.ret⟩
  | programs (offset dmaAddr : U64) (point : running.point = .last offset) :
      Moves device running (.mapped dmaAddr) ⟨device.stream.programDma offset dmaAddr,
        some (running.at (.launch true 0 offset)), device.ret⟩
  | launchesSilent (left : ℕ) (offset : U64) (point : running.point = .launch false left offset) :
      Moves device running .plain ⟨device.stream.launchDma false,
        some (running.at (.loop left
          (offset + (device.stream.launchDma false).descr.transferSize))), device.ret⟩
  | opens (left : ℕ) (offset : U64) (point : running.point = .launch true left offset)
      (command : running.command = .startStream) :
      Moves device running .plain
        ⟨{ device.stream.launchDma true with isOpen := true }, none, 0#32⟩
  | launches (left : ℕ) (offset : U64) (point : running.point = .launch true left offset)
      (command : running.command ≠ .startStream) :
      Moves device running .plain
        ⟨device.stream.launchDma true, some (running.at .copy), device.ret⟩
  | copies (point : running.point = .copy) :
      Moves device running .copied ⟨{ device.stream with
        handed := device.stream.handed ++ [running.retarg]
        isOpen := running.command ≠ .endStream }, none, 0#32⟩
  | faults (point : running.point = .copy) :
      Moves device running .faulted ⟨device.stream, none, efault⟩

section Cases

variable {device after : Device}

theorem select_moves {command : Command} {retarg : U32}
    (step : device.select ⟨command, .select, retarg⟩ = some after) :
    Moves device ⟨command, .select, retarg⟩ .plain after := by
  cases command with
  | startStream =>
      cases step
      exact .starts rfl rfl
  | nextStream =>
      cases step
      exact .turns rfl rfl
  | endStream =>
      cases step
      exact .ends rfl rfl

theorem launch_moves {command : Command} {sendInterrupt : Bool} {left : ℕ} {offset : U64}
    {retarg : U32}
    (step : device.launched ⟨command, .launch sendInterrupt left offset, retarg⟩ sendInterrupt left
      offset = some after) :
    Moves device ⟨command, .launch sendInterrupt left offset, retarg⟩ .plain after := by
  cases sendInterrupt with
  | false =>
      cases step
      exact .launchesSilent left offset rfl
  | true =>
      cases command with
      | startStream =>
          cases step
          exact .opens left offset rfl rfl
      | nextStream =>
          cases step
          apply Moves.launches left offset rfl
          intro same
          cases same
      | endStream =>
          cases step
          apply Moves.launches left offset rfl
          intro same
          cases same

theorem proceed_woken (device : Device) (command : Command) (retarg : U32) :
    device.proceed ⟨command, .waiting, retarg⟩ .woken =
      if device.stream.descr.dmaDone then
        device.goto device.stream ⟨command, .waiting, retarg⟩
          (Device.afterWait ⟨command, .waiting, retarg⟩)
      else none := rfl

theorem proceed_woken_done (device : Device) (command : Command) (retarg : U32) :
    device.proceed ⟨command, .waitingDone, retarg⟩ .woken =
      if device.stream.descr.dmaDone then
        device.goto device.stream ⟨command, .waitingDone, retarg⟩ .select
      else none := rfl

theorem wait_moves {command : Command} {retarg : U32} {event : Event}
    (step : device.proceed ⟨command, .waiting, retarg⟩ event = some after) :
    Moves device ⟨command, .waiting, retarg⟩ event after := by
  cases event with
  | woken =>
      rw [proceed_woken] at step
      split at step
      · cases step
        exact .woken rfl ‹_›
      · cases step
  | timedOut =>
      cases step
      exact .timedOut rfl
  | signalled =>
      cases step
      exact .signalled rfl
  | plain | mapped | copied | faulted => cases step

theorem wait_again_moves {command : Command} {retarg : U32} {event : Event}
    (step : device.proceed ⟨command, .waitingDone, retarg⟩ event = some after) :
    Moves device ⟨command, .waitingDone, retarg⟩ event after := by
  cases event with
  | woken =>
      rw [proceed_woken_done] at step
      split at step
      · cases step
        exact .wokenAgain rfl ‹_›
      · cases step
  | signalled =>
      cases step
      exact .signalledAgain rfl
  | plain | timedOut | mapped | copied | faulted => cases step

theorem loop_moves {command : Command} {retarg : U32} {left : ℕ} {offset : U64} {event : Event}
    (step : device.proceed ⟨command, .loop left offset, retarg⟩ event = some after) :
    Moves device ⟨command, .loop left offset, retarg⟩ event after := by
  cases left with
  | zero =>
      cases event with
      | plain =>
          cases step
          exact .arms offset rfl
      | woken | timedOut | signalled | mapped | copied | faulted => cases step
  | succ left =>
      cases event with
      | mapped dmaAddr =>
          cases step
          exact .programsSilent left offset dmaAddr rfl
      | plain | woken | timedOut | signalled | copied | faulted => cases step

theorem check_moves {command : Command} {retarg : U32}
    (step : device.proceed ⟨command, .check, retarg⟩ .plain = some after) :
    Moves device ⟨command, .check, retarg⟩ .plain after := by
  cases step
  cases done : device.stream.descr.dmaDone with
  | true => exact .done rfl done
  | false => exact .blocks rfl done

theorem recheck_moves {command : Command} {retarg : U32}
    (step : device.proceed ⟨command, .recheck, retarg⟩ .plain = some after) :
    Moves device ⟨command, .recheck, retarg⟩ .plain after := by
  cases step
  cases done : device.stream.descr.dmaDone with
  | true => exact .doneAgain rfl done
  | false => exact .blocksAgain rfl done

theorem proceed_moves {running : Running} {event : Event}
    (step : device.proceed running event = some after) : Moves device running event after := by
  rcases running with ⟨command, point, retarg⟩
  cases point with
  | check =>
      cases event with
      | plain => exact check_moves step
      | woken | timedOut | signalled | mapped | copied | faulted => cases step
  | waiting => exact wait_moves step
  | recheck =>
      cases event with
      | plain => exact recheck_moves step
      | woken | timedOut | signalled | mapped | copied | faulted => cases step
  | waitingDone => exact wait_again_moves step
  | select =>
      cases event with
      | plain => exact select_moves step
      | woken | timedOut | signalled | mapped | copied | faulted => cases step
  | loop left offset => exact loop_moves step
  | last offset =>
      cases event with
      | mapped dmaAddr =>
          cases step
          exact .programs offset dmaAddr rfl
      | plain | woken | timedOut | signalled | copied | faulted => cases step
  | launch sendInterrupt left offset =>
      cases event with
      | plain => exact launch_moves step
      | woken | timedOut | signalled | mapped | copied | faulted => cases step
  | copy =>
      cases event with
      | copied =>
          cases step
          exact .copies rfl
      | faulted =>
          cases step
          exact .faults rfl
      | plain | woken | timedOut | signalled | mapped => cases step

theorem step_moves {action : Action} (step : device.step action = some after) :
    (∃ command, action = .ioctl command ∧ device.call = none ∧
      after = ⟨device.stream, some ⟨command,
        if command = .startStream then .select else .check, 0#32⟩, device.ret⟩) ∨
    (∃ running event, action = .proceed event ∧ device.call = some running ∧
      Moves device running event after) ∨
    ∃ dma stream, action = .interrupt dma ∧ device.stream.interrupt dma = some stream ∧
      after = { device with stream := stream } := by
  cases action with
  | ioctl command =>
      apply Or.inl
      cases call : device.call with
      | some running => cases command <;> simp [Device.step, call] at step
      | none =>
          refine ⟨command, rfl, rfl, ?_⟩
          cases command with
          | startStream | nextStream | endStream =>
              simp only [Device.step, call, Device.goto, Option.some.injEq] at step
              subst step
              rfl
  | proceed event =>
      apply Or.inr
      apply Or.inl
      cases call : device.call with
      | none => simp [Device.step, call] at step
      | some running =>
          simp only [Device.step, call] at step
          exact ⟨running, event, rfl, rfl, proceed_moves step⟩
  | interrupt dma =>
      apply Or.inr
      apply Or.inr
      rcases Option.map_eq_some_iff.mp step with ⟨stream, interrupts, is⟩
      exact ⟨dma, stream, rfl, interrupts, is.symm⟩

end Cases

end FpgaPcie.Creotech
