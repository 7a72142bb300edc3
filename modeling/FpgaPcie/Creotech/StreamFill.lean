import FpgaPcie.Creotech.SettingsFrame
import FpgaPcie.Creotech.StreamOrder
import FpgaPcie.Lib.Rotation

/-!
# What the halves hold

A statement of a call leads on, starts a DMA or ends the call, and nothing else. With the
bytes of the card in the buffer, the halves of the two latest DMAs hold what has arrived of
them.
-/

namespace FpgaPcie.Creotech

open FpgaPcie.Rotation

set_option autoImplicit false

def View.launches (view : View) (dma : Dma) : View :=
  { view with dmas := view.dmas ++ [dma], running := [view.dmas.length] }

structure SameSettings (device after : Device) : Prop where
  tlpSize : after.stream.descr.tlpSize = device.stream.descr.tlpSize
  tlpCount : after.stream.descr.tlpCount = device.stream.descr.tlpCount
  dmaCount : after.stream.descr.dmaCount = device.stream.descr.dmaCount
  buffer : after.stream.descr.buffer = device.stream.descr.buffer

inductive CallStep (device : Device) (running : Running) (event : Event) (after : Device) :
    Prop where
  | leadsOn (next : Running) (call : after.call = some next)
      (command : next.command = running.command) (view : after.stream.view = device.stream.view)
      (selected : running.command = .startStream → running.point ≠ .select)
      (other : event ≠ .copied)
  | begins (next : Running) (call : after.call = some next) (command : next.command = .startStream)
      (was : running.command = .startStream) (point : running.point = .select)
      (view : after.stream.view =
        { device.stream.view with base := device.stream.view.dmas.length })
      (other : event ≠ .copied)
  | launches (dma : Dma) (next : Running) (call : after.call = some next)
      (command : next.command = running.command) (bytes : dma.bytes = device.stream.descr.bytes)
      (point : running.point ≠ .select) (quiet : device.stream.view.running = [])
      (view : after.stream.view = device.stream.view.launches dma) (other : event ≠ .copied)
  | opens (dma : Dma) (call : after.call = none) (was : running.command = .startStream)
      (bytes : dma.bytes = device.stream.descr.bytes) (point : running.point ≠ .select)
      (quiet : device.stream.view.running = [])
      (view : after.stream.view = device.stream.view.launches dma)
      (isOpen : after.stream.isOpen = true)
  | hands (is : event = .copied) (call : after.call = none) (ret : after.ret = 0#32)
      (was : running.command ≠ .startStream)
      (retarg : running.retarg = streamHalf device.stream.view.served)
      (view : after.stream.view = device.stream.view.hands)
      (isOpen : after.stream.isOpen = decide (running.command ≠ .endStream))
  | timesOut (is : event = .timedOut) (call : after.call = none) (ret : after.ret ≠ 0#32)
      (was : running.command ≠ .startStream) (stream : after.stream = device.stream)
      (isOpen : device.stream.isOpen = true)

section Statements

variable {device after : Device} {running : Running} {event : Event}

theorem moves_settings (moves : Moves device running event after) :
    SameSettings device after := by
  cases moves with
  | _ => exact ⟨rfl, rfl, rfl, rfl⟩

theorem placed_at_loop {stream : Stream} (placed : Placed stream (some running)) {left : ℕ}
    {offset : U64} (point : running.point = .loop (left + 1) offset) : False := by
  cases placed with
  | starts retarg here => cases point
  | waits running command at_ here => rcases at_ with at_ | at_ <;> cases point.symm.trans at_
  | ended running command at_ here quiet =>
      rcases at_ with at_ | at_ | at_ <;> cases point.symm.trans at_
  | selected running at_ here => cases point.symm.trans at_
  | armed running at_ here awaited => cases point.symm.trans at_
  | programmed running at_ here awaited registers => cases point.symm.trans at_
  | handsNext retarg half stage turned awaited => cases point
  | handsEnd retarg half stage quiet => cases point

theorem placed_at_launch {stream : Stream} (placed : Placed stream (some running))
    {sendInterrupt : Bool} {left : ℕ} {offset : U64}
    (point : running.point = .launch sendInterrupt left offset) :
    sendInterrupt = true ∧ stream.card.running = [] ∧
      Programmed stream.card stream.descr (stream.descr.tlpAddress 0#64) := by
  cases placed with
  | starts retarg here => cases point
  | waits running command at_ here => rcases at_ with at_ | at_ <;> cases point.symm.trans at_
  | ended running command at_ here quiet =>
      rcases at_ with at_ | at_ | at_ <;> cases point.symm.trans at_
  | selected running at_ here => cases point.symm.trans at_
  | armed running at_ here awaited => cases point.symm.trans at_
  | programmed running at_ here awaited registers =>
      cases point.symm.trans at_
      exact ⟨rfl, here.quiet, registers⟩
  | handsNext retarg half stage turned awaited => cases point
  | handsEnd retarg half stage quiet => cases point

theorem placed_at_copy {stream : Stream} (placed : Placed stream (some running))
    (point : running.point = .copy) :
    running.command ≠ .startStream ∧ running.retarg = streamHalf stream.view.served := by
  cases placed with
  | starts retarg here => cases point
  | waits running command at_ here => rcases at_ with at_ | at_ <;> cases point.symm.trans at_
  | ended running command at_ here quiet =>
      rcases at_ with at_ | at_ | at_ <;> cases point.symm.trans at_
  | selected running at_ here => cases point.symm.trans at_
  | armed running at_ here awaited => cases point.symm.trans at_
  | programmed running at_ here awaited registers => cases point.symm.trans at_
  | handsNext retarg half stage turned awaited => exact ⟨nofun, half⟩
  | handsEnd retarg half stage quiet => exact ⟨nofun, half⟩

theorem placed_at_wait {stream : Stream} (placed : Placed stream (some running))
    (point : running.point = .waiting) :
    running.command ≠ .startStream ∧ stream.isOpen = true := by
  cases placed with
  | starts retarg here => cases point
  | waits running command at_ here => exact ⟨command, here.isOpen⟩
  | ended running command at_ here quiet => exact ⟨command, here.isOpen⟩
  | selected running at_ here => cases point.symm.trans at_
  | armed running at_ here awaited => cases point.symm.trans at_
  | programmed running at_ here awaited registers => cases point.symm.trans at_
  | handsNext retarg half stage turned awaited => cases point
  | handsEnd retarg half stage quiet => cases point

theorem placed_at_select {stream : Stream} (placed : Placed stream (some running))
    (command : running.command = .startStream) (point : running.point = .select) :
    Closed stream := by
  cases placed with
  | starts retarg here => exact here
  | waits running other at_ here => exact absurd command other
  | ended running other at_ here quiet => exact absurd command other
  | selected running at_ here => cases point.symm.trans at_
  | armed running at_ here awaited => cases point.symm.trans at_
  | programmed running at_ here awaited registers => cases point.symm.trans at_
  | handsNext retarg half stage turned awaited => cases point
  | handsEnd retarg half stage quiet => cases point

theorem program_view (stream : Stream) (offset mapped : U64) :
    (stream.programDma offset mapped).view = stream.view := by
  have programmed := program_dma_card stream offset mapped
  simp only [Stream.view, programmed.1, programmed.2.1, programmed.2.2.1]
  rfl

theorem launch_view {stream : Stream} (quiet : stream.card.running = []) {address : U32}
    (registers : Programmed stream.card stream.descr address) :
    (stream.launchDma true).view = stream.view.launches (stream.descr.dmaAt address) := by
  have launched := launch_card stream registers
  simp only [Stream.view, launched.1, launched.2.1, launched.2.2, quiet, List.nil_append]
  rfl

theorem select_only {condition : Point} (point : running.point = condition)
    (other : condition ≠ .select) : running.point ≠ .select := by
  rw [point]
  exact other

theorem call_step (placed : Placed device.stream (some running))
    (undisturbed : event ≠ .signalled ∧ event ≠ .faulted)
    (moves : Moves device running event after) : CallStep device running event after := by
  cases moves with
  | done point is | woken point is =>
      exact .leadsOn _ rfl rfl rfl (fun _ => select_only point nofun) nofun
  | blocks point is | blocksAgain point is | doneAgain point is | wokenAgain point is =>
      exact .leadsOn _ rfl rfl rfl (fun _ => select_only point nofun) nofun
  | timedOut point =>
      have waits := placed_at_wait placed point
      have failed : eio ≠ 0#32 := by decide
      exact .timesOut rfl rfl failed waits.1 rfl waits.2
  | signalled point | signalledAgain point => exact absurd rfl undisturbed.1
  | starts point command => exact .begins _ rfl command command point rfl nofun
  | turns point command | ends point command =>
      refine .leadsOn _ rfl rfl rfl (fun start => ?_) nofun
      rw [command] at start
      cases start
  | programsSilent left offset dmaAddr point => exact (placed_at_loop placed point).elim
  | arms offset point => exact .leadsOn _ rfl rfl rfl (fun _ => select_only point nofun) nofun
  | programs offset dmaAddr point =>
      exact .leadsOn _ rfl rfl (program_view _ _ _) (fun _ => select_only point nofun) nofun
  | launchesSilent left offset point => cases (placed_at_launch placed point).1
  | opens left offset point command =>
      have ready := placed_at_launch placed point
      exact .opens _ rfl command rfl (select_only point nofun) ready.2.1
        (launch_view ready.2.1 ready.2.2) rfl
  | launches left offset point command =>
      have ready := placed_at_launch placed point
      exact .launches _ _ rfl rfl rfl (select_only point nofun) ready.2.1
        (launch_view ready.2.1 ready.2.2) nofun
  | copies point =>
      have copy := placed_at_copy placed point
      refine .hands rfl rfl rfl copy.1 copy.2 ?_ rfl
      rw [View.hands, ← copy.2]
      rfl
  | faults point => exact absurd rfl undisturbed.2

end Statements

/-- The DMAs from `first` on fill a half each; those that are over have told all, and the
latest two are in the buffer as far as they have come. -/
structure Filled (source : ℕ → ℕ → U8) (first : ℕ) (buffer : Bytes) (arrived : ℕ → ℕ)
    (view : View) : Prop where
  behind : first ≤ view.dmas.length
  full : ∀ k dma, first ≤ k → view.dmas[k]? = some dma → dma.bytes = bufSize
  landed : ∀ k, first ≤ k → k < view.dmas.length → k ∉ view.running → arrived k = bufSize
  fresh : ∀ k, view.dmas.length ≤ k → arrived k = 0
  rotates : Rotates 2 bufSize buffer (fun turn => source (first + turn))
    (fun turn => arrived (first + turn)) (view.dmas.length - first)

section Buffer

variable {source : ℕ → ℕ → U8} {first : ℕ} {buffer : Bytes} {arrived : ℕ → ℕ} {view after : View}

theorem Filled.congr (filled : Filled source first buffer arrived view)
    (dmas : after.dmas = view.dmas) (running : after.running = view.running) :
    Filled source first buffer arrived after := by
  constructor
  · rw [dmas]
    exact filled.behind
  · rw [dmas]
    exact filled.full
  · rw [dmas, running]
    exact filled.landed
  · rw [dmas]
    exact filled.fresh
  · rw [dmas]
    exact filled.rotates

theorem Filled.launches (filled : Filled source first buffer arrived view)
    (quiet : view.running = []) {dma : Dma} (bytes : dma.bytes = bufSize) :
    Filled source first buffer arrived (view.launches dma) := by
  have longer : (view.launches dma).dmas.length = view.dmas.length + 1 := by
    rw [View.launches, List.length_append, List.length_singleton]
  have behind := filled.behind
  constructor
  · rw [longer]
    exact Nat.le_succ_of_le behind
  · intro k other later there
    by_cases old : k < view.dmas.length
    · rw [View.launches, List.getElem?_append_left old] at there
      exact filled.full k other later there
    · rw [View.launches, List.getElem?_append_right (Nat.le_of_not_lt old),
        List.getElem?_singleton, Option.ite_none_right_eq_some, Option.some.injEq] at there
      rw [← there.2]
      exact bytes
  · intro k later begun still
    rw [longer] at begun
    rw [View.launches, List.mem_singleton] at still
    apply filled.landed k later (by omega)
    rw [quiet]
    exact List.not_mem_nil
  · intro k beyond
    rw [longer] at beyond
    exact filled.fresh k (by omega)
  · have more : view.dmas.length + 1 - first = view.dmas.length - first + 1 := by omega
    rw [longer, more]
    apply filled.rotates.begins
    apply filled.fresh
    omega

theorem Filled.ended (filled : Filled source first buffer arrived view) {dma : ℕ}
    (later : first ≤ dma) (told : view.dmas[dma]?.map Dma.bytes = some (arrived dma))
    (others : ∀ k, k ∈ view.running → k = dma) (dmas : after.dmas = view.dmas) :
    Filled source first buffer arrived after := by
  have all : ∀ k, first ≤ k → k < view.dmas.length → arrived k = bufSize := by
    intro k further begun
    by_cases same : k = dma
    · obtain ⟨started, there, bytes⟩ := Option.map_eq_some_iff.mp told
      rw [same, ← bytes]
      exact filled.full dma started later there
    · exact filled.landed k further begun fun runs => same (others k runs)
  constructor
  · rw [dmas]
    exact filled.behind
  · rw [dmas]
    exact filled.full
  · rw [dmas]
    exact fun k further begun _ => all k further begun
  · rw [dmas]
    exact filled.fresh
  · rw [dmas]
    exact filled.rotates

theorem Filled.arrives (filled : Filled source first buffer arrived view) {dma : ℕ}
    (later : first ≤ dma) (latest : dma + 1 = view.dmas.length) (runs : dma ∈ view.running)
    (room : arrived dma < bufSize) :
    Filled source first
      (Function.update buffer (place 2 bufSize (dma - first) (arrived dma))
        (source dma (arrived dma)))
      (Function.update arrived dma (arrived dma + 1)) view where
  behind := filled.behind
  full := filled.full
  landed := by
    intro k further begun still
    have other : k ≠ dma := by
      intro same
      exact still (same ▸ runs)
    rw [Function.update_of_ne other]
    exact filled.landed k further begun still
  fresh := by
    intro k beyond
    have other : k ≠ dma := by omega
    rw [Function.update_of_ne other]
    exact filled.fresh k beyond
  rotates := by
    have turn : first + (dma - first) = dma := Nat.add_sub_cancel' later
    have arrives := @Rotates.arrives _ _ _ _ _ _
      (fun turn => Function.update arrived dma (arrived dma + 1) (first + turn)) _
      filled.rotates (dma - first) (by omega) (by omega)
    simp only [turn] at arrives
    apply arrives room
    · rw [Function.update_self]
    · intro other apart
      apply Function.update_of_ne
      omega

end Buffer

end FpgaPcie.Creotech
