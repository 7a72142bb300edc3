import FpgaPcie.Driver.InterruptAccount
import FpgaPcie.Mprace.ListIntegrity
import FpgaPcie.Mprace.WaitOutcome

/-!
# The interrupt-enable register of the board

The two DMA channels and the interrupt generator have a bit each in one register, which
the library and the interrupt handler read, change and write back. Enabling a source
leaves the other bits alone. Disabling and acknowledging mask the register with a logical
not, so that they clear it; the bits stand for what was asked for last only while no
source is disabled with another one enabled.
-/

namespace FpgaPcie.Mprace

open FpgaPcie.Transition
open FpgaPcie.Polling (firstStop)
open FpgaPcie.Driver.Irq (Privdata Counted abbIrqCh0 abbIrqCh1 abbIrqIg)

set_option autoImplicit false

namespace DMAEngineWG

def setUseInterrupts (engine : DMAEngineWG) (value : Bool) : DMAEngineWG :=
  { engine with useInterrupts := value }

end DMAEngineWG

namespace InterruptGenerator

def inteIg : U32 := 0x00000004#32

def enable (inte : U32) : U32 := inte ||| inteIg

def disable (inte : U32) : U32 := inte &&& DMAEngineWG.logicalNot inteIg

end InterruptGenerator

inductive EnableSource where
  | channel (ch : Channel)
  | generator
  deriving DecidableEq, Repr

namespace EnableSource

def bit : EnableSource → U32
  | .channel ch => DMAEngineWG.inteCh ch
  | .generator => InterruptGenerator.inteIg

/-- `IRQ_SRC_CH0` and `IRQ_SRC_CH1` of the library, `ABB_IRQ_IG` of the driver. -/
def irqSource : EnableSource → Driver.Irq.Source
  | .channel ch => if ch = 0 then abbIrqCh0 else abbIrqCh1
  | .generator => abbIrqIg

end EnableSource

/-- The register is `engine.inte`, also for the driver. `operations` is on record: who
enabled (`true`), disabled or acknowledged (`false`) which source, the latest first. -/
structure Board where
  engine : DMAEngineWG
  privdata : Privdata
  operations : List (Driver.Irq.Source × Bool)

/-- `prepare` is what `host2board` and `board2host` do first; `waitChannel` enables its
channel before it waits and disables it afterwards. -/
inductive RegisterAction where
  | setUseInterrupts (value : Bool)
  | enableInterrupt (ch : Channel)
  | disableInterrupt (ch : Channel)
  | prepare (ch : Channel)
  | enableGenerator
  | disableGenerator
  | interrupt (intStat : Fin 5 → U32)

namespace Board

def driver (board : Board) : Privdata := { board.privdata with intEnable := board.engine.inte }

def engineAfter (board : Board) : RegisterAction → DMAEngineWG
  | .setUseInterrupts value => board.engine.setUseInterrupts value
  | .enableInterrupt ch => board.engine.enableInterrupt ch
  | .disableInterrupt ch => board.engine.disableInterrupt ch
  | .prepare ch => board.engine.prepare ch
  | .enableGenerator =>
      { board.engine with inte := InterruptGenerator.enable board.engine.inte }
  | .disableGenerator =>
      { board.engine with inte := InterruptGenerator.disable board.engine.inte }
  | .interrupt intStat =>
      { board.engine with inte := (board.driver.irqHandler intStat).1.intEnable }

def privdataAfter (board : Board) : RegisterAction → Privdata
  | .interrupt intStat => (board.driver.irqHandler intStat).1
  | _ => board.privdata

def operation (board : Board) : RegisterAction → Option (Driver.Irq.Source × Bool)
  | .setUseInterrupts _ => none
  | .enableInterrupt ch => some ((EnableSource.channel ch).irqSource, true)
  | .disableInterrupt ch => some ((EnableSource.channel ch).irqSource, false)
  | .prepare ch =>
      if !board.engine.oldRegisters && !board.engine.useInterrupts then
        some ((EnableSource.channel ch).irqSource, false)
      else none
  | .enableGenerator => some (EnableSource.generator.irqSource, true)
  | .disableGenerator => some (EnableSource.generator.irqSource, false)
  | .interrupt intStat =>
      (board.driver.irqAcknowledge intStat).bind fun after =>
        after.acknowledged.head?.map fun source => (source, false)

def after (board : Board) (action : RegisterAction) : Board where
  engine := board.engineAfter action
  privdata := board.privdataAfter action
  operations := (board.operation action).toList ++ board.operations

def Enabled (board : Board) (source : EnableSource) : Prop :=
  board.engine.inte &&& source.bit ≠ 0#32

def lastOperation (board : Board) (source : EnableSource) : Option Bool :=
  (board.operations.find? fun operation => operation.1 = source.irqSource).map Prod.snd

def Faithful (board : Board) : Prop :=
  ∀ source, board.Enabled source ↔ board.lastOperation source = some true

end Board

/-- The board before anything was asked of it: no source is enabled. -/
def boardSystem : System Board RegisterAction where
  initial board := board.operations = [] ∧ ∀ source, ¬board.Enabled source
  step board action := some (board.after action)

/-- A source is disabled or acknowledged only while no other one is enabled. -/
def Alone (board : Board) (action : RegisterAction) : Prop :=
  ∀ source : EnableSource, board.operation action = some (source.irqSource, false) →
    ∀ other, other ≠ source → ¬board.Enabled other

theorem irq_source_injective {one other : EnableSource} (same : one.irqSource = other.irqSource) :
    one = other := by
  cases one with
  | channel ch =>
      cases other with
      | channel also =>
          rcases channel_cases ch with rfl | rfl <;> rcases channel_cases also with rfl | rfl
          · rfl
          · exact absurd same (by decide)
          · exact absurd same (by decide)
          · rfl
      | generator => rcases channel_cases ch with rfl | rfl <;> exact absurd same (by decide)
  | generator =>
      cases other with
      | channel also => rcases channel_cases also with rfl | rfl <;> exact absurd same (by decide)
      | generator => rfl

theorem bit_and_bit (one other : EnableSource) : one.bit &&& other.bit = 0#32 ↔ one ≠ other := by
  cases one with
  | channel ch =>
      cases other with
      | channel also =>
          rcases channel_cases ch with rfl | rfl <;> rcases channel_cases also with rfl | rfl <;>
            decide
      | generator => rcases channel_cases ch with rfl | rfl <;> decide
  | generator =>
      cases other with
      | channel also => rcases channel_cases also with rfl | rfl <;> decide
      | generator => decide

theorem logical_not_bit (source : EnableSource) : DMAEngineWG.logicalNot source.bit = 0#32 := by
  cases source with
  | channel ch => rcases channel_cases ch with rfl | rfl <;> decide
  | generator => decide

theorem enabled_or (inte : U32) (source other : EnableSource) :
    (inte ||| source.bit) &&& other.bit ≠ 0#32 ↔ inte &&& other.bit ≠ 0#32 ∨ source = other := by
  rw [BitVec.and_or_distrib_right, ne_eq, BitVec.or_eq_zero_iff, bit_and_bit, not_and_or, not_not]

theorem acknowledge_register {privdata acknowledged : Privdata} {intStat : Fin 5 → U32}
    (acknowledges : privdata.irqAcknowledge intStat = some acknowledged) :
    acknowledged.intEnable = 0#32 ∧
      ∃ source : EnableSource, Counted privdata acknowledged source.irqSource := by
  simp only [Privdata.irqAcknowledge, Option.ite_none_left_eq_some, Option.orElse_eq_orElse,
    Option.orElse_eq_or, Option.or_eq_some_iff] at acknowledges
  rcases acknowledges with ⟨-, ch0 | ⟨-, ch1 | ⟨-, ig | ⟨-, ch0Timeout | ⟨-, ch1Timeout⟩⟩⟩⟩⟩
  · exact ⟨Driver.Irq.acknowledged_disables (by decide) ch0, .channel 0,
      Driver.Irq.check_counts ch0⟩
  · exact ⟨Driver.Irq.acknowledged_disables (by decide) ch1, .channel 1,
      Driver.Irq.check_counts ch1⟩
  · exact ⟨Driver.Irq.acknowledged_disables (by decide) ig, .generator,
      Driver.Irq.check_counts ig⟩
  · exact ⟨Driver.Irq.acknowledged_disables (by decide) ch0Timeout, .channel 0,
      Driver.Irq.check_counts ch0Timeout⟩
  · exact ⟨Driver.Irq.acknowledged_disables (by decide) ch1Timeout, .channel 1,
      Driver.Irq.check_counts ch1Timeout⟩

section Register

variable {board : Board} {action : RegisterAction} {source : EnableSource}

/-- Nothing is asked of the register and it stays, a source is enabled and its bit is
set, or a source is disabled or acknowledged and the register is cleared. -/
inductive RegisterEffect (board : Board) (action : RegisterAction) : Prop where
  | kept (asked : board.operation action = none)
      (inte : (board.engineAfter action).inte = board.engine.inte)
  | enabled (source : EnableSource) (asked : board.operation action = some (source.irqSource, true))
      (inte : (board.engineAfter action).inte = board.engine.inte ||| source.bit)
  | cleared (source : EnableSource)
      (asked : board.operation action = some (source.irqSource, false))
      (inte : (board.engineAfter action).inte = 0#32)

theorem disable_clears (engine : DMAEngineWG) (ch : Channel) :
    (engine.disableInterrupt ch).inte = 0#32 := by
  have mask : DMAEngineWG.logicalNot (DMAEngineWG.inteCh ch) = 0#32 :=
    logical_not_bit (.channel ch)
  rw [DMAEngineWG.disableInterrupt, mask]
  exact BitVec.and_zero

theorem register_effect (board : Board) (action : RegisterAction) :
    RegisterEffect board action := by
  cases action with
  | setUseInterrupts value => exact .kept rfl rfl
  | enableInterrupt ch => exact .enabled (.channel ch) rfl rfl
  | disableInterrupt ch => exact .cleared (.channel ch) rfl (disable_clears _ _)
  | prepare ch =>
      by_cases masks : !board.engine.oldRegisters && !board.engine.useInterrupts
      · refine .cleared (.channel ch) (if_pos masks) ?_
        have also : board.engine.prepare ch = (board.engine.reset ch).disableInterrupt ch :=
          if_pos masks
        rw [Board.engineAfter, also]
        exact disable_clears _ _
      · refine .kept (if_neg masks) ?_
        have only : board.engine.prepare ch = board.engine.reset ch := if_neg masks
        rw [Board.engineAfter, only]
        rfl
  | enableGenerator => exact .enabled .generator rfl rfl
  | disableGenerator =>
      refine .cleared .generator rfl ?_
      have mask : DMAEngineWG.logicalNot InterruptGenerator.inteIg = 0#32 :=
        logical_not_bit .generator
      simp only [Board.engineAfter, InterruptGenerator.disable, mask]
      exact BitVec.and_zero
  | interrupt intStat =>
      cases acknowledges : board.driver.irqAcknowledge intStat with
      | none =>
          refine .kept (by rw [Board.operation, acknowledges]; rfl) ?_
          simp only [Board.engineAfter, Privdata.irqHandler, acknowledges]
          rfl
      | some acknowledged =>
          obtain ⟨register, source, counted⟩ := acknowledge_register acknowledges
          refine .cleared source ?_ ?_
          · rw [Board.operation, acknowledges, Option.bind_some, counted.record]
            rfl
          · simp only [Board.engineAfter, Privdata.irqHandler, acknowledges]
            exact register

theorem last_operation_after {value : Bool}
    (asked : board.operation action = some (source.irqSource, value)) (other : EnableSource) :
    (board.after action).lastOperation other =
      if source = other then some value else board.lastOperation other := by
  simp only [Board.lastOperation, Board.after, asked, Option.toList_some, List.singleton_append]
  by_cases same : source = other
  · subst same
    simp
  · have apart : source.irqSource ≠ other.irqSource := fun equal => same (irq_source_injective equal)
    rw [List.find?_cons_of_neg (by simpa using apart), if_neg same]

theorem enabled_after_enable
    (inte : (board.engineAfter action).inte = board.engine.inte ||| source.bit)
    (other : EnableSource) :
    (board.after action).Enabled other ↔ board.Enabled other ∨ source = other := by
  simp only [Board.Enabled, Board.after, inte]
  exact enabled_or _ _ _

theorem enabled_after_clear (inte : (board.engineAfter action).inte = 0#32)
    (other : EnableSource) : ¬(board.after action).Enabled other := by
  simp only [Board.Enabled, Board.after, inte, not_not]
  exact BitVec.zero_and

theorem last_operation_kept (asked : board.operation action = none) (other : EnableSource) :
    (board.after action).lastOperation other = board.lastOperation other := by
  simp only [Board.lastOperation, Board.after, asked, Option.toList_none, List.nil_append]

/-- An operation on one source leaves the bits of the others. -/
def Framed (board : Board) (action : RegisterAction) : Prop :=
  ∀ (source : EnableSource) value, board.operation action = some (source.irqSource, value) →
    ∀ other, other ≠ source → ((board.after action).Enabled other ↔ board.Enabled other)

theorem framed_iff (board : Board) (action : RegisterAction) :
    Framed board action ↔ Alone board action := by
  cases register_effect board action with
  | kept asked inte =>
      constructor
      · intro _ source wanted
        rw [asked] at wanted
        cases wanted
      · intro _ source value wanted
        rw [asked] at wanted
        cases wanted
  | enabled source asked inte =>
      constructor
      · intro _ other wanted
        rw [asked, Option.some.injEq, Prod.mk.injEq] at wanted
        exact absurd wanted.2 (by decide)
      · intro _ also value wanted other differ
        rw [asked, Option.some.injEq, Prod.mk.injEq] at wanted
        have same := irq_source_injective wanted.1
        subst same
        rw [enabled_after_enable inte]
        exact or_iff_left (Ne.symm differ)
  | cleared source asked inte =>
      constructor
      · intro framed also wanted other differ on
        exact enabled_after_clear inte other ((framed also false wanted other differ).mpr on)
      · intro alone also value wanted other differ
        rw [asked, Option.some.injEq, Prod.mk.injEq] at wanted
        have same := irq_source_injective wanted.1
        subst same
        exact iff_of_false (enabled_after_clear inte other) (alone _ asked other differ)

/-- From a register that shows the last operations, a step keeps that exactly if it
disables no source beside an enabled one. -/
theorem faithful_after_iff (faithful : board.Faithful) :
    (board.after action).Faithful ↔ Alone board action := by
  cases register_effect board action with
  | kept asked inte =>
      have enabled : ∀ other, (board.after action).Enabled other ↔ board.Enabled other := by
        intro other
        simp only [Board.Enabled, Board.after, inte]
      constructor
      · intro _ source wanted
        rw [asked] at wanted
        cases wanted
      · intro _ other
        rw [enabled, last_operation_kept asked]
        exact faithful other
  | enabled source asked inte =>
      constructor
      · intro _ other wanted
        rw [asked, Option.some.injEq, Prod.mk.injEq] at wanted
        exact absurd wanted.2 (by decide)
      · intro _ other
        rw [enabled_after_enable inte, last_operation_after asked]
        by_cases same : source = other
        · simp [same]
        · rw [if_neg same, or_iff_left same]
          exact faithful other
  | cleared source asked inte =>
      constructor
      · intro kept also wanted other differ on
        rw [asked, Option.some.injEq, Prod.mk.injEq] at wanted
        have same := irq_source_injective wanted.1
        subst same
        have last := (faithful other).mp on
        have shown := (kept other).mpr (by rw [last_operation_after asked, if_neg differ.symm, last])
        exact enabled_after_clear inte other shown
      · intro alone other
        apply iff_of_false (enabled_after_clear inte other)
        rw [last_operation_after asked]
        by_cases same : source = other
        · simp [same]
        · rw [if_neg same]
          exact fun last => alone source asked other (Ne.symm same) ((faithful other).mpr last)

end Register

theorem start_register {world started : World} {ch : Channel} {b : BufId} {request : Request}
    (result : world.start ch b request = some started) :
    started.engine.inte = (world.engine.prepare ch).inte := by
  obtain ⟨buf, live, ⟨kBuf, kernel, rfl⟩ | ⟨listed, programmed, sent, rfl⟩⟩ :=
    World.start_cases result
  · rfl
  · cases saved : programmed.saved with
    | none => simp only [World.afterList, saved]; rfl
    | some data => simp only [World.afterList, saved]; rfl

theorem restore_register {world restored : World} {ch : Channel}
    (result : world.restoreIfSaved ch = some restored) :
    restored.engine.inte = world.engine.inte := by
  rcases World.restore_cases result with ⟨-, rfl⟩ | ⟨-, buf, list, -, -, rfl⟩
  · rfl
  · rfl

/-- A wait leaves the register, or enables its channel, and disables it again unless the
driver refused to wait. -/
theorem wait_register {Time : Type} [Zero Time] [LT Time] [DecidableLT Time] {world : World}
    {ch : Channel} {timeout : Time} {env : Environment Time} {fuel : ℕ} {waited : Waited}
    (result : waitChannel world ch timeout env fuel = some waited) :
    waited.world.engine.inte = world.engine.inte ∨
      waited.world.engine.inte = (world.engine.enableInterrupt ch).inte ∨
      waited.world.engine.inte =
        ((world.engine.enableInterrupt ch).disableInterrupt ch).inte := by
  cases mode : world.engine.useInterrupts with
  | false =>
      rw [wait_polling_eq world ch timeout env mode] at result
      cases stop : firstStop (pollOnce env timeout) fuel 0 with
      | none => simp [stop] at result
      | some found =>
          rw [stop] at result
          exact Or.inl (restore_register (finish_ends world ch _ _ result).2.2)
  | true =>
      by_cases waiting : Waiting (getStatus (env.register 0))
      · cases refused : env.waitiFails with
        | some exception =>
            simp only [waitChannel, mode, if_true, if_pos waiting, refused,
              Option.some.injEq] at result
            subst result
            exact Or.inr (Or.inl rfl)
        | none =>
            simp only [waitChannel, mode, if_true, if_pos waiting, refused] at result
            cases stop : firstStop (takeInterrupt env) fuel 0 with
            | none => simp [stop] at result
            | some found =>
                simp only [stop, finish_interrupt_eq] at result
                exact Or.inr (Or.inr (restore_register (finish_ends _ ch _ _ result).2.2))
      · simp only [waitChannel, mode, if_true, if_neg waiting, finish_interrupt_eq] at result
        exact Or.inl (restore_register (finish_ends world ch _ _ result).2.2)

/-- What a call of the library can do to the register, in the order it does it. -/
def Call.registerActions {Time : Type} : Call Time → List RegisterAction
  | .transfer ch _ _ _ _ => [.prepare ch, .enableInterrupt ch, .disableInterrupt ch]
  | .waitChannel ch _ _ _ => [.enableInterrupt ch, .disableInterrupt ch]
  | .create _ _ _ | .getStatus _ | .destroy _ => []

section Calls

variable {Time : Type} [Zero Time] [LT Time] [DecidableLT Time]

theorem wait_actions {world : World} {ch : Channel} {timeout : Time} {env : Environment Time}
    {fuel : ℕ} {waited : Waited} (result : waitChannel world ch timeout env fuel = some waited)
    {board : Board} (same : board.engine.inte = world.engine.inte) :
    ∃ actions : List RegisterAction,
      actions.Sublist [.enableInterrupt ch, .disableInterrupt ch] ∧
        waited.world.engine.inte = (actions.foldl Board.after board).engine.inte := by
  rcases wait_register result with kept | enabled | disabled
  · exact ⟨[], List.nil_sublist _, kept.trans same.symm⟩
  · refine ⟨[.enableInterrupt ch], List.sublist_append_left _ [_], ?_⟩
    rw [enabled]
    simp only [List.foldl, Board.after, Board.engineAfter, DMAEngineWG.enableInterrupt, same]
  · refine ⟨[.enableInterrupt ch, .disableInterrupt ch], List.Sublist.refl _, ?_⟩
    rw [disabled]
    simp only [List.foldl, Board.after, Board.engineAfter, DMAEngineWG.enableInterrupt,
      DMAEngineWG.disableInterrupt, same]

/-- What a call of the library leaves in the register is what some of its actions on the
board leave there. -/
theorem call_register {world after : World} (call : Call Time) (step : world.call call = some after)
    {board : Board} (same : board.engine = world.engine) :
    ∃ actions : List RegisterAction, actions.Sublist call.registerActions ∧
      after.engine.inte = (actions.foldl Board.after board).engine.inte := by
  have register : board.engine.inte = world.engine.inte := congrArg DMAEngineWG.inte same
  cases call with
  | create b buf pas =>
      simp only [World.call, World.create] at step
      split at step
      · cases step
      · split at step
        · cases step
          exact ⟨[], List.nil_sublist _, register.symm⟩
        · cases step
  | transfer ch b request lock fuel =>
      rcases Option.map_eq_some_iff.mp step with ⟨waited, result, rfl⟩
      rcases transfer_cases result with ⟨_, _, refused | ⟨_, started, begins, rest⟩⟩
      · rw [refused]
        exact ⟨[], List.nil_sublist _, register.symm⟩
      · -- the board after the reset of the channel
        have prepared : (board.after (.prepare ch)).engine.inte = started.engine.inte := by
          rw [start_register begins, ← same]
          rfl
        rcases rest with same | ⟨timeout, env, waits⟩ | ⟨timeout, env, before, waits, synced⟩
        · rw [same]
          exact ⟨[.prepare ch], List.sublist_append_left _ [_, _], prepared.symm⟩
        · rcases wait_actions waits prepared with ⟨actions, among, left⟩
          exact ⟨.prepare ch :: actions, among.cons_cons _, left⟩
        · rcases wait_actions waits prepared with
            ⟨actions, among, left⟩
          rw [synced]
          exact ⟨.prepare ch :: actions, among.cons_cons _, left⟩
  | getStatus ch =>
      cases step
      exact ⟨[], List.nil_sublist _, register.symm⟩
  | waitChannel ch timeout env fuel =>
      rcases Option.map_eq_some_iff.mp step with ⟨waited, result, rfl⟩
      exact wait_actions result register
  | destroy b =>
      simp only [World.call, World.destroy] at step
      split at step
      · cases step
      · cases step
        exact ⟨[], List.nil_sublist _, register.symm⟩

end Calls

/-- In a run that disables and acknowledges no source beside an enabled one, every bit
stands for the last operation on its source. The next step keeps that, and keeps to the
bit of its own source, exactly if it does the same. -/
theorem enable_bits_independent {board : Board}
    (reached : boardSystem.ReachableUnder Alone board) :
    board.Faithful ∧ ∀ action, ((board.after action).Faithful ↔ Alone board action) ∧
      (Framed board action ↔ Alone board action) := by
  have faithful : board.Faithful := by
    apply System.invariant_under _ _ reached
    · intro start both source
      rcases both with ⟨none_, off⟩
      apply iff_of_false (off source)
      rw [Board.lastOperation, none_]
      exact nofun
    · intro before action after kept alone step
      cases step
      exact (faithful_after_iff kept).mpr alone
  exact ⟨faithful, fun action => ⟨faithful_after_iff faithful, framed_iff board action⟩⟩

/-- A board with the interrupts off and an engine that polls. -/
def quietBoard : Board where
  engine := DMAEngineWG.construct false (fun _ => DMADescriptorWG.unset.native) 0
  privdata := ⟨Driver.Irq.pcieabbVendorId, Driver.Irq.pcieabbDeviceId, 0, 0, fun _ => 0, 0, []⟩
  operations := []

theorem quiet_board_off (source : EnableSource) : ¬quietBoard.Enabled source := by
  have none_ : quietBoard.engine.inte &&& source.bit = 0#32 := BitVec.zero_and
  exact fun on => on none_

instance (board : Board) (source : EnableSource) : Decidable (board.Enabled source) :=
  inferInstanceAs (Decidable (_ ≠ _))

theorem alone_of_enabling {board : Board} {action : RegisterAction} {source : Driver.Irq.Source}
    (enables : board.operation action = some (source, true)) : Alone board action := by
  intro other asked
  rw [enables] at asked
  exact absurd (Prod.mk.inj (Option.some.inj asked)).2 Bool.noConfusion

/-- One channel is enabled and disabled again, then the generator and the other channel are
enabled. -/
theorem enable_bits_independent_two_sources : ∃ board : Board, board.Faithful ∧
    board.Enabled .generator ∧ board.Enabled (.channel 1) ∧ ¬board.Enabled (.channel 0) := by
  let one := quietBoard.after (.enableInterrupt 0)
  let off := one.after (.disableInterrupt 0)
  let generator := off.after .enableGenerator
  let both := generator.after (.enableInterrupt 1)
  have start : boardSystem.ReachableUnder Alone quietBoard := .start ⟨rfl, quiet_board_off⟩
  have first : boardSystem.ReachableUnder Alone one := start.next (alone_of_enabling rfl) rfl
  have alone : Alone one (.disableInterrupt 0) := by
    intro source asked other different
    rw [irq_source_injective (Prod.mk.inj (Option.some.inj asked)).1.symm] at different
    cases other with
    | generator => decide
    | channel ch =>
        match ch with
        | 0 => exact absurd rfl different
        | 1 => decide
  have second : boardSystem.ReachableUnder Alone off := first.next alone rfl
  have third : boardSystem.ReachableUnder Alone generator := second.next (alone_of_enabling rfl) rfl
  have last : boardSystem.ReachableUnder Alone both := third.next (alone_of_enabling rfl) rfl
  exact ⟨both, (enable_bits_independent last).1, by decide, by decide, by decide⟩

theorem disabling_one_clears_both : ∃ board, boardSystem.Reachable board ∧
    board.lastOperation (.channel 1) = some true ∧ ¬board.Enabled (.channel 1) := by
  let actions : List RegisterAction :=
    [.enableInterrupt 0, .enableInterrupt 1, .disableInterrupt 0]
  let board := ((quietBoard.after (.enableInterrupt 0)).after (.enableInterrupt 1)).after
    (.disableInterrupt 0)
  have start : boardSystem.Reachable quietBoard := .start ⟨rfl, quiet_board_off⟩
  have run : boardSystem.runFrom quietBoard actions = some board := rfl
  have cleared : ¬board.Enabled (.channel 1) :=
    @enabled_after_clear _ (.disableInterrupt 0) (disable_clears _ 0) _
  exact ⟨board, System.reachable_of_run actions start (fun _ _ _ => trivial) run, rfl, cleared⟩

end FpgaPcie.Mprace
