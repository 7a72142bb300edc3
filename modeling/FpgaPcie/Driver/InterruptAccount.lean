import FpgaPcie.Driver.Interrupt
import FpgaPcie.Lib.WrapCounter
import Mathlib.Tactic.Common

/-!
# Where every interrupt went

The counter of a source stands for the interrupts that were acknowledged and that no
call has taken, less the decrements still to be taken back. It is a 32-bit counter
that runs through zero from both sides, so it is followed modulo its range, and read
as a number while the number fits.
-/

namespace FpgaPcie.Driver.Irq

open FpgaPcie.Transition FpgaPcie.WrapCounter

set_option autoImplicit false

namespace Device

def acknowledged (device : Device) (source : Source) : ℕ :=
  device.privdata.acknowledged.count source

def succeeded (device : Device) (source : Source) : ℕ := device.calls.count ⟨source, .done⟩

/-- Calls between their failed decrement and the increment back. -/
def restoring (device : Device) (source : Source) : ℕ := device.calls.count ⟨source, .restoring⟩

def balance (device : Device) (source : Source) : ℤ :=
  device.acknowledged source - device.succeeded source - device.restoring source

end Device

/-- The step is not `PCIDRIVER_IOC_CLEAR_IOQ`. -/
def NotCleared (_ : Device) (action : Action) : Prop := ∀ arg, action ≠ .clearIoq arg

/-- Besides, the callers that take a decrement back are fewer than the counter can
show. -/
def FewRestoring (device : Device) (action : Action) : Prop :=
  NotCleared device action ∧ ∀ source, device.restoring source < 2 ^ 31

/-- Acknowledging disables all interrupts of the board, not the one source. -/
theorem acknowledged_disables {privdata after : Privdata} {interrupt : U32} {channel : Source}
    {intStat : U32} (raised : interrupt ≠ 0#32)
    (acknowledges : privdata.checkAcknowlegdeChannel interrupt channel intStat = some after) :
    after.intEnable = 0#32 := by
  simp only [Privdata.checkAcknowlegdeChannel, Option.ite_none_left_eq_some,
    Option.some.injEq] at acknowledges
  obtain ⟨-, rfl⟩ := acknowledges
  simp only [Privdata.logicalNot, if_neg raised]
  exact BitVec.and_zero

/-- What acknowledging one interrupt of `channel` does to the counters. -/
structure Counted (privdata after : Privdata) (channel : Source) : Prop where
  outstanding : after.irqOutstanding = Function.update privdata.irqOutstanding channel
    (privdata.irqOutstanding channel + 1#32)
  record : after.acknowledged = channel :: privdata.acknowledged

theorem check_counts {privdata after : Privdata} {interrupt : U32} {channel : Source}
    {intStat : U32}
    (acknowledges : privdata.checkAcknowlegdeChannel interrupt channel intStat = some after) :
    Counted privdata after channel := by
  simp only [Privdata.checkAcknowlegdeChannel, Option.ite_none_left_eq_some,
    Option.some.injEq] at acknowledges
  obtain ⟨-, rfl⟩ := acknowledges
  exact ⟨rfl, rfl⟩

theorem acknowledge_counts {privdata after : Privdata} {intStat : Fin 5 → U32}
    (acknowledges : privdata.irqAcknowledge intStat = some after) :
    ∃ channel, Counted privdata after channel := by
  simp only [Privdata.irqAcknowledge, Option.ite_none_left_eq_some, Option.orElse_eq_orElse,
    Option.orElse_eq_or, Option.or_eq_some_iff] at acknowledges
  rcases acknowledges with ⟨-, ch0 | ⟨-, ch1 | ⟨-, ig | ⟨-, ch0Timeout | ⟨-, ch1Timeout⟩⟩⟩⟩⟩
  · exact ⟨_, check_counts ch0⟩
  · exact ⟨_, check_counts ch1⟩
  · exact ⟨_, check_counts ig⟩
  · exact ⟨_, check_counts ch0Timeout⟩
  · exact ⟨_, check_counts ch1Timeout⟩

theorem handler_counts (privdata : Privdata) (intStat : Fin 5 → U32) :
    (privdata.irqHandler intStat).1 = privdata ∨
      ∃ channel, Counted privdata (privdata.irqHandler intStat).1 channel := by
  cases acknowledges : privdata.irqAcknowledge intStat with
  | none => exact Or.inl (by rw [Privdata.irqHandler, acknowledges])
  | some after =>
      obtain ⟨channel, counted⟩ := acknowledge_counts acknowledges
      exact Or.inr ⟨channel, by
        rw [Privdata.irqHandler, acknowledges]
        exact ⟨counted.outstanding, counted.record⟩⟩

theorem count_moved {calls : List Call} {index : ℕ} {call : Call} (current : calls[index]? = some call)
    (next counted : Call) :
    ((calls.set index next).count counted : ℤ) =
      calls.count counted - (if call = counted then 1 else 0) + if next = counted then 1 else 0 := by
  obtain ⟨bound, here⟩ := List.getElem?_eq_some_iff.mp current
  rw [List.count_set bound, here]
  simp only [beq_iff_eq]
  have present : (if call = counted then 1 else 0) ≤ calls.count counted := by
    split
    · rename_i same
      exact List.count_pos_iff.mpr (same ▸ here ▸ List.getElem_mem bound)
    · exact Nat.zero_le _
  split <;> split <;> simp_all

def Phase.taken : Phase → ℤ
  | .restoring | .done => 1
  | .waiting | .trying => 0

theorem proceed_follows {outstanding after : U32} {value : ℤ} {wake : Wake} {phase next : Phase}
    (follows : Follows outstanding value)
    (proceeds : phase.proceed outstanding wake = some (after, next)) :
    Follows after (value + phase.taken - next.taken) := by
  cases phase with
  | waiting =>
      simp only [Phase.proceed, Option.ite_none_left_eq_some, Option.some.injEq,
        Prod.mk.injEq] at proceeds
      obtain ⟨-, rfl, rfl⟩ := proceeds
      simpa [Phase.taken] using follows
  | trying =>
      simp only [Phase.proceed, Option.some.injEq, Prod.mk.injEq] at proceeds
      obtain ⟨rfl, rfl⟩ := proceeds
      have taken : (if (outstanding - 1#32).toInt < 0 then Phase.restoring else .done).taken = 1 := by
        split <;> rfl
      rw [taken]
      simpa [Phase.taken] using follows.decrement
  | restoring =>
      simp only [Phase.proceed, Option.some.injEq, Prod.mk.injEq] at proceeds
      obtain ⟨rfl, rfl⟩ := proceeds
      simpa [Phase.taken] using follows.increment
  | done => cases proceeds

/-- A call leaves the loop through a decrement that does not show as negative. -/
theorem proceed_done {outstanding after : U32} {wake : Wake} {phase : Phase}
    (proceeds : phase.proceed outstanding wake = some (after, .done)) :
    phase = .trying ∧ 0 ≤ (outstanding - 1#32).toInt := by
  cases phase with
  | waiting => simp [Phase.proceed] at proceeds
  | trying =>
      simp only [Phase.proceed, Option.some.injEq, Prod.mk.injEq, ite_eq_right_iff,
        reduceCtorEq, imp_false, not_lt] at proceeds
      exact ⟨rfl, proceeds.2⟩
  | restoring => simp [Phase.proceed] at proceeds
  | done => cases proceeds

section Moves

variable {device : Device} {index : ℕ} {call : Call} {outstanding : U32} {phase : Phase}

theorem balance_moved (current : device.calls[index]? = some call) (source : Source) :
    (device.moved index call outstanding phase).balance source = device.balance source +
      if call.irqSource = source then call.phase.taken - phase.taken else 0 := by
  obtain ⟨own, before⟩ := call
  simp only [Device.balance, Device.acknowledged, Device.succeeded, Device.restoring, Device.moved,
    Device.setOutstanding, count_moved current, Call.mk.injEq]
  by_cases here : own = source
  · cases before <;> cases phase <;> simp [here, Phase.taken] <;> omega
  · simp [here]

theorem outstanding_moved (source : Source) :
    (device.moved index call outstanding phase).privdata.irqOutstanding source =
      if call.irqSource = source then outstanding else device.privdata.irqOutstanding source := by
  simp only [Device.moved, Device.setOutstanding, Function.update_apply, eq_comm]

theorem succeeded_moved (current : device.calls[index]? = some call) (source : Source) :
    ((device.moved index call outstanding phase).succeeded source : ℤ) = device.succeeded source -
      (if call = ⟨source, .done⟩ then 1 else 0) +
        if (⟨call.irqSource, phase⟩ : Call) = ⟨source, .done⟩ then 1 else 0 :=
  count_moved current _ _

end Moves

def Accounted (device : Device) : Prop :=
  ∀ source, Follows (device.privdata.irqOutstanding source) (device.balance source)

def NoneTwice (device : Device) : Prop :=
  ∀ source, device.succeeded source ≤ device.acknowledged source

/-- The same for counters that did not start from what was acknowledged. -/
def AccountedFrom (base : Source → ℤ) (device : Device) : Prop :=
  ∀ source, Follows (device.privdata.irqOutstanding source) (device.balance source + base source)

def AtMost (base : Source → ℤ) (device : Device) : Prop :=
  ∀ source, (device.succeeded source : ℤ) - device.acknowledged source ≤ base source

section Zero

variable {device : Device}

theorem accounted_from_zero : AccountedFrom (fun _ => 0) device ↔ Accounted device := by
  simp only [AccountedFrom, Accounted, Int.add_zero]

theorem at_most_zero : AtMost (fun _ => 0) device ↔ NoneTwice device := by
  apply forall_congr'
  intro source
  simp only
  omega

end Zero

section Steps

variable {device after : Device} {action : Action}

/-- What a step other than clearing does: nothing to calls and counters, an
acknowledgement, a new call, or a call moving on. -/
theorem step_cases (kept : NotCleared device action) (step : device.step action = some after) :
    (after.privdata = device.privdata ∧ after.calls = device.calls) ∨
    (after.calls = device.calls ∧ ∃ channel, Counted device.privdata after.privdata channel) ∨
    (after.privdata = device.privdata ∧
      ∃ source, after.calls = device.calls ++ [⟨source, .waiting⟩]) ∨
    ∃ index call outstanding phase wake, device.calls[index]? = some call ∧
      call.phase.proceed (device.privdata.irqOutstanding call.irqSource) wake =
        some (outstanding, phase) ∧
      after = device.moved index call outstanding phase := by
  cases action with
  | interrupt intStat =>
      cases step
      rcases handler_counts device.privdata intStat with same | counted
      · exact Or.inl ⟨same, rfl⟩
      · exact Or.inr (Or.inl ⟨rfl, counted⟩)
  | waitInterrupt arg =>
      simp only [Device.step] at step
      split at step
      · cases step
        exact Or.inr (Or.inr (Or.inl ⟨rfl, _, rfl⟩))
      · cases step
        exact Or.inl ⟨rfl, rfl⟩
  | clearIoq arg => exact absurd rfl (kept arg)
  | proceed index wake =>
      simp only [Device.step] at step
      cases current : device.calls[index]? with
      | none => simp [current] at step
      | some call =>
          simp only [current] at step
          obtain ⟨⟨outstanding, phase⟩, proceeds, rfl⟩ := Option.map_eq_some_iff.mp step
          exact Or.inr (Or.inr (Or.inr
            ⟨index, call, outstanding, phase, wake, current, proceeds, rfl⟩))

theorem accounted_from_step {base : Source → ℤ} (accounted : AccountedFrom base device)
    (kept : NotCleared device action) (step : device.step action = some after) :
    AccountedFrom base after := by
  intro source
  have before := accounted source
  rcases step_cases kept step with ⟨privdata, calls⟩ | ⟨calls, channel, counted⟩ |
    ⟨privdata, other, calls⟩ | ⟨index, call, outstanding, phase, wake, current, proceeds, rfl⟩
  · simpa only [Device.balance, Device.acknowledged, Device.succeeded, Device.restoring, privdata,
      calls] using before
  · rw [counted.outstanding, Function.update_apply]
    simp only [Device.balance, Device.acknowledged, Device.succeeded, Device.restoring,
      counted.record, calls, List.count_cons] at before ⊢
    by_cases here : channel = source
    · subst here
      simp only [if_true, beq_self_eq_true, Nat.cast_add, Nat.cast_one]
      have raised := before.increment
      convert raised using 1
      omega
    · simpa [here, Ne.symm here] using before
  · simpa [Device.balance, Device.acknowledged, Device.succeeded, Device.restoring, privdata,
      calls] using before
  · rw [outstanding_moved, balance_moved current]
    by_cases here : call.irqSource = source
    · subst here
      simp only [if_true]
      have follows := proceed_follows before proceeds
      have sum : device.balance call.irqSource + (call.phase.taken - phase.taken) +
          base call.irqSource = device.balance call.irqSource + base call.irqSource +
            call.phase.taken - phase.taken := by omega
      rwa [sum]
    · simpa [here] using before

theorem accounted_step (accounted : Accounted device) (kept : NotCleared device action)
    (step : device.step action = some after) : Accounted after :=
  accounted_from_zero.mp (accounted_from_step (accounted_from_zero.mpr accounted) kept step)

/-- A call that takes an interrupt that was not there would see a negative counter. -/
theorem at_most_step {base : Source → ℤ} (accounted : AccountedFrom base device)
    (bounded : AtMost base device) (few : FewRestoring device action)
    (step : device.step action = some after) : AtMost base after := by
  intro source
  have before := bounded source
  rcases step_cases few.1 step with ⟨privdata, calls⟩ | ⟨calls, channel, counted⟩ |
    ⟨privdata, other, calls⟩ | ⟨index, call, outstanding, phase, wake, current, proceeds, rfl⟩
  · simpa only [Device.acknowledged, Device.succeeded, privdata, calls] using before
  · simp only [Device.acknowledged, Device.succeeded, counted.record, calls, List.count_cons]
      at before ⊢
    omega
  · simpa [Device.acknowledged, Device.succeeded, privdata, calls] using before
  · have moved := @succeeded_moved device index call outstanding phase current source
    have same : (device.moved index call outstanding phase).acknowledged source =
        device.acknowledged source := rfl
    by_cases leaves : (⟨call.irqSource, phase⟩ : Call) = ⟨source, .done⟩
    · simp only [Call.mk.injEq] at leaves
      obtain ⟨rfl, rfl⟩ := leaves
      obtain ⟨trying, shown⟩ := proceed_done proceeds
      have notDone : call ≠ ⟨call.irqSource, .done⟩ := by
        intro equal
        rw [equal] at trying
        cases trying
      have restoring := few.2 call.irqSource
      by_contra more
      have decremented := (accounted call.irqSource).decrement
      rw [decremented.shows (by decide) (by simp [Device.balance]; omega)
        (by simp [Device.balance]; omega)] at shown
      simp only [Device.balance] at shown
      omega
    · rw [if_neg leaves] at moved
      have fewer : ((device.moved index call outstanding phase).succeeded source : ℤ) ≤
          device.succeeded source := by
        rw [moved]
        split <;> omega
      omega

theorem none_twice_step (accounted : Accounted device) (once : NoneTwice device)
    (few : FewRestoring device action) (step : device.step action = some after) :
    NoneTwice after :=
  at_most_zero.mp
    (at_most_step (accounted_from_zero.mpr accounted) (at_most_zero.mpr once) few step)

end Steps

section Runs

variable {device : Device}

theorem initial_accounted (initial : irqSystem.initial device) :
    Accounted device ∧ NoneTwice device := by
  obtain ⟨zero, nothing, none_⟩ := initial
  refine ⟨fun source => ?_, fun source => ?_⟩
  · rw [zero, Device.balance, Device.acknowledged, Device.succeeded, Device.restoring, nothing, none_]
    rfl
  · rw [Device.acknowledged, Device.succeeded, nothing, none_]
    exact le_rfl

theorem reached_accounted (reached : irqSystem.ReachableUnder NotCleared device) :
    Accounted device :=
  System.invariant_under (fun _ initial => (initial_accounted initial).1)
    (fun _ _ _ accounted kept step => accounted_step accounted kept step) reached

theorem reached_none_twice (reached : irqSystem.ReachableUnder FewRestoring device) :
    NoneTwice device := by
  have both : Accounted device ∧ NoneTwice device :=
    System.invariant_under (fun _ => initial_accounted)
      (fun _ _ _ holds few step =>
        ⟨accounted_step holds.1 few.1 step, none_twice_step holds.1 holds.2 few step⟩) reached
  exact both.2

end Runs

theorem interrupts_accounted (device : Device) (source : Source) :
    (irqSystem.ReachableUnder NotCleared device →
      device.privdata.irqOutstanding source = BitVec.ofInt 32 (device.balance source) ∧
      (-2 ^ 31 ≤ device.balance source → device.balance source < 2 ^ 31 →
        (device.privdata.irqOutstanding source).toInt = device.balance source)) ∧
    (irqSystem.ReachableUnder FewRestoring device →
      device.succeeded source ≤ device.acknowledged source ∧
      (device.restoring source = 0 →
        device.acknowledged source - device.succeeded source < 2 ^ 31 →
        (device.privdata.irqOutstanding source).toInt =
          (device.acknowledged source - device.succeeded source : ℕ))) := by
  constructor
  · intro reached
    have follows := reached_accounted reached source
    exact ⟨follows, fun lower upper => follows.shows (by decide) lower upper⟩
  · intro reached
    have once := reached_none_twice reached source
    have follows := reached_accounted (reached.mono fun _ _ few => few.1) source
    refine ⟨once, fun settled fits => ?_⟩
    have value : device.balance source =
        (device.acknowledged source - device.succeeded source : ℕ) := by
      rw [Device.balance, settled, Nat.cast_sub once]
      omega
    rw [value] at follows
    exact follows.shows (by decide) (by omega) (by omega)

def probedDevice : Device where
  privdata := ⟨pcieabbVendorId, pcieabbDeviceId, 0, 0, fun _ => 0#32, 0#32, []⟩
  calls := []

theorem few_of_calls {device : Device} {action : Action} (kept : NotCleared device action)
    (few : device.calls.length < 2 ^ 31) : FewRestoring device action :=
  ⟨kept, fun _ => lt_of_le_of_lt List.count_le_length few⟩

def deviceAfter (device : Device) (actions : List Action) : Device :=
  (irqSystem.runFrom device actions).getD device

def oneWait : List Action :=
  [.interrupt fun _ => abbIntCh0, .waitInterrupt 0, .proceed 0 .condition, .proceed 0 .condition]

theorem interrupts_accounted_one_wait :
    (deviceAfter probedDevice oneWait).succeeded abbIrqCh0 = 1 ∧
    ((deviceAfter probedDevice oneWait).privdata.irqOutstanding abbIrqCh0).toInt =
      (((deviceAfter probedDevice oneWait).acknowledged abbIrqCh0 -
        (deviceAfter probedDevice oneWait).succeeded abbIrqCh0 : ℕ) : ℤ) := by
  have probed : irqSystem.ReachableUnder FewRestoring probedDevice := .start ⟨fun _ => rfl, rfl, rfl⟩
  have raised := @System.ReachableUnder.next _ _ _ _ _ (deviceAfter probedDevice (oneWait.take 1))
    (.interrupt fun _ => abbIntCh0) probed (few_of_calls (fun _ => nofun) (by decide)) rfl
  have called := @System.ReachableUnder.next _ _ _ _ _ (deviceAfter probedDevice (oneWait.take 2))
    (.waitInterrupt 0) raised (few_of_calls (fun _ => nofun) (by decide)) rfl
  have woken := @System.ReachableUnder.next _ _ _ _ _ (deviceAfter probedDevice (oneWait.take 3))
    (.proceed 0 .condition) called (few_of_calls (fun _ => nofun) (by decide)) rfl
  have taken := @System.ReachableUnder.next _ _ _ _ _ (deviceAfter probedDevice oneWait)
    (.proceed 0 .condition) woken (few_of_calls (fun _ => nofun) (by decide)) rfl
  exact ⟨by decide, ((interrupts_accounted _ abbIrqCh0).2 taken).2 (by decide) (by decide)⟩

theorem unawaited_interrupts (count : ℕ) : ∃ device, irqSystem.ReachableUnder NotCleared device ∧
    device.privdata.vendor = pcieabbVendorId ∧ device.privdata.device = pcieabbDeviceId ∧
    device.calls = [] ∧ device.privdata.acknowledged = List.replicate count abbIrqCh0 := by
  induction count with
  | zero => exact ⟨probedDevice, .start ⟨fun _ => rfl, rfl, rfl⟩, rfl, rfl, rfl, rfl⟩
  | succ count ih =>
      obtain ⟨device, reached, vendor, id, calls, record⟩ := ih
      obtain ⟨after, acknowledges⟩ : ∃ after,
          device.privdata.checkAcknowlegdeChannel abbIntCh0 abbIrqCh0 abbIntCh0 = some after :=
        ⟨_, rfl⟩
      have handled : device.privdata.irqHandler (fun _ => abbIntCh0) =
          ({ after with irqCount := after.irqCount + 1#32 }, true) := by
        rw [Privdata.irqHandler, Privdata.irqAcknowledge, if_neg (by simp [vendor, id]), acknowledges]
        rfl
      cases acknowledges
      have next := @System.ReachableUnder.next _ _ _ _ _ _ (.interrupt fun _ => abbIntCh0) reached
        (fun _ => nofun) rfl
      refine ⟨_, next, ?_⟩
      rw [handled]
      exact ⟨vendor, id, calls, by simp [record, List.replicate_succ]⟩

/-- With 2^31 interrupts that nobody has waited for the counter shows -2^31. -/
theorem counter_wraps : ∃ device, irqSystem.ReachableUnder NotCleared device ∧
    device.calls = [] ∧ device.acknowledged abbIrqCh0 = 2 ^ 31 ∧
    (device.privdata.irqOutstanding abbIrqCh0).toInt = -2 ^ 31 ∧
    (device.privdata.irqOutstanding abbIrqCh0).toInt ≠ device.balance abbIrqCh0 := by
  obtain ⟨device, reached, -, -, calls, record⟩ := unawaited_interrupts (2 ^ 31)
  have acknowledged : device.acknowledged abbIrqCh0 = 2 ^ 31 := by
    rw [Device.acknowledged, record, List.count_replicate_self]
  have value : device.balance abbIrqCh0 = 2 ^ 31 := by
    rw [Device.balance, acknowledged, Device.succeeded, Device.restoring, calls]
    rfl
  have shown : (device.privdata.irqOutstanding abbIrqCh0).toInt = -2 ^ 31 := by
    rw [reached_accounted reached abbIrqCh0, value]
    decide
  refine ⟨device, reached, calls, acknowledged, shown, ?_⟩
  rw [shown, value]
  decide

end FpgaPcie.Driver.Irq
