import FpgaPcie.Driver.InterruptAccount

/-!
# Clearing the interrupt queue

`PCIDRIVER_IOC_CLEAR_IOQ` overwrites a counter. A caller that has driven the counter below
zero adds its one back all the same, and where that comes behind the store an interrupt is
there that nobody raised. With no caller at that point a store only forgets interrupts.
-/

namespace FpgaPcie.Driver.Irq

open FpgaPcie.Transition FpgaPcie.WrapCounter

set_option autoImplicit false

structure Store where
  source : Source
  acknowledged : ℕ
  succeeded : ℕ
  /-- the calls made up to then, on all sources -/
  calls : ℕ
  deriving DecidableEq, Repr

namespace Device

def storeOf (device : Device) : Action → Option Store
  | .clearIoq arg =>
      if bound : arg.toNat < intMaxSources then
        some ⟨⟨arg.toNat, bound⟩, device.acknowledged ⟨arg.toNat, bound⟩,
          device.succeeded ⟨arg.toNat, bound⟩, device.calls.length⟩
      else none
  | _ => none

end Device

def observedSystem : System (Device × List Store) Action :=
  irqSystem.observing [] fun device action stores => (device.storeOf action).toList ++ stores

/-- No caller is about to take its decrement of a counter back that is cleared, and on no
counter are there more such callers than it can show. -/
def SettledClear (device : Device) (action : Action) : Prop :=
  (∀ store ∈ device.storeOf action, device.restoring store.source = 0) ∧
    ∀ source, device.restoring source < 2 ^ 31

instance (device : Device) (action : Action) : Decidable (SettledClear device action) :=
  instDecidableAnd

/-- Nothing succeeds without an interrupt: not in all, and not since a store. -/
structure InventsNothing (device : Device) (stores : List Store) : Prop where
  succeeded : ∀ source, device.succeeded source ≤ device.acknowledged source
  afterStore : ∀ store ∈ stores, ∀ (index : ℕ) (call : Call), store.calls ≤ index →
    device.calls[index]? = some call → call = ⟨store.source, .done⟩ →
      store.acknowledged < device.acknowledged store.source

namespace Store

/-- By how much the successes exceeded the interrupts; never more than zero. -/
def excess (store : Store) : ℤ := store.succeeded - store.acknowledged

def base (stores : List Store) (source : Source) : ℤ :=
  ((stores.find? fun store => store.source = source).map excess).getD 0

end Store

theorem balance_stored (device : Device) (cleared source : Source) (value : U32) :
    (device.setOutstanding cleared value).balance source = device.balance source := rfl

theorem base_nil (source : Source) : Store.base [] source = 0 := rfl

theorem base_cons (store : Store) (stores : List Store) (source : Source) :
    Store.base (store :: stores) source =
      if store.source = source then store.excess else Store.base stores source := by
  by_cases here : store.source = source <;> simp [Store.base, here]

structure Remembered (device : Device) (store : Store) : Prop where
  calls : store.calls ≤ device.calls.length
  succeeded : store.succeeded ≤ (device.calls.take store.calls).count ⟨store.source, .done⟩

structure ClearAccount (device : Device) (stores : List Store) : Prop where
  accounted : AccountedFrom (Store.base stores) device
  atMost : AtMost (Store.base stores) device
  falls : ∀ store ∈ stores, Store.base stores store.source ≤ store.excess
  nonpositive : ∀ source, Store.base stores source ≤ 0
  remembered : ∀ store ∈ stores, Remembered device store

section Steps

variable {device after : Device} {action : Action} {stores : List Store} {store : Store}

theorem Remembered.step (remembered : Remembered device store) (kept : NotCleared device action)
    (step : device.step action = some after) : Remembered after store := by
  obtain ⟨known, counted⟩ := remembered
  rcases step_cases kept step with ⟨-, calls⟩ | ⟨calls, -⟩ | ⟨-, other, calls⟩ |
    ⟨index, call, outstanding, phase, wake, current, proceeds, rfl⟩
  · exact ⟨by rwa [calls], by rwa [calls]⟩
  · exact ⟨by rwa [calls], by rwa [calls]⟩
  · constructor
    · rw [calls, List.length_append]
      exact Nat.le_add_right_of_le known
    · rw [calls, List.take_append_of_le_length known]
      exact counted
  · constructor
    · simpa [Device.moved] using known
    · simp only [Device.moved, List.take_set]
      by_cases inside : index < store.calls
      · have current_ : (device.calls.take store.calls)[index]? = some call := by
          rw [List.getElem?_take_of_lt inside, current]
        have moved := count_moved current_ { call with phase := phase } ⟨store.source, .done⟩
        have notDone : call ≠ ⟨store.source, .done⟩ := by
          intro same
          subst same
          cases proceeds
        rw [if_neg notDone] at moved
        split at moved <;> omega
      · rw [List.set_eq_of_length_le (by rw [List.length_take]; omega)]
        exact counted

theorem not_cleared_of_none (none_ : device.storeOf action = none)
    (step : device.step action = some after) : NotCleared device action ∨ after = device := by
  cases action with
  | clearIoq arg =>
      right
      simp only [Device.storeOf, dite_eq_right_iff, reduceCtorEq, imp_false] at none_
      simp only [Device.step, dif_neg none_, Option.some.injEq] at step
      exact step.symm
  | _ =>
      left
      intro arg same
      cases same

theorem store_step (stored : device.storeOf action = some store)
    (step : device.step action = some after) :
    after = device.setOutstanding store.source 0#32 ∧
      store.acknowledged = device.acknowledged store.source ∧
      store.succeeded = device.succeeded store.source ∧ store.calls = device.calls.length := by
  cases action with
  | clearIoq arg =>
      simp only [Device.storeOf, Option.dite_none_right_eq_some, Option.some.injEq] at stored
      obtain ⟨bound, rfl⟩ := stored
      simp only [Device.step, dif_pos bound, Option.some.injEq] at step
      exact ⟨step.symm, rfl, rfl, rfl⟩
  | _ => cases stored

/-- The store starts the counter anew, lower than before or as low. -/
theorem ClearAccount.stored (account : ClearAccount device stores)
    (stored : device.storeOf action = some store) (settled : device.restoring store.source = 0)
    (step : device.step action = some after) : ClearAccount after (store :: stores) := by
  obtain ⟨rfl, acknowledged, succeeded, calls⟩ := store_step stored step
  have excess : store.excess =
      device.succeeded store.source - device.acknowledged store.source := by
    rw [Store.excess, acknowledged, succeeded]
  have lower : store.excess ≤ Store.base stores store.source := by
    rw [excess]
    exact account.atMost store.source
  constructor
  · intro source
    have before := account.accounted source
    rw [base_cons]
    by_cases here : store.source = source
    · subst here
      rw [if_pos rfl, excess]
      have zero : device.balance store.source +
          ((device.succeeded store.source : ℤ) - device.acknowledged store.source) = 0 := by
        rw [Device.balance, settled]
        omega
      rw [balance_stored, zero]
      simp [Device.setOutstanding, Follows]
    · rw [if_neg here, balance_stored]
      simpa [Device.setOutstanding, Function.update_of_ne (Ne.symm here)] using before
  · intro source
    rw [base_cons]
    split
    · rename_i here
      subst here
      rw [excess]
      exact le_rfl
    · exact account.atMost source
  · intro old member
    rw [base_cons]
    rcases List.mem_cons.mp member with rfl | earlier
    · rw [if_pos rfl]
    · have falls := account.falls old earlier
      split
      · rename_i here
        rw [here] at lower
        exact lower.trans falls
      · exact falls
  · intro source
    rw [base_cons]
    split
    · exact lower.trans (account.nonpositive _)
    · exact account.nonpositive source
  · intro old member
    rcases List.mem_cons.mp member with rfl | earlier
    · constructor
      · exact le_of_eq calls
      · rw [calls, succeeded]
        exact le_of_eq (by simp [Device.succeeded, Device.setOutstanding])
    · exact ⟨(account.remembered old earlier).calls, (account.remembered old earlier).succeeded⟩

theorem ClearAccount.moved (account : ClearAccount device stores) (kept : NotCleared device action)
    (few : ∀ source, device.restoring source < 2 ^ 31) (step : device.step action = some after) :
    ClearAccount after stores where
  accounted := accounted_from_step account.accounted kept step
  atMost := at_most_step account.accounted account.atMost ⟨kept, few⟩ step
  falls := account.falls
  nonpositive := account.nonpositive
  remembered := fun store member => (account.remembered store member).step kept step

theorem ClearAccount.step (account : ClearAccount device stores)
    (settled : SettledClear device action) (step : device.step action = some after) :
    ClearAccount after ((device.storeOf action).toList ++ stores) := by
  cases stored : device.storeOf action with
  | none =>
      rcases not_cleared_of_none stored step with kept | rfl
      · exact account.moved kept settled.2 step
      · exact account
  | some store =>
      have none_ := settled.1 store stored
      exact account.stored stored none_ step

theorem ClearAccount.invents_nothing (account : ClearAccount device stores) :
    InventsNothing device stores := by
  constructor
  · intro source
    have bounded := account.atMost source
    have base := account.nonpositive source
    omega
  · intro store member index call later current done
    have bounded := account.atMost store.source
    have falls := account.falls store member
    have before := (account.remembered store member).succeeded
    -- the call itself is one success more than there were at the store
    have own : 0 < (device.calls.drop store.calls).count ⟨store.source, .done⟩ := by
      rw [List.count_pos_iff, List.mem_iff_getElem?]
      refine ⟨index - store.calls, ?_⟩
      rw [List.getElem?_drop, Nat.add_sub_cancel' later, current, done]
    have all : device.succeeded store.source =
        (device.calls.take store.calls).count ⟨store.source, .done⟩ +
          (device.calls.drop store.calls).count ⟨store.source, .done⟩ := by
      rw [Device.succeeded, ← List.count_append, List.take_append_drop]
    rw [Store.excess] at falls
    omega

end Steps

theorem initial_clear_account {device : Device} (initial : irqSystem.initial device) :
    ClearAccount device [] := by
  obtain ⟨accounted, once⟩ := initial_accounted initial
  constructor
  · exact accounted_from_zero.mpr accounted
  · exact at_most_zero.mpr once
  · intro store member
    cases member
  · intro source
    exact le_of_eq (base_nil source)
  · intro store member
    cases member

theorem reached_clear_account {pair : Device × List Store}
    (reached : observedSystem.ReachableUnder (fun pair => SettledClear pair.1) pair) :
    ClearAccount pair.1 pair.2 := by
  apply System.invariant_under _ _ reached
  · intro pair begins
    rcases pair with ⟨device, stores⟩
    rcases begins with ⟨initial, rfl⟩
    exact initial_clear_account initial
  · intro pair action after account settled step
    obtain ⟨device, stepped, rfl⟩ := Option.map_eq_some_iff.mp step
    exact account.step settled stepped

/-- Where every store finds its counter settled, clearing only forgets. -/
theorem clearing_invents_nothing (device : Device) :
    (irqSystem.ReachableUnder SettledClear device → ∀ source,
      device.succeeded source ≤ device.acknowledged source) ∧
    ∀ stores, observedSystem.ReachableUnder (fun pair => SettledClear pair.1) (device, stores) →
      InventsNothing device stores := by
  constructor
  · intro reached
    obtain ⟨stores, observed⟩ := System.observing_extends []
      (fun device action stores => (device.storeOf action).toList ++ stores) reached
    exact (reached_clear_account observed).invents_nothing.succeeded
  · intro stores reached
    exact (reached_clear_account reached).invents_nothing

def settledRun : List Action :=
  [.interrupt fun _ => abbIntCh0, .waitInterrupt 0, .clearIoq 0, .interrupt fun _ => abbIntCh0,
    .proceed 0 .condition, .proceed 0 .condition]

theorem clearing_invents_nothing_one_wait : ∃ device,
    irqSystem.runFrom probedDevice settledRun = some device ∧
    device.calls = [⟨abbIrqCh0, .done⟩] ∧ device.acknowledged abbIrqCh0 = 2 ∧
    ∀ source, device.succeeded source ≤ device.acknowledged source := by
  have probed : irqSystem.ReachableUnder SettledClear probedDevice := .start ⟨fun _ => rfl, rfl, rfl⟩
  refine ⟨deviceAfter probedDevice settledRun, by rfl, by decide, by decide, ?_⟩
  apply (clearing_invents_nothing _).1
  exact System.reachable_of_guarded_run settledRun probed (by rfl)

/-- The first caller's decrement is still out when the counter is cleared; the second calls
after that. -/
def racingRun : List Action :=
  [.waitInterrupt 0, .proceed 0 .timeout, .proceed 0 .timeout, .clearIoq 0, .proceed 0 .timeout,
    .waitInterrupt 0, .proceed 1 .condition, .proceed 1 .condition]

theorem racing_clear_invents_interrupt : ∃ device stores,
    observedSystem.Reachable (device, stores) ∧ stores = [⟨abbIrqCh0, 0, 0, 1⟩] ∧
    device.calls = [⟨abbIrqCh0, .waiting⟩, ⟨abbIrqCh0, .done⟩] ∧
    device.privdata.acknowledged = [] ∧ ¬InventsNothing device stores := by
  have probed : observedSystem.Reachable (probedDevice, []) := .start ⟨⟨fun _ => rfl, rfl, rfl⟩, rfl⟩
  refine ⟨deviceAfter probedDevice racingRun, [⟨abbIrqCh0, 0, 0, 1⟩], ?_, rfl, by decide, by decide,
    ?_⟩
  · exact System.reachable_of_run racingRun probed (fun _ _ _ => trivial) rfl
  · intro nothing
    exact absurd (nothing.succeeded abbIrqCh0) (by decide)

end FpgaPcie.Driver.Irq
