import FpgaPcie.Mprace.ProgramList
import FpgaPcie.Mprace.WaitChannel

/-!
# What the end of a wait says about the transfer

Every exit of `waitChannel` is reached at an instant that only the environment
decides, so a wait either ends one way for all sufficient fuel or never. From
that it is read off when a normal return can be trusted: a `TIMEOUT` status and
an interrupt that announces anything but success both return normally, and an
`ERROR` status is polled for ever unless a software timeout was given.
-/

namespace FpgaPcie.Mprace

open FpgaPcie.Polling

set_option autoImplicit false

/-- The record of a channel, if there is one, names a live buffer and descriptors of
its list. -/
def Restorable (world : World) (ch : Channel) : Prop :=
  world.engine.saved ch = true → ∃ buf, world.bufs (world.engine.savedData ch).savedBuf = some buf ∧
    (world.engine.savedData ch).savedInitDescriptor < buf.descriptors.length ∧
    (world.engine.savedData ch).savedLastDescriptor < buf.descriptors.length

theorem restore_list_some (data : SavedData) (list : List DMADescriptorWG)
    (init : data.savedInitDescriptor < list.length)
    (last : data.savedLastDescriptor < list.length) :
    ∃ restored, restoreList data list = some restored := by
  simp [restoreList, List.getElem?_eq_getElem init, List.getElem?_eq_getElem last]

theorem restore_if_saved_some (world : World) (ch : Channel) (restorable : Restorable world ch) :
    ∃ restored, world.restoreIfSaved ch = some restored := by
  unfold World.restoreIfSaved
  by_cases saved : world.engine.saved ch = true
  · obtain ⟨buf, live, init, last⟩ := restorable saved
    obtain ⟨list, restored⟩ := restore_list_some _ buf.descriptors init last
    simp [saved, World.restoreSavedData, live, restored]
  · exact ⟨world, by simp [saved]⟩

structure Ends (run : ℕ → Option Waited) (thrown : Option Exception) (instant : ℕ) : Prop where
  some_fuel : ∃ fuel waited, run fuel = some waited
  always : ∀ fuel waited, run fuel = some waited →
    waited.thrown = thrown ∧ waited.instant = instant

section Waiting

variable {Time : Type}

def Settles (env : Environment Time) (status : DMAStatus) : Prop :=
  ∃ start, ∀ instant, start ≤ instant → getStatus (env.register instant) = status

def SettlesBad (env : Environment Time) : Prop := Settles env .timeout ∨ Settles env .error

/-- A call that ends, returns normally only from an idle channel, and never returns
normally when the channel settles on a failure. -/
structure Honest (run : ℕ → Option Waited) (env : Environment Time) : Prop where
  ends : ∃ fuel waited, run fuel = some waited
  success : ∀ fuel waited, run fuel = some waited → waited.thrown = none →
    getStatus (env.register waited.instant) = .idle
  failure : SettlesBad env → ∀ fuel waited, run fuel = some waited → waited.thrown ≠ none

def IdleForGood (env : Environment Time) (instant : ℕ) : Prop :=
  getStatus (env.register instant) = .idle ∧ ¬SettlesBad env

theorem honest_iff_of_ends (run : ℕ → Option Waited) (env : Environment Time)
    (thrown : Option Exception) (instant : ℕ) (ended : Ends run thrown instant) :
    Honest run env ↔ thrown ≠ none ∨ IdleForGood env instant := by
  constructor
  · intro honest
    obtain ⟨fuel, waited, result⟩ := ended.some_fuel
    obtain ⟨sameThrown, sameInstant⟩ := ended.always fuel waited result
    by_cases normal : thrown = none
    · right
      have idle := honest.success fuel waited result (sameThrown.trans normal)
      rw [sameInstant] at idle
      exact ⟨idle, fun bad => honest.failure bad fuel waited result (sameThrown.trans normal)⟩
    · exact Or.inl normal
  · intro sound
    refine ⟨ended.some_fuel, ?_, ?_⟩
    · intro fuel waited result normal
      obtain ⟨sameThrown, sameInstant⟩ := ended.always fuel waited result
      rcases sound with raised | idle
      · exact absurd (sameThrown.symm.trans normal) raised
      · rw [sameInstant]
        exact idle.1
    · intro bad fuel waited result
      obtain ⟨sameThrown, -⟩ := ended.always fuel waited result
      rcases sound with raised | idle
      · rw [sameThrown]
        exact raised
      · exact absurd bad idle.2

theorem honest_map (run : ℕ → Option Waited) (env : Environment Time) (edit : Waited → Waited)
    (thrown : ∀ waited, (edit waited).thrown = waited.thrown)
    (instant : ∀ waited, (edit waited).instant = waited.instant) :
    Honest (fun fuel => (run fuel).map edit) env ↔ Honest run env := by
  constructor
  · intro honest
    have mapped : ∀ {fuel waited}, run fuel = some waited →
        (run fuel).map edit = some (edit waited) := by
      intro fuel waited result
      rw [result, Option.map_some]
    constructor
    · obtain ⟨fuel, waited, result⟩ := honest.ends
      obtain ⟨before, earlier, -⟩ := Option.map_eq_some_iff.mp result
      exact ⟨fuel, before, earlier⟩
    · intro fuel waited result normal
      have idle := honest.success fuel _ (mapped result) (by rw [thrown]; exact normal)
      rwa [instant] at idle
    · intro bad fuel waited result
      have raised := honest.failure bad fuel _ (mapped result)
      rwa [thrown] at raised
  · intro honest
    constructor
    · obtain ⟨fuel, waited, result⟩ := honest.ends
      exact ⟨fuel, edit waited, by rw [result, Option.map_some]⟩
    · intro fuel waited result normal
      obtain ⟨before, earlier, rfl⟩ := Option.map_eq_some_iff.mp result
      rw [thrown] at normal
      rw [instant]
      exact honest.success fuel before earlier normal
    · intro bad fuel waited result
      obtain ⟨before, earlier, rfl⟩ := Option.map_eq_some_iff.mp result
      rw [thrown]
      exact honest.failure bad fuel before earlier

theorem take_interrupt_stops_iff (env : Environment Time) (attempt : ℕ) :
    StopsAt (takeInterrupt env) 0 attempt () ↔
    env.counted attempt = true ∧ ∀ earlier < attempt, env.counted earlier = false := by
  constructor
  · intro stopped
    refine ⟨by simpa [takeInterrupt] using stopped.stops, fun earlier before => ?_⟩
    simpa [takeInterrupt] using stopped.first earlier (Nat.zero_le _) before
  · intro both
    rcases both with ⟨counted, first⟩
    refine ⟨Nat.zero_le _, by simp [takeInterrupt, counted], fun earlier _ before => ?_⟩
    simp [takeInterrupt, first earlier before]

variable [Zero Time] [LT Time] [DecidableLT Time]

/-- When a wait can be trusted. Polling: the first turn that does not find the
channel at work with time left finds it out of time, or idle for good. With
interrupts: the same of the first look when it finds the channel settled, and else
the ioctl is refused or the first interrupt counted finds the call out of time or
the channel idle for good. -/
def SoundWait (useInterrupts : Bool) (timeout : Time) (env : Environment Time) : Prop :=
  if useInterrupts then
    if Waiting (getStatus (env.register 0)) then
      env.waitiFails ≠ none ∨ ∃ attempt, env.counted attempt = true ∧
        (∀ earlier < attempt, env.counted earlier = false) ∧
        (expired timeout (env.elapsed (attempt + 1)) = true ∨ IdleForGood env (attempt + 1))
    else expired timeout (env.elapsed 0) = true ∨ IdleForGood env 0
  else ∃ turn,
    (∀ earlier < turn, Waiting (getStatus (env.register (2 * earlier + 1))) ∧
      expired timeout (env.elapsed (2 * earlier + 1)) = false) ∧
    ((Waiting (getStatus (env.register (2 * turn + 1))) ∧
        expired timeout (env.elapsed (2 * turn + 1)) = true) ∨
      IdleForGood env (2 * turn + 1))

theorem finish_ends (world : World) (ch : Channel) (thrown : Option Exception) (instant : ℕ)
    {waited : Waited} (result : finish world ch thrown instant = some waited) :
    waited.thrown = thrown ∧ waited.instant = instant ∧
      world.restoreIfSaved ch = some waited.world := by
  obtain ⟨restored, restore, rfl⟩ := Option.map_eq_some_iff.mp result
  exact ⟨rfl, rfl, restore⟩

theorem finish_some (world : World) (ch : Channel) (thrown : Option Exception) (instant : ℕ)
    (restorable : Restorable world ch) : ∃ waited, finish world ch thrown instant = some waited := by
  obtain ⟨restored, restore⟩ := restore_if_saved_some world ch restorable
  exact ⟨⟨thrown, restored, instant⟩, by rw [finish, restore, Option.map_some]⟩

/-- How the interrupt branch ends, by the software timeout alone. -/
def interruptThrown (env : Environment Time) (timeout : Time) (instant : ℕ) : Option Exception :=
  if expired timeout (env.elapsed instant) then some (.dmaTimeout env.dmatrans) else none

theorem finish_interrupt_eq (world : World) (ch : Channel) (env : Environment Time)
    (timeout : Time) (instant : ℕ) : finishInterrupt world ch env timeout instant =
      finish world ch (interruptThrown env timeout instant) instant := by
  unfold finishInterrupt interruptThrown
  split <;> rfl

theorem interrupt_thrown_iff (env : Environment Time) (timeout : Time) (instant : ℕ) :
    interruptThrown env timeout instant ≠ none ↔ expired timeout (env.elapsed instant) = true := by
  unfold interruptThrown
  split <;> simp_all

theorem restorable_congr {world other : World} {ch : Channel}
    (saved : other.engine.saved = world.engine.saved)
    (data : other.engine.savedData = world.engine.savedData)
    (lists : ∀ b buf, world.bufs b = some buf → ∃ edited, other.bufs b = some edited ∧
      edited.descriptors.length = buf.descriptors.length)
    (restorable : Restorable world ch) : Restorable other ch := by
  intro flag
  rw [saved] at flag
  obtain ⟨buf, live, init, last⟩ := restorable flag
  obtain ⟨edited, liveEdited, same⟩ := lists _ buf live
  rw [data]
  exact ⟨edited, liveEdited, by rw [same]; exact init, by rw [same]; exact last⟩

section Exits

variable (world : World) (ch : Channel) (timeout : Time) (env : Environment Time)

theorem poll_once_settled_iff (turn : ℕ) : pollOnce env timeout turn = some .settled ↔
    ¬Waiting (getStatus (env.register (2 * turn + 1))) := by
  unfold pollOnce
  split
  · split <;> simp_all
  · simp_all

theorem poll_once_expired_iff (turn : ℕ) : pollOnce env timeout turn = some .expired ↔
    Waiting (getStatus (env.register (2 * turn + 1))) ∧
      expired timeout (env.elapsed (2 * turn + 1)) = true := by
  unfold pollOnce
  split
  · split <;> simp_all
  · simp_all

theorem poll_once_none_iff (turn : ℕ) : pollOnce env timeout turn = none ↔
    Waiting (getStatus (env.register (2 * turn + 1))) ∧
      expired timeout (env.elapsed (2 * turn + 1)) = false := by
  unfold pollOnce
  split
  · split <;> simp_all
  · simp_all

def pollThrown : PollEnd → Option Exception
  | .settled => none
  | .expired => some (.dmaTimeout env.dmatrans)

theorem wait_polling_eq (polling : world.engine.useInterrupts = false) (fuel : ℕ) :
    waitChannel world ch timeout env fuel =
      match firstStop (pollOnce env timeout) fuel 0 with
      | none => none
      | some (turn, ended) => finish world ch (pollThrown env ended) (2 * turn + 1) := by
  simp only [waitChannel, polling, Bool.false_eq_true, if_false]
  cases firstStop (pollOnce env timeout) fuel 0 with
  | none => rfl
  | some found =>
      obtain ⟨turn, ended⟩ := found
      cases ended <;> rfl

theorem polling_ends (polling : world.engine.useInterrupts = false)
    (restorable : Restorable world ch) {turn : ℕ} {ended : PollEnd}
    (stopped : StopsAt (pollOnce env timeout) 0 turn ended) :
    Ends (waitChannel world ch timeout env) (pollThrown env ended) (2 * turn + 1) := by
  constructor
  · obtain ⟨waited, result⟩ := finish_some world ch (pollThrown env ended) (2 * turn + 1) restorable
    refine ⟨turn + 1, waited, ?_⟩
    rw [wait_polling_eq world ch timeout env polling, first_stop_of_stops _ stopped]
    exact result
  · intro fuel waited result
    rw [wait_polling_eq world ch timeout env polling] at result
    cases stop : firstStop (pollOnce env timeout) fuel 0 with
    | none => simp [stop] at result
    | some found =>
        obtain ⟨other, otherEnd⟩ := found
        have again := ((first_stop_eq_some_iff _ _ _ _ _).mp stop).1
        obtain ⟨rfl, rfl⟩ := stops_unique _ stopped again
        rw [stop] at result
        obtain ⟨thrown, instant, -⟩ := finish_ends world ch _ _ result
        exact ⟨thrown, instant⟩

theorem interrupt_ends (interrupts : world.engine.useInterrupts = true)
    (waiting : Waiting (getStatus (env.register 0))) (accepted : env.waitiFails = none)
    (restorable : Restorable world ch) {attempt : ℕ}
    (stopped : StopsAt (takeInterrupt env) 0 attempt ()) :
    Ends (waitChannel world ch timeout env) (interruptThrown env timeout (attempt + 1))
      (attempt + 1) := by
  let woken : World :=
    { world with engine := (world.engine.enableInterrupt ch).disableInterrupt ch }
  have woken_restorable : Restorable woken ch :=
    restorable_congr rfl rfl (fun b buf live => ⟨buf, live, rfl⟩) restorable
  constructor
  · obtain ⟨waited, result⟩ := finish_some woken ch (interruptThrown env timeout (attempt + 1))
      (attempt + 1) woken_restorable
    refine ⟨attempt + 1, waited, ?_⟩
    simp only [waitChannel, interrupts, if_true, if_pos waiting, accepted,
      first_stop_of_stops _ stopped, finish_interrupt_eq]
    exact result
  · intro fuel waited result
    simp only [waitChannel, interrupts, if_true, if_pos waiting, accepted] at result
    cases stop : firstStop (takeInterrupt env) fuel 0 with
    | none => simp [stop] at result
    | some found =>
        obtain ⟨other, taken⟩ := found
        have again := ((first_stop_eq_some_iff _ _ _ _ _).mp stop).1
        obtain ⟨rfl, -⟩ := stops_unique _ stopped again
        simp only [stop, finish_interrupt_eq] at result
        obtain ⟨thrown, instant, -⟩ := finish_ends _ ch _ _ result
        exact ⟨thrown, instant⟩

theorem no_wait_ends (interrupts : world.engine.useInterrupts = true)
    (settled : ¬Waiting (getStatus (env.register 0))) (restorable : Restorable world ch) :
    Ends (waitChannel world ch timeout env) (interruptThrown env timeout 0) 0 := by
  have unfolded : ∀ fuel, waitChannel world ch timeout env fuel =
      finish world ch (interruptThrown env timeout 0) 0 := by
    intro fuel
    simp only [waitChannel, interrupts, if_true, if_neg settled, finish_interrupt_eq]
  constructor
  · obtain ⟨waited, result⟩ := finish_some world ch (interruptThrown env timeout 0) 0 restorable
    exact ⟨0, waited, by rw [unfolded]; exact result⟩
  · intro fuel waited result
    rw [unfolded] at result
    obtain ⟨thrown, instant, -⟩ := finish_ends world ch _ _ result
    exact ⟨thrown, instant⟩

theorem refused_ends (interrupts : world.engine.useInterrupts = true)
    (waiting : Waiting (getStatus (env.register 0))) {exception : Exception}
    (refused : env.waitiFails = some exception) :
    Ends (waitChannel world ch timeout env) (some exception) 0 := by
  have unfolded : ∀ fuel, waitChannel world ch timeout env fuel =
      some ⟨some exception, { world with engine := world.engine.enableInterrupt ch }, 0⟩ := by
    intro fuel
    simp only [waitChannel, interrupts, if_true, if_pos waiting, refused]
  constructor
  · exact ⟨0, _, unfolded 0⟩
  · intro fuel waited result
    rw [unfolded, Option.some.injEq] at result
    subst result
    exact ⟨rfl, rfl⟩

theorem polling_stops_of_honest (polling : world.engine.useInterrupts = false)
    (honest : Honest (waitChannel world ch timeout env) env) :
    ∃ turn ended, StopsAt (pollOnce env timeout) 0 turn ended := by
  obtain ⟨fuel, waited, result⟩ := honest.ends
  rw [wait_polling_eq world ch timeout env polling] at result
  cases stop : firstStop (pollOnce env timeout) fuel 0 with
  | none => simp [stop] at result
  | some found => exact ⟨found.1, found.2, ((first_stop_eq_some_iff _ _ _ _ _).mp stop).1⟩

theorem interrupt_taken_of_honest (interrupts : world.engine.useInterrupts = true)
    (waiting : Waiting (getStatus (env.register 0))) (accepted : env.waitiFails = none)
    (honest : Honest (waitChannel world ch timeout env) env) :
    ∃ attempt, StopsAt (takeInterrupt env) 0 attempt () := by
  obtain ⟨fuel, waited, result⟩ := honest.ends
  simp only [waitChannel, interrupts, if_true, if_pos waiting, accepted] at result
  cases stop : firstStop (takeInterrupt env) fuel 0 with
  | none => simp [stop] at result
  | some found => exact ⟨found.1, ((first_stop_eq_some_iff _ _ _ _ _).mp stop).1⟩

theorem polling_honest_iff (polling : world.engine.useInterrupts = false)
    (restorable : Restorable world ch) :
    Honest (waitChannel world ch timeout env) env ↔ SoundWait false timeout env := by
  simp only [SoundWait, Bool.false_eq_true, if_false]
  constructor
  · intro honest
    obtain ⟨turn, ended, stopped⟩ := polling_stops_of_honest world ch timeout env polling honest
    have sound := (honest_iff_of_ends _ env _ _
      (polling_ends world ch timeout env polling restorable stopped)).mp honest
    refine ⟨turn, fun earlier before =>
      (poll_once_none_iff timeout env earlier).mp (stopped.first earlier (Nat.zero_le _) before), ?_⟩
    cases ended with
    | settled =>
        right
        simpa [pollThrown] using sound
    | expired => exact Or.inl ((poll_once_expired_iff timeout env turn).mp stopped.stops)
  · intro present
    rcases present with ⟨turn, before, last⟩
    have first : ∀ earlier, 0 ≤ earlier → earlier < turn → pollOnce env timeout earlier = none :=
      fun earlier _ less => (poll_once_none_iff timeout env earlier).mpr (before earlier less)
    rcases last with late | idle
    · have stops := (poll_once_expired_iff timeout env turn).mpr late
      exact (honest_iff_of_ends _ env _ _ (polling_ends world ch timeout env polling restorable
        ⟨Nat.zero_le _, stops, first⟩)).mpr (Or.inl (by simp [pollThrown]))
    · have stops := (poll_once_settled_iff timeout env turn).mpr (by simp [Waiting, idle.1])
      exact (honest_iff_of_ends _ env _ _ (polling_ends world ch timeout env polling restorable
        ⟨Nat.zero_le _, stops, first⟩)).mpr (Or.inr idle)

theorem interrupt_honest_iff (interrupts : world.engine.useInterrupts = true)
    (restorable : Restorable world ch) :
    Honest (waitChannel world ch timeout env) env ↔ SoundWait true timeout env := by
  simp only [SoundWait, if_true]
  by_cases waiting : Waiting (getStatus (env.register 0))
  · rw [if_pos waiting]
    cases refused : env.waitiFails with
    | some exception =>
        have ended := refused_ends world ch timeout env interrupts waiting refused
        simp [honest_iff_of_ends _ env _ _ ended]
    | none =>
        simp only [ne_eq, not_true_eq_false, false_or]
        constructor
        · intro honest
          obtain ⟨attempt, stopped⟩ :=
            interrupt_taken_of_honest world ch timeout env interrupts waiting refused honest
          have sound := (honest_iff_of_ends _ env _ _ (interrupt_ends world ch timeout env
            interrupts waiting refused restorable stopped)).mp honest
          rw [interrupt_thrown_iff] at sound
          obtain ⟨counted, first⟩ := (take_interrupt_stops_iff env attempt).mp stopped
          exact ⟨attempt, counted, first, sound⟩
        · intro facts
          rcases facts with ⟨attempt, counted, first, sound⟩
          have stopped := (take_interrupt_stops_iff env attempt).mpr ⟨counted, first⟩
          rw [honest_iff_of_ends _ env _ _ (interrupt_ends world ch timeout env interrupts waiting
            refused restorable stopped), interrupt_thrown_iff]
          exact sound
  · rw [if_neg waiting, honest_iff_of_ends _ env _ _
      (no_wait_ends world ch timeout env interrupts waiting restorable), interrupt_thrown_iff]

theorem wait_honest_iff (restorable : Restorable world ch) :
    Honest (waitChannel world ch timeout env) env ↔
      SoundWait world.engine.useInterrupts timeout env := by
  cases mode : world.engine.useInterrupts with
  | false => exact polling_honest_iff world ch timeout env mode restorable
  | true => exact interrupt_honest_iff world ch timeout env mode restorable

end Exits

/-- A wait changes the interrupt-enable register and then restores the list, unless
the driver refuses to wait. -/
theorem wait_channel_cases {world : World} {ch : Channel} {timeout : Time}
    {env : Environment Time} {fuel : ℕ} {waited : Waited}
    (result : waitChannel world ch timeout env fuel = some waited) :
    ∃ inte, ∃ woken : World, woken = ⟨{ world.engine with inte := inte }, world.bufs⟩ ∧
      ((waited.thrown ≠ none ∧ waited.world = woken) ∨
        woken.restoreIfSaved ch = some waited.world) := by
  cases mode : world.engine.useInterrupts with
  | false =>
      rw [wait_polling_eq world ch timeout env mode] at result
      cases stop : firstStop (pollOnce env timeout) fuel 0 with
      | none => simp [stop] at result
      | some found =>
          rw [stop] at result
          obtain ⟨-, -, restored⟩ := finish_ends world ch _ _ result
          exact ⟨world.engine.inte, world, rfl, Or.inr restored⟩
  | true =>
      by_cases waiting : Waiting (getStatus (env.register 0))
      · cases refused : env.waitiFails with
        | some exception =>
            simp only [waitChannel, mode, if_true, if_pos waiting, refused,
              Option.some.injEq] at result
            subst result
            exact ⟨_, _, rfl, Or.inl ⟨by simp, rfl⟩⟩
        | none =>
            simp only [waitChannel, mode, if_true, if_pos waiting, refused] at result
            cases stop : firstStop (takeInterrupt env) fuel 0 with
            | none => simp [stop] at result
            | some found =>
                simp only [stop, finish_interrupt_eq] at result
                obtain ⟨-, -, restored⟩ := finish_ends _ ch _ _ result
                exact ⟨_, _, rfl, Or.inr restored⟩
      · simp only [waitChannel, mode, if_true, if_neg waiting, finish_interrupt_eq] at result
        obtain ⟨-, -, restored⟩ := finish_ends world ch _ _ result
        exact ⟨world.engine.inte, world, rfl, Or.inr restored⟩

/-- The instant at which a wait that returns normally ends. A look that finds `TIMEOUT` ends it as
one that finds `IDLE` does. -/
def ReturnsAt (useInterrupts : Bool) (timeout : Time) (env : Environment Time) (instant : ℕ) :
    Prop :=
  if useInterrupts then
    if Waiting (getStatus (env.register 0)) then
      ∃ attempt, StopsAt (takeInterrupt env) 0 attempt () ∧ instant = attempt + 1
    else instant = 0
  else ∃ turn, StopsAt (pollOnce env timeout) 0 turn .settled ∧ instant = 2 * turn + 1

theorem returns_at_unique {useInterrupts : Bool} {timeout : Time} {env : Environment Time}
    {instant other : ℕ} (returns : ReturnsAt useInterrupts timeout env instant)
    (again : ReturnsAt useInterrupts timeout env other) : instant = other := by
  unfold ReturnsAt at returns again
  cases useInterrupts with
  | false =>
      simp only [Bool.false_eq_true, if_false] at returns again
      obtain ⟨turn, stopped, rfl⟩ := returns
      obtain ⟨later, stoppedLater, rfl⟩ := again
      rw [(stops_unique _ stopped stoppedLater).1]
  | true =>
      simp only [if_true] at returns again
      split at returns
      · rename_i waiting
        rw [if_pos waiting] at again
        obtain ⟨attempt, stopped, rfl⟩ := returns
        obtain ⟨later, stoppedLater, rfl⟩ := again
        rw [(stops_unique _ stopped stoppedLater).1]
      · rename_i settled
        rw [if_neg settled] at again
        rw [returns, again]

theorem wait_returns_at {world : World} {ch : Channel} {timeout : Time} {env : Environment Time}
    {fuel : ℕ} {waited : Waited} (result : waitChannel world ch timeout env fuel = some waited)
    (normal : waited.thrown = none) :
    ReturnsAt world.engine.useInterrupts timeout env waited.instant := by
  unfold ReturnsAt
  cases mode : world.engine.useInterrupts with
  | false =>
      rw [wait_polling_eq world ch timeout env mode] at result
      cases stop : firstStop (pollOnce env timeout) fuel 0 with
      | none => simp [stop] at result
      | some found =>
          obtain ⟨turn, ended⟩ := found
          have stopped := ((first_stop_eq_some_iff _ _ _ _ _).mp stop).1
          rw [stop] at result
          obtain ⟨thrown, instant, -⟩ := finish_ends world ch _ _ result
          cases ended with
          | settled => exact ⟨turn, stopped, instant⟩
          | expired => exact absurd (thrown.symm.trans normal) (Option.some_ne_none _)
  | true =>
      simp only [if_true]
      by_cases waiting : Waiting (getStatus (env.register 0))
      · rw [if_pos waiting]
        cases refused : env.waitiFails with
        | some exception =>
            have ended := refused_ends world ch timeout env mode waiting refused
            have thrown := (ended.always fuel waited result).1
            exact absurd (thrown.symm.trans normal) (Option.some_ne_none _)
        | none =>
            simp only [waitChannel, mode, if_true, if_pos waiting, refused] at result
            cases stop : firstStop (takeInterrupt env) fuel 0 with
            | none => simp [stop] at result
            | some found =>
                obtain ⟨attempt, taken⟩ := found
                have stopped := ((first_stop_eq_some_iff _ _ _ _ _).mp stop).1
                simp only [stop, finish_interrupt_eq] at result
                exact ⟨attempt, stopped, (finish_ends _ ch _ _ result).2.1⟩
      · rw [if_neg waiting]
        simp only [waitChannel, mode, if_true, if_neg waiting, finish_interrupt_eq] at result
        exact (finish_ends world ch _ _ result).2.1

theorem receive_descriptors (buf : DMABuffer) (arrived : List U8 → List U8) :
    (buf.receive arrived).descriptors = buf.descriptors := by
  unfold DMABuffer.receive
  split <;> rfl

theorem map_buf_live (world : World) (b other : BufId) (edit : DMABuffer → DMABuffer)
    (same : ∀ buf, (edit buf).descriptors = buf.descriptors) (buf : DMABuffer)
    (live : world.bufs other = some buf) : ∃ edited,
      (world.mapBuf b edit).bufs other = some edited ∧ edited.descriptors = buf.descriptors := by
  by_cases this : other = b
  · subst this
    exact ⟨edit buf, by simp [World.mapBuf, live], same buf⟩
  · exact ⟨buf, by simp [World.mapBuf, this, live], rfl⟩

theorem start_use_interrupts {world started : World} {ch : Channel} {b : BufId}
    {request : Request} (result : world.start ch b request = some started) :
    started.engine.useInterrupts = world.engine.useInterrupts := by
  obtain ⟨buf, live, ⟨kBuf, kernel, rfl⟩ | ⟨listed, programmed, sent, rfl⟩⟩ :=
    World.start_cases result
  · simp [World.afterKernel, DMAEngineWG.write, DMAEngineWG.setSaved]
  · simp [World.afterList, DMAEngineWG.write]

/-- Starting a transfer keeps the record of its channel usable: it is cleared, made
anew for the list at hand, or the old one. -/
theorem start_restorable {world started : World} {ch : Channel} {b : BufId} {request : Request}
    (restorable : Restorable world ch) (result : world.start ch b request = some started) :
    Restorable started ch := by
  obtain ⟨buf, live, ⟨kBuf, kernel, rfl⟩ | ⟨listed, programmed, sent, rfl⟩⟩ :=
    World.start_cases result
  · intro flag
    simp [World.afterKernel, DMAEngineWG.setSaved] at flag
  · have lengths := program_list_length _ _ _ _ _ sent
    cases saved : programmed.saved with
    | some data =>
        obtain ⟨named, init, last⟩ := program_list_saved _ _ _ _ _ sent saved
        intro flag
        simp only [World.afterList, saved, DMAEngineWG.recordIfSaved, DMAEngineWG.recordSaved,
          write_saved_data, Function.update_self, named]
        exact ⟨_, rfl, by simpa [lengths] using init, by simpa [lengths] using last⟩
    | none =>
        refine restorable_congr ?_ ?_ ?_ restorable
        · simp [World.afterList, saved, DMAEngineWG.recordIfSaved]
        · simp [World.afterList, saved, DMAEngineWG.recordIfSaved]
        · intro other found liveOther
          by_cases this : other = b
          · subst this
            rw [live, Option.some.injEq] at liveOther
            subst liveOther
            exact ⟨{ buf.syncedFor ch request with descriptors := programmed.list },
              by simp [World.afterList], lengths⟩
          · exact ⟨found, by simp [World.afterList, this, liveOther], rfl⟩

/-- A locking transfer is as honest as the wait it makes after it has started. -/
theorem transfer_honest_iff (world started : World) (ch : Channel) (b : BufId) (buf : DMABuffer)
    (request : Request) (timeout : Time) (env : Environment Time)
    (live : world.bufs b = some buf) (accepted : checkRequest buf request = none)
    (result : world.start ch b request = some started) (restorable : Restorable started ch) :
    Honest (world.transfer ch b request (some (timeout, env))) env ↔
      SoundWait started.engine.useInterrupts timeout env := by
  have flip : ¬(1 : Channel) = 0 := by decide
  unfold World.start at result
  rcases channel_cases ch with rfl | rfl
  · rw [if_pos rfl] at result
    have run : world.transfer 0 b request (some (timeout, env)) =
        waitChannel started 0 timeout env := by
      funext fuel
      simp only [World.transfer, if_true, World.host2board, live, accepted, result]
    rw [run]
    exact wait_honest_iff started 0 timeout env restorable
  · rw [if_neg flip] at result
    let received := started.mapBuf b fun buf => buf.receive env.arrived
    let synced := fun waited : Waited =>
      { waited with world := waited.world.mapBuf b fun buf => buf.sync .fromDevice }
    have run : world.transfer 1 b request (some (timeout, env)) = fun fuel =>
        (waitChannel received 1 timeout env fuel).map synced := by
      funext fuel
      simp only [World.transfer, if_neg flip, World.board2host, live, accepted, result]
      rfl
    have received_restorable : Restorable received 1 := by
      refine @restorable_congr started received 1 rfl rfl ?_ restorable
      intro other found liveOther
      obtain ⟨edited, liveEdited, same⟩ := map_buf_live started b other _
        (fun buf => receive_descriptors buf env.arrived) found liveOther
      exact ⟨edited, liveEdited, by rw [same]⟩
    rw [run, honest_map (waitChannel received 1 timeout env) env synced (fun _ => rfl) fun _ => rfl]
    exact wait_honest_iff received 1 timeout env received_restorable

/-- `waitChannel`, `host2board` and `board2host` end and report success truthfully in
exactly the environments of `SoundWait`. -/
theorem blocking_calls_honest_iff (timeout : Time) (env : Environment Time) :
    (∀ world ch, Restorable world ch →
      (Honest (waitChannel world ch timeout env) env ↔
        SoundWait world.engine.useInterrupts timeout env)) ∧
    (∀ world started ch b buf request, Restorable world ch → world.bufs b = some buf →
      checkRequest buf request = none → world.start ch b request = some started →
      (Honest (world.transfer ch b request (some (timeout, env))) env ↔
        SoundWait world.engine.useInterrupts timeout env)) := by
  constructor
  · intro world ch restorable
    exact wait_honest_iff world ch timeout env restorable
  · intro world started ch b buf request restorable live accepted result
    rw [← start_use_interrupts result]
    exact transfer_honest_iff world started ch b buf request timeout env live accepted result
      (start_restorable restorable result)

end Waiting

/-- A board whose status register shows the same word for ever, timed in ticks. -/
def steadyBoard (status : U32) : Environment ℕ where
  register := fun _ => status
  elapsed := fun instant => instant
  counted := fun _ => false
  waitiFails := none
  dmatrans := none
  arrived := fun bytes => bytes

def oneKernelBuffer : World where
  engine := DMAEngineWG.construct false (fun _ => DMADescriptorWG.unset.native) 0
  bufs := fun b => if b = 0 then
      some { memory := .kernel 0x10000#64, size := 64, descriptors := [], host := [], bounce := [] }
    else none

theorem blocking_calls_honest_iff_idle_board :
    Honest (waitChannel oneKernelBuffer 0 5 (steadyBoard 0)) (steadyBoard 0) ∧
      Honest (oneKernelBuffer.transfer 1 0 ⟨1, 0x20, 4, 2, true⟩ (some (5, steadyBoard 0)))
        (steadyBoard 0) := by
  have unsaved : ∀ ch, Restorable oneKernelBuffer ch := by
    intro ch flag
    exact absurd flag Bool.false_ne_true
  have good : ¬SettlesBad (steadyBoard 0) := by
    have idle : ∀ instant, getStatus ((steadyBoard 0).register instant) = .idle := fun _ => by
      show getStatus 0 = .idle
      decide
    intro either
    rcases either with ⟨start, settles⟩ | ⟨start, settles⟩
    · exact absurd ((idle start).symm.trans (settles start le_rfl)) (by decide)
    · exact absurd ((idle start).symm.trans (settles start le_rfl)) (by decide)
  have sound : SoundWait false 5 (steadyBoard 0) :=
    ⟨0, fun earlier before => absurd before (Nat.not_lt_zero earlier), Or.inr ⟨by decide, good⟩⟩
  constructor
  · exact ((blocking_calls_honest_iff 5 (steadyBoard 0)).1 oneKernelBuffer 0 (unsaved 0)).mpr sound
  · exact ((blocking_calls_honest_iff 5 (steadyBoard 0)).2 oneKernelBuffer _ 1 0 _
      ⟨1, 0x20, 4, 2, true⟩ (unsaved 1) rfl (by decide) rfl).mpr sound

theorem timed_out_wait_returns_normally :
    Settles (steadyBoard statusTout) .timeout ∧
      (∃ waited, waitChannel oneKernelBuffer 0 5 (steadyBoard statusTout) 1 = some waited ∧
        waited.thrown = none) ∧
      ¬Honest (waitChannel oneKernelBuffer 0 5 (steadyBoard statusTout))
        (steadyBoard statusTout) := by
  have settles : Settles (steadyBoard statusTout) .timeout := ⟨0, fun instant _ => by
    show getStatus statusTout = .timeout
    decide⟩
  have returns : waitChannel oneKernelBuffer 0 5 (steadyBoard statusTout) 1 =
      some ⟨none, oneKernelBuffer, 1⟩ := rfl
  exact ⟨settles, ⟨_, returns, rfl⟩, fun honest =>
    honest.failure (Or.inl settles) 1 _ returns rfl⟩

end FpgaPcie.Mprace
