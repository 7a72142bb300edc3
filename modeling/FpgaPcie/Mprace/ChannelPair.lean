import FpgaPcie.Lib.Interleaving
import FpgaPcie.Mprace.SentList
import FpgaPcie.Mprace.RequestRange
import FpgaPcie.Mprace.WaitOutcome

/-!
# Two channels on one engine

The calls of a program on both channels, each channel with buffers of its own. A call works
on the registers, the record and the buffers of its channel; the interrupt-enable register
is shared and no call reads it. So each channel sees what it would see alone.
-/

namespace FpgaPcie.Mprace

open FpgaPcie.Interleaving FpgaPcie.Polling

set_option autoImplicit false

inductive ChannelCall (Time : Type) where
  | transfer (b : BufId) (request : Request) (lock : Option (Time × Environment Time)) (fuel : ℕ)
  | getStatus (register : U32)
  | waitChannel (timeout : Time) (env : Environment Time) (fuel : ℕ)

/-- A reset writes the control register of a channel, a descriptor all of its registers. -/
inductive RegisterWrite where
  | control (word : U32)
  | descriptor (d : Descriptor)
  deriving DecidableEq, Repr

structure Outcome where
  thrown : Option Exception
  instant : ℕ
  status : Option DMAStatus
  written : List RegisterWrite
  deriving DecidableEq, Repr

namespace World

/-- What `host2board` and `board2host` write to the registers of their channel. -/
def written (world : World) (ch : Channel) (b : BufId) (request : Request) : List RegisterWrite :=
  match world.bufs b with
  | none => []
  | some buf =>
      match checkRequest buf request, world.start ch b request with
      | none, some started =>
          [.control (ctrlReset ||| ctrlV), .descriptor (started.engine.channel ch)]
      | _, _ => []

end World

section Calls

variable {Time : Type} [Zero Time] [LT Time] [DecidableLT Time]

def World.channelCall (world : World) (ch : Channel) :
    ChannelCall Time → Option (World × Outcome)
  | .transfer b request lock fuel =>
      (world.transfer ch b request lock fuel).map fun waited =>
        (waited.world, ⟨waited.thrown, waited.instant, none, world.written ch b request⟩)
  | .getStatus register => some (world, ⟨none, 0, some (getStatus register), []⟩)
  | .waitChannel timeout env fuel =>
      (Mprace.waitChannel world ch timeout env fuel).map fun waited =>
        (waited.world, ⟨waited.thrown, waited.instant, none, []⟩)

variable (Time) in
def channelStep (world : World) (call : Channel × ChannelCall Time) : Option (World × Outcome) :=
  world.channelCall call.1 call.2

def UsesOwn (owned : Channel → BufId → Prop) (call : Channel × ChannelCall Time) : Prop :=
  match call.2 with
  | .transfer b _ _ _ => owned call.1 b
  | _ => True

end Calls

structure Agrees (owned : Channel → BufId → Prop) (ch : Channel) (world other : World) : Prop where
  oldRegisters : world.engine.oldRegisters = other.engine.oldRegisters
  useInterrupts : world.engine.useInterrupts = other.engine.useInterrupts
  channel : world.engine.channel ch = other.engine.channel ch
  saved : world.engine.saved ch = other.engine.saved ch
  savedData : world.engine.savedData ch = other.engine.savedData ch
  bufs : ∀ b, owned ch b → world.bufs b = other.bufs b

def NamesOwn (owned : Channel → BufId → Prop) (ch : Channel) (world : World) : Prop :=
  world.engine.saved ch = true → owned ch (world.engine.savedData ch).savedBuf

structure Local (owned : Channel → BufId → Prop) (ch : Channel) (before after : World) : Prop where
  oldRegisters : after.engine.oldRegisters = before.engine.oldRegisters
  useInterrupts : after.engine.useInterrupts = before.engine.useInterrupts
  channel : ∀ other ≠ ch, after.engine.channel other = before.engine.channel other
  saved : ∀ other ≠ ch, after.engine.saved other = before.engine.saved other
  savedData : ∀ other ≠ ch, after.engine.savedData other = before.engine.savedData other
  bufs : ∀ b, ¬owned ch b → after.bufs b = before.bufs b
  names : NamesOwn owned ch before → NamesOwn owned ch after

section Local

variable {owned : Channel → BufId → Prop} {ch : Channel} {before middle after : World} {b : BufId}

theorem Local.refl (world : World) : Local owned ch world world :=
  ⟨rfl, rfl, fun _ _ => rfl, fun _ _ => rfl, fun _ _ => rfl, fun _ _ => rfl, id⟩

theorem Local.trans (first : Local owned ch before middle) (second : Local owned ch middle after) :
    Local owned ch before after where
  oldRegisters := second.oldRegisters.trans first.oldRegisters
  useInterrupts := second.useInterrupts.trans first.useInterrupts
  channel := fun other differ => (second.channel other differ).trans (first.channel other differ)
  saved := fun other differ => (second.saved other differ).trans (first.saved other differ)
  savedData := fun other differ =>
    (second.savedData other differ).trans (first.savedData other differ)
  bufs := fun b foreign => (second.bufs b foreign).trans (first.bufs b foreign)
  names := fun names => second.names (first.names names)

theorem local_inte (world : World) (inte : U32) :
    Local owned ch world ⟨{ world.engine with inte := inte }, world.bufs⟩ :=
  ⟨rfl, rfl, fun _ _ => rfl, fun _ _ => rfl, fun _ _ => rfl, fun _ _ => rfl, id⟩

theorem local_map_buf (own : owned ch b) (world : World) (edit : DMABuffer → DMABuffer) :
    Local owned ch world (world.mapBuf b edit) := by
  refine ⟨rfl, rfl, fun _ _ => rfl, fun _ _ => rfl, fun _ _ => rfl, ?_, id⟩
  intro other foreign
  have differ : other ≠ b := fun same => foreign (same ▸ own)
  exact Function.update_of_ne differ _ _

/-- Sending a list makes a record that names its buffer, or none. -/
theorem recorded_names {engine : DMAEngineWG} {data : Option SavedData} (own : owned ch b)
    (named : ∀ record, data = some record → record.savedBuf = b)
    (names : engine.saved ch = true → owned ch (engine.savedData ch).savedBuf) :
    (engine.recordIfSaved ch data).saved ch = true →
      owned ch ((engine.recordIfSaved ch data).savedData ch).savedBuf := by
  cases data with
  | none => exact names
  | some record =>
      intro _
      simp only [DMAEngineWG.recordIfSaved, DMAEngineWG.recordSaved, Function.update_self,
        named record rfl]
      exact own

theorem record_other (engine : DMAEngineWG) (data : Option SavedData) {other : Channel}
    (differ : other ≠ ch) : (engine.recordIfSaved ch data).saved other = engine.saved other ∧
      (engine.recordIfSaved ch data).savedData other = engine.savedData other := by
  cases data with
  | none => exact ⟨rfl, rfl⟩
  | some record =>
      exact ⟨Function.update_of_ne differ _ _, Function.update_of_ne differ _ _⟩

theorem record_registers (engine : DMAEngineWG) (ch : Channel) (data : Option SavedData) :
    (engine.recordIfSaved ch data).oldRegisters = engine.oldRegisters ∧
      (engine.recordIfSaved ch data).channel = engine.channel := by
  cases data <;> exact ⟨rfl, rfl⟩

theorem prepare_channel (engine : DMAEngineWG) {other : Channel} (differ : other ≠ ch) :
    (engine.prepare ch).channel other = engine.channel other := by
  unfold DMAEngineWG.prepare
  split <;> exact Function.update_of_ne differ _ _

theorem local_start {world started : World} {request : Request} (own : owned ch b)
    (result : world.start ch b request = some started) : Local owned ch world started := by
  obtain ⟨buf, -, ⟨kBuf, -, rfl⟩ | ⟨-, programmed, sent, rfl⟩⟩ := World.start_cases result
  · constructor
    · simp [World.afterKernel, DMAEngineWG.write, DMAEngineWG.setSaved]
    · simp [World.afterKernel, DMAEngineWG.write, DMAEngineWG.setSaved]
    · intro other differ
      simp [World.afterKernel, DMAEngineWG.write, DMAEngineWG.setSaved, differ,
        prepare_channel _ differ]
    · intro other differ
      simp [World.afterKernel, DMAEngineWG.setSaved, differ]
    · intro other differ
      simp [World.afterKernel, DMAEngineWG.setSaved]
    · intro other foreign
      have differ : other ≠ b := fun same => foreign (same ▸ own)
      exact Function.update_of_ne differ _ _
    · intro _ flag
      simp [World.afterKernel, DMAEngineWG.setSaved] at flag
  · obtain ⟨old, registers⟩ := record_registers (world.engine.prepare ch) ch programmed.saved
    constructor
    · simp [World.afterList, DMAEngineWG.write, old]
    · simp [World.afterList, DMAEngineWG.write]
    · intro other differ
      simp [World.afterList, DMAEngineWG.write, registers, differ, prepare_channel _ differ]
    · intro other differ
      simp [World.afterList, (record_other (world.engine.prepare ch) programmed.saved differ).1]
    · intro other differ
      simp [World.afterList, (record_other (world.engine.prepare ch) programmed.saved differ).2]
    · intro other foreign
      have differ : other ≠ b := fun same => foreign (same ▸ own)
      exact Function.update_of_ne differ _ _
    · intro names
      apply recorded_names own
      · intro record saved
        exact (program_list_saved _ _ _ _ _ sent saved).1
      · simpa only [NamesOwn, prepare_saved, prepare_saved_data] using names

theorem local_restore {world restored : World} (names : NamesOwn owned ch world)
    (result : world.restoreIfSaved ch = some restored) : Local owned ch world restored := by
  rcases World.restore_cases result with ⟨-, rfl⟩ | ⟨saved, buf, list, -, -, rfl⟩
  · exact .refl restored
  · refine ⟨rfl, rfl, fun _ _ => rfl, ?_, fun _ _ => rfl, ?_, ?_⟩
    · exact fun other differ => Function.update_of_ne differ _ _
    · intro other foreign
      have differ : other ≠ (world.engine.savedData ch).savedBuf := fun same =>
        foreign (same ▸ names saved)
      exact Function.update_of_ne differ _ _
    · intro _ flag
      simp [DMAEngineWG.setSaved] at flag

section Waits

variable {Time : Type} [Zero Time] [LT Time] [DecidableLT Time]
variable {world : World} {timeout : Time} {env : Environment Time} {fuel : ℕ} {waited : Waited}

theorem local_wait (names : NamesOwn owned ch world)
    (result : waitChannel world ch timeout env fuel = some waited) :
    Local owned ch world waited.world := by
  obtain ⟨inte, woken, rfl, ⟨-, same⟩ | restored⟩ := wait_channel_cases result
  · rw [same]
    exact local_inte world inte
  · have first : Local owned ch world ⟨{ world.engine with inte := inte }, world.bufs⟩ :=
      local_inte world inte
    exact first.trans (local_restore (first.names names) restored)

theorem local_behind_start {started : World} (own : owned ch b) (names : NamesOwn owned ch started)
    {lock : Option (Time × Environment Time)}
    (result : started.behindStart ch b lock fuel = some waited) :
    Local owned ch started waited.world := by
  cases lock with
  | none =>
      cases result
      exact .refl started
  | some wait =>
      obtain ⟨timeout, env⟩ := wait
      rcases channel_cases ch with rfl | rfl
      · rw [World.behindStart, if_pos rfl] at result
        exact local_wait names result
      · rw [World.behindStart, if_neg (by decide), Option.map_eq_some_iff] at result
        obtain ⟨inner, wait, rfl⟩ := result
        have received := local_map_buf own started fun buf => buf.receive env.arrived
        have within := received.trans (local_wait (received.names names) wait)
        exact within.trans (local_map_buf own inner.world fun buf => buf.sync .fromDevice)

theorem local_transfer {request : Request} {lock : Option (Time × Environment Time)}
    (own : owned ch b) (names : NamesOwn owned ch world)
    (result : world.transfer ch b request lock fuel = some waited) :
    Local owned ch world waited.world := by
  cases live : world.bufs b with
  | none =>
      unfold World.transfer World.host2board World.board2host at result
      simp [live] at result
  | some buf =>
      rw [World.transfer_eq live] at result
      split at result
      · cases result
        exact .refl world
      · obtain ⟨started, start, behind⟩ := Option.bind_eq_some_iff.mp result
        have first := local_start own start
        exact first.trans (local_behind_start own (first.names names) behind)

theorem local_step {call : Channel × ChannelCall Time} {after : World} {outcome : Outcome}
    (own : UsesOwn owned call) (names : NamesOwn owned call.1 world)
    (result : channelStep Time world call = some (after, outcome)) :
    Local owned call.1 world after := by
  obtain ⟨ch, call⟩ := call
  cases call with
  | transfer b request lock fuel =>
      obtain ⟨waited, transferred, ended⟩ := Option.map_eq_some_iff.mp result
      cases ended
      exact local_transfer own names transferred
  | getStatus register =>
      cases result
      exact .refl world
  | waitChannel timeout env fuel =>
      obtain ⟨waited, wait, ended⟩ := Option.map_eq_some_iff.mp result
      cases ended
      exact local_wait names wait

end Waits

end Local

section Alike

variable {owned : Channel → BufId → Prop} {ch : Channel} {world other : World} {b : BufId}

theorem agrees_map_buf (same : Agrees owned ch world other) (edit : DMABuffer → DMABuffer) :
    Agrees owned ch (world.mapBuf b edit) (other.mapBuf b edit) := by
  refine ⟨same.oldRegisters, same.useInterrupts, same.channel, same.saved, same.savedData, ?_⟩
  intro buf own
  by_cases here : buf = b
  · subst here
    simp [World.mapBuf, same.bufs buf own]
  · simp [World.mapBuf, here, same.bufs buf own]

theorem start_alike {started : World} {request : Request} (same : Agrees owned ch world other)
    (own : owned ch b) (result : world.start ch b request = some started) :
    ∃ alone, other.start ch b request = some alone ∧ Agrees owned ch started alone := by
  have bufs := same.bufs b own
  have beside : ∀ {edited : DMABuffer} buf, owned ch buf →
      Function.update world.bufs b (some edited) buf =
        Function.update other.bufs b (some edited) buf := by
    intro edited buf ownBuf
    simp only [Function.update_apply, same.bufs buf ownBuf]
  have settings : ∀ request, controlWord world.engine.oldRegisters world.engine.useInterrupts request =
      controlWord other.engine.oldRegisters other.engine.useInterrupts request := by
    intro request
    rw [same.oldRegisters, same.useInterrupts]
  obtain ⟨buf, live, ⟨kBuf, kernel, rfl⟩ | ⟨listed, programmed, sent, rfl⟩⟩ :=
    World.start_cases result
  · rw [bufs] at live
    refine ⟨_, World.start_kernel ch request live kBuf kernel, ?_⟩
    have descriptor : (world.engine.prepare ch).kernelDescriptor kBuf request =
        (other.engine.prepare ch).kernelDescriptor kBuf request := by
      simp only [DMAEngineWG.kernelDescriptor, prepare_old_registers, prepare_use_interrupts,
        same.oldRegisters, same.useInterrupts]
    constructor
    · simpa [World.afterKernel, DMAEngineWG.write, DMAEngineWG.setSaved] using same.oldRegisters
    · simpa [World.afterKernel, DMAEngineWG.write, DMAEngineWG.setSaved] using same.useInterrupts
    · simp [World.afterKernel, DMAEngineWG.write, descriptor]
    · simp [World.afterKernel, DMAEngineWG.setSaved]
    · simpa [World.afterKernel, DMAEngineWG.setSaved] using same.savedData
    · exact beside
  · rw [bufs] at live
    rw [settings] at sent
    have alone := World.start_list ch request live listed
    rw [sent] at alone
    refine ⟨_, alone, ?_⟩
    have records : ∀ engine : DMAEngineWG,
        (engine.recordIfSaved ch programmed.saved).saved ch =
            (programmed.saved.isSome || engine.saved ch) ∧
          (engine.recordIfSaved ch programmed.saved).savedData ch =
            programmed.saved.getD (engine.savedData ch) := by
      intro engine
      cases programmed.saved with
      | none => exact ⟨rfl, rfl⟩
      | some record => simp [DMAEngineWG.recordIfSaved, DMAEngineWG.recordSaved]
    have registers := fun engine => (record_registers engine ch programmed.saved).1
    constructor
    · simpa [World.afterList, DMAEngineWG.write, registers] using same.oldRegisters
    · simpa [World.afterList, DMAEngineWG.write] using same.useInterrupts
    · simp [World.afterList, DMAEngineWG.write]
    · simp only [World.afterList, write_saved, (records _).1, prepare_saved, same.saved]
    · simp only [World.afterList, write_saved_data, (records _).2, prepare_saved_data,
        same.savedData]
    · exact beside

theorem restore_alike {restored : World} (same : Agrees owned ch world other)
    (names : NamesOwn owned ch world) (result : world.restoreIfSaved ch = some restored) :
    ∃ alone, other.restoreIfSaved ch = some alone ∧ Agrees owned ch restored alone := by
  rcases World.restore_cases result with ⟨saved, rfl⟩ | ⟨saved, buf, list, live, undone, rfl⟩
  · rw [same.saved] at saved
    exact ⟨other, by rw [World.restoreIfSaved, saved]; rfl, same⟩
  · have own := names saved
    rw [same.saved] at saved
    rw [same.bufs _ own, same.savedData] at live
    rw [same.savedData] at undone
    refine ⟨⟨other.engine.setSaved ch false, Function.update other.bufs
      (other.engine.savedData ch).savedBuf (some { buf with descriptors := list })⟩, ?_, ?_⟩
    · simp only [World.restoreIfSaved, saved, if_true, World.restoreSavedData, live, undone,
        Option.map_some]
      rfl
    · refine ⟨same.oldRegisters, same.useInterrupts, same.channel, ?_, same.savedData, ?_⟩
      · simp [DMAEngineWG.setSaved]
      · intro buf ownBuf
        simp only [Function.update_apply, same.savedData, same.bufs buf ownBuf]

section Waits

variable {Time : Type} [Zero Time] [LT Time] [DecidableLT Time]
variable {timeout : Time} {env : Environment Time} {fuel : ℕ} {waited : Waited}

structure EndAlike (owned : Channel → BufId → Prop) (ch : Channel) (waited alone : Waited) :
    Prop where
  thrown : waited.thrown = alone.thrown
  instant : waited.instant = alone.instant
  agrees : Agrees owned ch waited.world alone.world

theorem finish_alike {thrown : Option Exception} {instant : ℕ} (same : Agrees owned ch world other)
    (names : NamesOwn owned ch world) (result : finish world ch thrown instant = some waited) :
    ∃ alone, finish other ch thrown instant = some alone ∧ EndAlike owned ch waited alone := by
  obtain ⟨restored, restore, rfl⟩ := Option.map_eq_some_iff.mp result
  obtain ⟨alone, again, agrees⟩ := restore_alike same names restore
  exact ⟨⟨thrown, alone, instant⟩, by rw [finish, again]; rfl, rfl, rfl, agrees⟩

/-- How a wait ends is up to its environment; the interrupt-enable register is not read. -/
theorem wait_alike (same : Agrees owned ch world other) (names : NamesOwn owned ch world)
    (result : waitChannel world ch timeout env fuel = some waited) :
    ∃ alone, waitChannel other ch timeout env fuel = some alone ∧
      EndAlike owned ch waited alone := by
  have enabled : ∀ inte inteOther, Agrees owned ch
      ⟨{ world.engine with inte := inte }, world.bufs⟩
      ⟨{ other.engine with inte := inteOther }, other.bufs⟩ := fun _ _ =>
    ⟨same.oldRegisters, same.useInterrupts, same.channel, same.saved, same.savedData, same.bufs⟩
  cases mode : world.engine.useInterrupts with
  | false =>
      have modeOther := same.useInterrupts.symm.trans mode
      rw [wait_polling_eq world ch timeout env mode] at result
      rw [wait_polling_eq other ch timeout env modeOther]
      cases stop : firstStop (pollOnce env timeout) fuel 0 with
      | none => simp [stop] at result
      | some found =>
          rw [stop] at result
          exact finish_alike same names result
  | true =>
      have modeOther := same.useInterrupts.symm.trans mode
      by_cases waiting : Waiting (getStatus (env.register 0))
      · simp only [waitChannel, mode, modeOther, if_true, if_pos waiting] at result ⊢
        cases refused : env.waitiFails with
        | some exception =>
            simp only [refused, Option.some.injEq] at result
            subst result
            exact ⟨_, rfl, rfl, rfl, enabled _ _⟩
        | none =>
            simp only [refused] at result
            cases stop : firstStop (takeInterrupt env) fuel 0 with
            | none => simp [stop] at result
            | some found =>
                simp only [stop, finish_interrupt_eq] at result ⊢
                have woken : Agrees owned ch
                    ⟨(world.engine.enableInterrupt ch).disableInterrupt ch, world.bufs⟩
                    ⟨(other.engine.enableInterrupt ch).disableInterrupt ch, other.bufs⟩ :=
                  enabled _ _
                exact finish_alike woken names result
      · simp only [waitChannel, mode, modeOther, if_true, if_neg waiting, finish_interrupt_eq]
          at result ⊢
        exact finish_alike same names result

theorem behind_start_alike {started alone : World} {lock : Option (Time × Environment Time)}
    (same : Agrees owned ch started alone) (names : NamesOwn owned ch started)
    (result : started.behindStart ch b lock fuel = some waited) :
    ∃ ended, alone.behindStart ch b lock fuel = some ended ∧ EndAlike owned ch waited ended := by
  cases lock with
  | none =>
      cases result
      exact ⟨⟨none, alone, 0⟩, rfl, rfl, rfl, same⟩
  | some wait =>
      obtain ⟨timeout, env⟩ := wait
      rcases channel_cases ch with rfl | rfl
      · rw [World.behindStart, if_pos rfl] at result ⊢
        exact wait_alike same names result
      · rw [World.behindStart, if_neg (by decide), Option.map_eq_some_iff] at result
        obtain ⟨inner, wait, rfl⟩ := result
        have received := agrees_map_buf (b := b) same fun buf => buf.receive env.arrived
        obtain ⟨ended, again, alike⟩ := wait_alike received names wait
        refine ⟨{ ended with world := ended.world.mapBuf b fun buf => buf.sync .fromDevice }, ?_,
          alike.thrown, alike.instant, agrees_map_buf alike.agrees _⟩
        rw [World.behindStart, if_neg (by decide), again]
        rfl

theorem transfer_alike {request : Request} {lock : Option (Time × Environment Time)}
    (same : Agrees owned ch world other) (names : NamesOwn owned ch world) (own : owned ch b)
    (result : world.transfer ch b request lock fuel = some waited) :
    ∃ alone, other.transfer ch b request lock fuel = some alone ∧ EndAlike owned ch waited alone ∧
      world.written ch b request = other.written ch b request := by
  have bufs := same.bufs b own
  cases live : world.bufs b with
  | none =>
      unfold World.transfer World.host2board World.board2host at result
      simp [live] at result
  | some buf =>
      have liveOther := bufs.symm.trans live
      rw [World.transfer_eq live] at result
      rw [World.transfer_eq liveOther, World.written, World.written, live, liveOther]
      cases checked : checkRequest buf request with
      | some exception =>
          simp only [checked, Option.some.injEq] at result
          subst result
          exact ⟨_, rfl, ⟨rfl, rfl, same⟩, by simp only [checked]⟩
      | none =>
          simp only [checked] at result
          obtain ⟨started, start, behind⟩ := Option.bind_eq_some_iff.mp result
          obtain ⟨alone, again, agrees⟩ := start_alike same own start
          obtain ⟨ended, wait, alike⟩ :=
            behind_start_alike agrees ((local_start own start).names names) behind
          refine ⟨ended, ?_, alike, ?_⟩
          · simp only [again, Option.bind_some, wait]
          · simp only [checked, start, again, agrees.channel]

theorem step_alike {call : Channel × ChannelCall Time} {after : World} {outcome : Outcome}
    (same : Agrees owned call.1 world other) (names : NamesOwn owned call.1 world)
    (own : UsesOwn owned call) (result : channelStep Time world call = some (after, outcome)) :
    ∃ alone, channelStep Time other call = some (alone, outcome) ∧
      Agrees owned call.1 after alone := by
  obtain ⟨ch, call⟩ := call
  cases call with
  | transfer b request lock fuel =>
      obtain ⟨waited, transferred, ended⟩ := Option.map_eq_some_iff.mp result
      cases ended
      obtain ⟨alone, again, alike, written⟩ := transfer_alike same names own transferred
      refine ⟨alone.world, ?_, alike.agrees⟩
      simp only [channelStep, World.channelCall, again, Option.map_some, alike.thrown,
        alike.instant, written]
  | getStatus register =>
      cases result
      exact ⟨other, rfl, same⟩
  | waitChannel timeout env fuel =>
      obtain ⟨waited, wait, ended⟩ := Option.map_eq_some_iff.mp result
      cases ended
      obtain ⟨alone, again, alike⟩ := wait_alike same names wait
      refine ⟨alone.world, ?_, alike.agrees⟩
      simp only [channelStep, World.channelCall, again, Option.map_some, alike.thrown,
        alike.instant]

end Waits

end Alike

section Runs

variable {Time : Type} [Zero Time] [LT Time] [DecidableLT Time]
variable {owned : Channel → BufId → Prop}

theorem channels_separated (disjoint : ∀ b, ¬(owned 0 b ∧ owned 1 b)) :
    Separated (channelStep Time) Prod.fst (fun world => ∀ ch, NamesOwn owned ch world)
      (UsesOwn owned) (Agrees owned) := by
  have apart : ∀ {ch watcher : Channel}, ch ≠ watcher → ∀ b, owned watcher b → ¬owned ch b := by
    intro ch watcher differ b own foreign
    rcases channel_cases ch with rfl | rfl <;> rcases channel_cases watcher with rfl | rfl
    · exact differ rfl
    · exact disjoint b ⟨foreign, own⟩
    · exact disjoint b ⟨own, foreign⟩
    · exact differ rfl
  constructor
  · intro world after call outcome names own step ch
    have changed := local_step own (names call.1) step
    by_cases here : ch = call.1
    · subst here
      exact changed.names (names call.1)
    · intro flag
      rw [changed.saved ch here] at flag
      rw [changed.savedData ch here]
      exact names ch flag
  · intro world other after call outcome names own same step
    exact step_alike same (names call.1) own step
  · intro world other after call outcome watcher names own differ same step
    have changed := local_step own (names call.1) step
    constructor
    · exact changed.oldRegisters.trans same.oldRegisters
    · exact changed.useInterrupts.trans same.useInterrupts
    · exact (changed.channel watcher differ.symm).trans same.channel
    · exact (changed.saved watcher differ.symm).trans same.saved
    · exact (changed.savedData watcher differ.symm).trans same.savedData
    · exact fun b ownBuf => (changed.bufs b (apart differ b ownBuf)).trans (same.bufs b ownBuf)

theorem agrees_self (ch : Channel) (world : World) : Agrees owned ch world world :=
  ⟨rfl, rfl, rfl, rfl, rfl, fun _ _ => rfl⟩

variable (Time) in
/-- Of a run over both channels, each channel has what it would have of its own calls: the
same outcomes and register writes call by call, and in the end the same registers, record
and buffers. -/
theorem channels_do_not_interfere (disjoint : ∀ b, ¬(owned 0 b ∧ owned 1 b)) (world : World)
    (names : ∀ ch, NamesOwn owned ch world) (calls : List (Channel × ChannelCall Time))
    (own : ∀ call ∈ calls, UsesOwn owned call) {after : World}
    {outcomes : List ((Channel × ChannelCall Time) × Outcome)}
    (ran : runAll (channelStep Time) world calls = some (after, outcomes)) (ch : Channel) :
    ∃ alone, runAll (channelStep Time) world (calls.filter fun call => call.1 = ch) =
        some (alone, outcomes.filter fun given => given.1.1 = ch) ∧
      Agrees owned ch after alone :=
  (channels_separated disjoint).run ch names own (agrees_self ch world) ran

end Runs

/-- A list for channel 0 and a page of kernel memory for channel 1. -/
def pairWorld : World where
  engine := newEngine
  bufs := fun b => if b = 7 then some twoPages
    else if b = 8 then some ⟨.kernel 0x20000#64, 4096, [], [], []⟩
    else none

def pairOwned (ch : Channel) (b : BufId) : Prop := b = if ch = 0 then 7 else 8

/-- A wait on channel 0 with the transfers of channel 1 in between, one of them rejected. -/
def pairCalls : List (Channel × ChannelCall ℕ) :=
  [(0, .transfer 7 secondPage none 0), (1, .transfer 8 ⟨1, 0x20, 4, 2, true⟩ none 0),
    (0, .getStatus 2), (1, .transfer 8 ⟨1, 0x20, 0, 2, true⟩ none 0),
    (0, .waitChannel 5 (steadyBoard 0) 1)]

theorem channels_do_not_interfere_pair : ∃ after outcomes alone,
    runAll (channelStep ℕ) pairWorld pairCalls = some (after, outcomes) ∧ outcomes.length = 5 ∧
    runAll (channelStep ℕ) pairWorld (pairCalls.filter fun call => call.1 = 0) =
      some (alone, outcomes.filter fun given => given.1.1 = 0) ∧
    Agrees pairOwned 0 after alone := by
  have disjoint : ∀ b, ¬(pairOwned 0 b ∧ pairOwned 1 b) := by
    intro b both
    rcases both with ⟨first, second⟩
    exact absurd (first.symm.trans second) (by decide)
  have own : ∀ call ∈ pairCalls, UsesOwn pairOwned call := by
    simp [pairCalls, UsesOwn, pairOwned]
  obtain ⟨alone, filtered, agrees⟩ := channels_do_not_interfere ℕ disjoint pairWorld
    (fun _ flag => absurd flag Bool.false_ne_true) pairCalls own rfl 0
  exact ⟨_, _, alone, rfl, rfl, filtered, agrees⟩

end FpgaPcie.Mprace
