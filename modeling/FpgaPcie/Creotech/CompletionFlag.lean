import FpgaPcie.Creotech.CharDevice
import FpgaPcie.Creotech.StreamOrder

/-!
# The flag of the interrupt handler

`dma_done` is cleared for the next DMA and set by its interrupt. A stream call clears it before
the card starts, a read or a write behind the start; and the handler wakes nobody up while
`wake` is not set. Both lose an interrupt that comes at the wrong moment.
-/

namespace FpgaPcie.Creotech

open FpgaPcie.Transition

set_option autoImplicit false

structure Quiet (card after : Card) : Prop where
  running : after.running = card.running
  completed : after.completed = card.completed
  dmas : ∃ more, after.dmas = card.dmas ++ more

structure Launches (card after : Card) : Prop where
  running : after.running = card.running ++ [card.dmas.length]
  completed : after.completed = card.completed
  dmas : ∃ dma, after.dmas = card.dmas ++ [dma]

section Card

variable {card after : Card}

theorem Quiet.same (card : Card) : Quiet card card := ⟨rfl, rfl, [], (List.append_nil _).symm⟩

theorem program_quiet (stream : Stream) (offset mapped : U64) :
    Quiet stream.card (stream.programDma offset mapped).card := by
  have programmed := program_dma_card stream offset mapped
  exact ⟨programmed.2.1, programmed.2.2.1, [], programmed.1.trans (List.append_nil _).symm⟩

theorem silent_quiet (stream : Stream) : Quiet stream.card (stream.launchDma false).card := by
  have launched := launch_silent stream
  exact ⟨launched.2.1, launched.2.2, _, launched.1⟩

theorem launch_launches (stream : Stream) :
    Launches stream.card (stream.launchDma true).card := by
  have launched := launch_last stream
  exact ⟨launched.2.1, launched.2.2, _, launched.1⟩

theorem write_launches (stream : Stream) : Launches stream.card stream.launchRead.card := by
  have other : regDdmacr ≠ regDdmacr ∨ bitRdmaStart &&& bitWdmaStart = 0#32 := Or.inr (by decide)
  have idle := write_idle stream.card regDdmacr bitRdmaStart other
  constructor
  · rfl
  · show (stream.card.writeReg regDdmacr bitRdmaStart).completed = stream.card.completed
    rw [idle]
  · exact ⟨_, rfl⟩

def PcieDescr.ownDma (descr : PcieDescr) : Dma :=
  ⟨descr.bufferHwAddr.setWidth 32, descr.tlpSize, descr.tlpCount, true⟩

def ProgrammedOwn (regs : U32 → U32) (dma : Dma) (writes : Bool) : Prop :=
  if writes then
    regs regRdmaTlpA = dma.address ∧ regs regRdmaTlpS = dma.tlpSize ∧ regs regRdmaTlpC = dma.tlpCount
  else
    regs regWdmaTlpA = dma.address ∧ regs regWdmaTlpS = dma.tlpSize ∧ regs regWdmaTlpC = dma.tlpCount

theorem program_write_card (stream : Stream) :
    ∃ regs, stream.programWrite = { stream with card := { stream.card with regs := regs } } ∧
      ProgrammedOwn regs stream.descr.ownDma true := by
  have other : regDdmacr ∉
      [regDcsr, regDcsr, regRdmaTlpC, regRdmaTlpS, regRdmaTlpP, regRdmaTlpA] := by decide
  have card : ∃ regs, stream.programWrite.card = { stream.card with regs := regs } ∧
      ProgrammedOwn regs stream.descr.ownDma true :=
    ⟨_, writes_other _ stream.card other, rfl, rfl, rfl⟩
  rcases card with ⟨regs, is, programmed⟩
  refine ⟨regs, ?_, programmed⟩
  rw [← is]
  rfl

theorem program_read_card (stream : Stream) :
    ∃ regs, stream.programRead = { stream with card := { stream.card with regs := regs } } ∧
      ProgrammedOwn regs stream.descr.ownDma false := by
  have other : regDdmacr ∉
      [regDcsr, regDcsr, regWdmaTlpC, regWdmaTlpS, regWdmaTlpP, regWdmaTlpA] := by decide
  have card : ∃ regs, stream.programRead.card = { stream.card with regs := regs } ∧
      ProgrammedOwn regs stream.descr.ownDma false :=
    ⟨_, writes_other _ stream.card other, rfl, rfl, rfl⟩
  rcases card with ⟨regs, is, programmed⟩
  refine ⟨regs, ?_, programmed⟩
  rw [← is]
  rfl

/-- A read or a write programs the card and leaves the rest of the stream as it is. -/
theorem program_transfer (stream : Stream) (writes : Bool) :
    ∃ regs, (if writes then stream.programWrite else stream.programRead) =
        { stream with card := { stream.card with regs := regs } } ∧
      ProgrammedOwn regs stream.descr.ownDma writes := by
  cases writes with
  | true => exact program_write_card stream
  | false => exact program_read_card stream

theorem Quiet.writes (written : ∃ regs, after = { card with regs := regs }) : Quiet card after := by
  rcases written with ⟨regs, is⟩
  rw [is]
  exact ⟨rfl, rfl, [], (List.append_nil _).symm⟩

theorem Quiet.longer (quiet : Quiet card after) : card.dmas.length ≤ after.dmas.length := by
  rcases quiet.dmas with ⟨more, is⟩
  rw [is, List.length_append]
  exact Nat.le_add_right _ _

theorem Launches.longer (launches : Launches card after) :
    after.dmas.length = card.dmas.length + 1 := by
  rcases launches.dmas with ⟨dma, is⟩
  rw [is, List.length_append, List.length_singleton]

end Card

namespace Point

/-- The flag is cleared for the DMA that is about to be started. -/
def arming : Point → Bool
  | .last _ => true
  | .launch sendInterrupt _ _ => sendInterrupt
  | .check => false
  | .waiting => false
  | .recheck => false
  | .waitingDone => false
  | .select => false
  | .loop _ _ => false
  | .copy => false

def asleep : Point → Bool
  | .waiting => true
  | .waitingDone => true
  | .check => false
  | .recheck => false
  | .select => false
  | .loop _ _ => false
  | .last _ => false
  | .launch _ _ _ => false
  | .copy => false

theorem arming_awake {point : Point} (arms : point.arming = true) : point.asleep = false := by
  cases point with
  | last | launch => rfl
  | check | waiting | recheck | waitingDone | select | loop | copy => cases arms

end Point

def Device.Arms (device : Device) : Prop :=
  ∃ running, device.call = some running ∧ running.point.arming = true

/-- A stream call or a setting starts a DMA, is about to, or leaves the flag as it is; it goes
to sleep only while the flag is not set. -/
inductive FlagStep (device after : Device) : Prop where
  | launches (card : Launches device.stream.card after.stream.card)
  | arms (card : Quiet device.stream.card after.stream.card) (arms : after.Arms)
  | keeps (card : Quiet device.stream.card after.stream.card) (disarmed : ¬device.Arms)
      (done : after.stream.descr.dmaDone = device.stream.descr.dmaDone)
      (sleeps : ∀ running, after.call = some running → running.point.asleep = true →
        device.stream.descr.dmaDone = false)

section Steps

variable {device after : Device} {running : Running} {event : Event}

theorem disarmed_of_point (call : device.call = some running)
    (point : running.point.arming = false) : ¬device.Arms := by
  intro arms
  rcases arms with ⟨other, at_, armed⟩
  rw [call] at at_
  cases at_
  rw [point] at armed
  cases armed

theorem disarmed_of_idle (call : device.call = none) : ¬device.Arms := by
  intro arms
  rcases arms with ⟨other, at_, _⟩
  rw [call] at at_
  cases at_

theorem after_wait_awake (running : Running) : (Device.afterWait running).asleep = false := by
  rcases running with ⟨command, point, retarg⟩
  cases command with
  | startStream | nextStream | endStream => rfl

theorem keeps_awake {stream : Stream} {next : Running} {ret : U32}
    (card : Quiet device.stream.card stream.card) (disarmed : ¬device.Arms)
    (done : stream.descr.dmaDone = device.stream.descr.dmaDone)
    (awake : next.point.asleep = false) : FlagStep device ⟨stream, some next, ret⟩ := by
  apply FlagStep.keeps card disarmed done
  intro other at_ asleep
  cases at_
  rw [awake] at asleep
  cases asleep

theorem keeps_returned {stream : Stream} {ret : U32}
    (card : Quiet device.stream.card stream.card) (disarmed : ¬device.Arms)
    (done : stream.descr.dmaDone = device.stream.descr.dmaDone) :
    FlagStep device ⟨stream, none, ret⟩ := by
  apply FlagStep.keeps card disarmed done
  intro other at_
  cases at_

theorem moves_flag (call : device.call = some running) (moves : Moves device running event after) :
    FlagStep device after := by
  have disarmed : running.point.arming = false → ¬device.Arms := disarmed_of_point call
  have same := Quiet.same device.stream.card
  cases moves with
  | done point is | woken point is | signalled point =>
      refine keeps_awake same (disarmed ?_) rfl (after_wait_awake running)
      rw [point]
      rfl
  | blocks point is | blocksAgain point is =>
      refine .keeps same (disarmed ?_) rfl ?_
      · rw [point]
        rfl
      · intro other at_ asleep
        exact is
  | timedOut point | copies point | faults point =>
      refine keeps_returned same (disarmed ?_) rfl
      rw [point]
      rfl
  | doneAgain point is | wokenAgain point is | signalledAgain point | starts point command
  | turns point command | ends point command =>
      refine keeps_awake same (disarmed ?_) rfl rfl
      rw [point]
      rfl
  | programsSilent left offset dmaAddr point =>
      refine keeps_awake (program_quiet _ _ _) (disarmed ?_) rfl rfl
      rw [point]
      rfl
  | arms offset point => exact .arms same ⟨_, rfl, rfl⟩
  | programs offset dmaAddr point => exact .arms (program_quiet _ _ _) ⟨_, rfl, rfl⟩
  | launchesSilent left offset point =>
      refine keeps_awake (silent_quiet _) (disarmed ?_) rfl rfl
      rw [point]
      rfl
  | opens left offset point command | launches left offset point command =>
      exact .launches (launch_launches _)

theorem sets_flag {request : Request} (idle : device.call = none)
    (sets : Sets device request after) : FlagStep device after := by
  have asleep : ∀ running, device.call = some running → running.point.asleep = true →
      device.stream.descr.dmaDone = false := by
    intro running at_
    rw [idle] at at_
    cases at_
  have same := Quiet.same device.stream.card
  cases sets with
  | resetCard => exact .keeps (.writes (init_device_card _)) (disarmed_of_idle idle) rfl asleep
  | dmaCount | tlpSize | tlpSizeRefused | tlpCount | tlpCountRefused =>
      exact .keeps same (disarmed_of_idle idle) rfl asleep

end Steps

/-- A completed DMA has the flag set until the next one is armed, and nobody sleeps for it. -/
structure FlagKept (state : CharDevice) : Prop where
  kept : ∀ dma, state.latest = some dma → dma ∈ state.device.stream.card.completed →
    state.device.Arms ∨ state.device.stream.descr.dmaDone = true
  streamWakes : ∀ dma running, state.latest = some dma →
    dma ∈ state.device.stream.card.completed → state.device.call = some running →
    running.point.asleep = true →
    state.device.stream.descr.dmaDone = true ∧ state.device.stream.descr.wake = true
  transferWakes : ∀ transfer, state.transfer = some transfer →
    transfer.dma ∈ state.device.stream.card.completed → transfer.point ≠ .asleep ∧
      (transfer.point = .wait → state.device.stream.descr.dmaDone = true)

/-- The interrupt of the DMA that a read or a write has started comes before the flag is
cleared, or that of the DMA waited for comes to a sleeper with `wake` not set. -/
inductive Missed (state : CharDevice) (dma : ℕ) : Prop where
  | cleared (transfer : Transfer) (at_ : state.transfer = some transfer)
      (own : transfer.dma = dma) (point : transfer.point = .clear)
  | transferSleeps (transfer : Transfer) (at_ : state.transfer = some transfer)
      (own : transfer.dma = dma) (point : transfer.point = .asleep)
      (quiet : state.device.stream.descr.wake = false)
  | streamSleeps (running : Running) (call : state.device.call = some running)
      (own : state.latest = some dma) (asleep : running.point.asleep = true)
      (quiet : state.device.stream.descr.wake = false)

def Heard (state : CharDevice) (action : CharAction) : Prop :=
  ∀ dma arg, action = .request (.stream (.interrupt dma)) arg → ¬Missed state dma

def TransferPoint.started : TransferPoint → Bool
  | .clear => true
  | .wait => true
  | .asleep => true
  | .copyOut => true
  | .copyIn => false
  | .program => false
  | .start => false

structure Numbered (card : Card) (latest : Option ℕ) : Prop where
  latest : ∀ dma, latest = some dma → dma < card.dmas.length
  running : ∀ dma ∈ card.running, dma < card.dmas.length
  completed : ∀ dma ∈ card.completed, dma < card.dmas.length

/-- A read or a write has no call beside it, waits for the DMA started last, and does not
sleep for one that has completed. -/
structure Attends (state : CharDevice) (transfer : Transfer) : Prop where
  alone : state.device.call = none
  latest : transfer.point.started = true → state.latest = some transfer.dma
  pending : transfer.point = .clear ∨ transfer.point = .asleep →
    transfer.dma ∉ state.device.stream.card.completed

structure Attended (state : CharDevice) : Prop where
  numbered : Numbered state.device.stream.card state.latest
  kept : ∀ dma, state.latest = some dma → dma ∈ state.device.stream.card.completed →
    state.device.Arms ∨ state.device.stream.descr.dmaDone = true
  streamWakes : ∀ dma running, state.latest = some dma →
    dma ∈ state.device.stream.card.completed → state.device.call = some running →
    running.point.asleep = true →
    state.device.stream.descr.dmaDone = true ∧ state.device.stream.descr.wake = true
  transfer : ∀ transfer, state.transfer = some transfer → Attends state transfer

theorem Attended.flag_kept {state : CharDevice} (attended : Attended state) : FlagKept state := by
  apply FlagKept.mk attended.kept attended.streamWakes
  intro transfer at_ ended
  have attends := attended.transfer transfer at_
  constructor
  · intro asleep
    exact attends.pending (Or.inr asleep) ended
  · intro waits
    have latest := attends.latest (by rw [waits]; rfl)
    rcases attended.kept transfer.dma latest ended with arms | done
    · exact absurd arms (disarmed_of_idle attends.alone)
    · exact done

section Numbers

variable {card after : Card} {latest : Option ℕ}

theorem Numbered.quiet (numbered : Numbered card latest) (quiet : Quiet card after) :
    Numbered after latest := by
  constructor
  · intro dma is
    exact (numbered.latest dma is).trans_le quiet.longer
  · rw [quiet.running]
    intro dma runs
    exact (numbered.running dma runs).trans_le quiet.longer
  · rw [quiet.completed]
    intro dma ended
    exact (numbered.completed dma ended).trans_le quiet.longer

theorem Numbered.forget (numbered : Numbered card latest) : Numbered card none := by
  constructor
  · intro dma is
    cases is
  · exact numbered.running
  · exact numbered.completed

theorem Numbered.launched (numbered : Numbered card latest) (launches : Launches card after) :
    Numbered after (some card.dmas.length) := by
  constructor
  · intro dma is
    cases is
    rw [launches.longer]
    exact Nat.lt_succ_self _
  · rw [launches.running, launches.longer]
    intro dma runs
    rw [List.mem_append, List.mem_singleton] at runs
    rcases runs with before | new
    · exact (numbered.running dma before).trans (Nat.lt_succ_self _)
    · rw [new]
      exact Nat.lt_succ_self _
  · rw [launches.completed, launches.longer]
    intro dma ended
    exact (numbered.completed dma ended).trans (Nat.lt_succ_self _)

theorem Numbered.interrupted (numbered : Numbered card latest) {dma : ℕ}
    (runs : dma ∈ card.running) :
    Numbered { card with
      running := card.running.erase dma
      completed := dma :: card.completed } latest := by
  constructor
  · exact numbered.latest
  · intro other member
    exact numbered.running other (List.mem_of_mem_erase member)
  · intro other ended
    rcases List.mem_cons.mp ended with this | before
    · rw [this]
      exact numbered.running dma runs
    · exact numbered.completed other before

theorem Numbered.fresh (numbered : Numbered card latest) (launches : Launches card after) :
    card.dmas.length ∉ after.completed := by
  rw [launches.completed]
  intro ended
  exact Nat.lt_irrefl _ (numbered.completed _ ended)

end Numbers

section Steps

variable {state : CharDevice}

theorem launched_quiet {card : Card} (quiet : Quiet state.device.stream.card card) :
    state.launched card = state := by
  rw [CharDevice.launched, quiet.running, if_neg (Nat.lt_irrefl _)]

theorem launched_new {card : Card} (launches : Launches state.device.stream.card card) :
    state.launched card = { state with latest := some state.device.stream.card.dmas.length } := by
  have longer : state.device.stream.card.running.length < card.running.length := by
    rw [launches.running, List.length_append, List.length_singleton]
    exact Nat.lt_succ_self _
  rw [CharDevice.launched, if_pos longer]

theorem Attended.served (attended : Attended state) (idle : state.transfer = none)
    {after : Device} (step : FlagStep state.device after) (request : Request) (arg : U64) :
    Attended (state.serve request arg after) := by
  cases step with
  | launches card =>
      have fresh := attended.numbered.fresh card
      rw [CharDevice.serve, launched_new card]
      constructor
      · exact attended.numbered.launched card
      · intro dma is ended
        cases is
        exact absurd ended fresh
      · intro dma running is ended
        cases is
        exact absurd ended fresh
      · intro transfer at_
        cases idle.symm.trans at_
  | arms card arms =>
      rw [CharDevice.serve, launched_quiet card]
      constructor
      · exact attended.numbered.quiet card
      · intro dma is ended
        exact Or.inl arms
      · intro dma running is ended call asleep
        rcases arms with ⟨other, at_, arms⟩
        cases call.symm.trans at_
        rw [Point.arming_awake arms] at asleep
        cases asleep
      · intro transfer at_
        cases idle.symm.trans at_
  | keeps card disarmed done sleeps =>
      have kept : ∀ dma, state.latest = some dma → dma ∈ after.stream.card.completed →
          state.device.stream.descr.dmaDone = true := by
        intro dma is ended
        rw [card.completed] at ended
        exact (attended.kept dma is ended).resolve_left disarmed
      rw [CharDevice.serve, launched_quiet card]
      constructor
      · exact attended.numbered.quiet card
      · intro dma is ended
        exact Or.inr (done.trans (kept dma is ended))
      · intro dma running is ended call asleep
        have set := kept dma is ended
        rw [sleeps running call asleep] at set
        cases set
      · intro transfer at_
        cases idle.symm.trans at_

theorem woken_up {transfer woken : Transfer} {wake : Bool} {waiting : Option Transfer}
    (at_ : (if wake then waiting.map Transfer.wakeUp else waiting) = some woken)
    (before : waiting = some transfer) :
    woken.dma = transfer.dma ∧ (woken.point.started = true → transfer.point.started = true) ∧
      (woken.point = .clear → transfer.point = .clear) ∧
      (woken.point = .asleep → transfer.point = .asleep ∧ wake = false) := by
  rw [before] at at_
  cases wake with
  | true =>
      rw [if_pos rfl, Option.map_some, Transfer.wakeUp, Option.some.injEq] at at_
      split at at_
      · subst at_
        rename_i asleep
        refine ⟨rfl, ?_, ?_, ?_⟩
        · intro _
          rw [asleep]
          rfl
        · intro point
          cases point
        · intro point
          cases point
      · subst at_
        rename_i awake
        exact ⟨rfl, id, id, fun asleep => absurd asleep awake⟩
  | false =>
      cases at_
      exact ⟨rfl, id, id, fun asleep => ⟨asleep, rfl⟩⟩

theorem Attended.interrupted (attended : Attended state) {dma : ℕ} {stream : Stream}
    (comes : state.device.stream.interrupt dma = some stream) (heard : ¬Missed state dma) :
    Attended (state.strike { state.device with stream := stream }) := by
  simp only [Stream.interrupt, Option.ite_none_right_eq_some, Option.some.injEq] at comes
  rcases comes with ⟨runs, is⟩
  subst is
  constructor
  · exact attended.numbered.interrupted runs
  · intro other is ended
    exact Or.inr rfl
  · intro other running is ended call asleep
    apply And.intro rfl
    rcases List.mem_cons.mp ended with this | before
    · subst this
      cases quiet : state.device.stream.descr.wake with
      | true => exact quiet
      | false => exact absurd (.streamSleeps running call is asleep quiet) heard
    · exact (attended.streamWakes other running is before call asleep).2
  · intro woken at_
    cases before : state.transfer with
    | none =>
        simp only [CharDevice.strike, before, Option.map_none, ite_self] at at_
        cases at_
    | some transfer =>
        have attends := attended.transfer transfer before
        have up := woken_up at_ before
        constructor
        · exact attends.alone
        · intro started
          rw [up.1]
          exact attends.latest (up.2.1 started)
        · intro point ended
          rw [up.1] at ended
          rcases List.mem_cons.mp ended with own | earlier
          · rcases point with clear | asleep
            · exact heard (.cleared transfer before own (up.2.2.1 clear))
            · have sleeps := up.2.2.2 asleep
              exact heard (.transferSleeps transfer before own sleeps.1 sleeps.2)
          · rcases point with clear | asleep
            · exact attends.pending (Or.inl (up.2.2.1 clear)) earlier
            · exact attends.pending (Or.inr (up.2.2.2 asleep).1) earlier

section Transfers

variable {transfer : Transfer} {event : Event} {after : CharDevice}

theorem start_launches (transfer : Transfer) :
    Launches state.device.stream.card (state.start transfer).device.stream.card := by
  rcases transfer with ⟨writes, point, count, dma⟩
  cases writes with
  | true => exact write_launches _
  | false => exact launch_launches _

theorem attended_alone (call : after.device.call = none)
    (numbered : Numbered after.device.stream.card after.latest)
    (kept : ∀ dma, after.latest = some dma → dma ∈ after.device.stream.card.completed →
      after.device.stream.descr.dmaDone = true)
    (transfer : ∀ transfer, after.transfer = some transfer → Attends after transfer) :
    Attended after := by
  constructor
  · exact numbered
  · intro dma is ended
    exact Or.inr (kept dma is ended)
  · intro dma running is ended at_
    cases call.symm.trans at_
  · exact transfer

theorem attends_unstarted (alone : state.device.call = none)
    (point : transfer.point.started = false) : Attends state transfer := by
  constructor
  · exact alone
  · intro started
    rw [point] at started
    cases started
  · intro pending
    rcases pending with clear | asleep
    · rw [clear] at point
      cases point
    · rw [asleep] at point
      cases point

theorem attends_awake (alone : state.device.call = none) (own : state.latest = some transfer.dma)
    (clear : transfer.point ≠ .clear) (asleep : transfer.point ≠ .asleep) :
    Attends state transfer := by
  constructor
  · exact alone
  · intro _
    exact own
  · intro pending
    exact absurd pending (not_or.mpr ⟨clear, asleep⟩)

theorem Attended.transfers (attended : Attended state) (at_ : state.transfer = some transfer)
    (step : Transfers state transfer event after) : Attended after := by
  have attends := attended.transfer transfer at_
  have alone := attends.alone
  have out : TransferPoint.copyOut ≠ .clear ∧ TransferPoint.copyOut ≠ .asleep := by decide
  have kept : ∀ dma, state.latest = some dma → dma ∈ state.device.stream.card.completed →
      state.device.stream.descr.dmaDone = true := by
    intro dma is ended
    exact (attended.kept dma is ended).resolve_left (disarmed_of_idle alone)
  cases step with
  | copiesIn point =>
      refine attended_alone alone attended.numbered kept ?_
      intro next is
      cases is
      exact attends_unstarted alone rfl
  | programs point =>
      rcases program_transfer state.device.stream transfer.writes with ⟨regs, is, _⟩
      rw [is]
      refine attended_alone alone (attended.numbered.quiet (.writes ⟨regs, rfl⟩)) kept ?_
      intro next at_
      cases at_
      exact attends_unstarted alone rfl
  | starts point =>
      have launches := @start_launches state transfer
      have fresh := attended.numbered.fresh launches
      refine attended_alone alone (attended.numbered.launched launches) ?_ ?_
      · intro dma is ended
        cases is
        exact absurd ended fresh
      · intro next is
        cases is
        exact ⟨alone, fun _ => rfl, fun _ => fresh⟩
  | clears point =>
      have own := attends.latest (by rw [point]; rfl)
      have pending := attends.pending (Or.inl point)
      refine attended_alone alone attended.numbered ?_ ?_
      · intro dma is ended
        cases own.symm.trans is
        exact absurd ended pending
      · intro next is
        cases is
        exact ⟨alone, fun _ => own, fun _ => pending⟩
  | done point is =>
      have own := attends.latest (by rw [point]; rfl)
      refine attended_alone alone attended.numbered kept ?_
      intro next is
      cases is
      exact attends_awake alone own out.1 out.2
  | sleeps point is =>
      have own := attends.latest (by rw [point]; rfl)
      refine attended_alone alone attended.numbered kept ?_
      intro next at_
      cases at_
      constructor
      · exact alone
      · intro _
        exact own
      · intro _ ended
        have set := kept transfer.dma own ended
        rw [is] at set
        cases set
  | signalled point =>
      have started : transfer.point.started = true := by
        rcases point with waits | asleep
        · rw [waits]
          rfl
        · rw [asleep]
          rfl
      have own := attends.latest started
      refine attended_alone alone attended.numbered kept ?_
      intro next at_
      cases at_
      exact attends_awake alone own out.1 out.2
  | finishes point =>
      refine attended_alone alone attended.numbered kept ?_
      intro next is
      cases is

end Transfers

theorem Attended.step (attended : Attended state) {action : CharAction} {after : CharDevice}
    (heard : Heard state action) (moves : CharMoves state action after) : Attended after := by
  have kept : state.device.call = none → ∀ dma, state.latest = some dma →
      dma ∈ state.device.stream.card.completed → state.device.stream.descr.dmaDone = true := by
    intro alone dma is ended
    exact (attended.kept dma is ended).resolve_left (disarmed_of_idle alone)
  cases moves with
  | interrupts dma arg stream comes => exact attended.interrupted comes (heard dma arg rfl)
  | begins command arg idle call =>
      refine attended.served idle ?_ _ arg
      apply keeps_awake (Quiet.same _) (disarmed_of_idle call) rfl
      cases command with
      | startStream | nextStream | endStream => rfl
  | moves event arg running after idle call step =>
      exact attended.served idle (moves_flag call step) _ arg
  | sets request arg after idle call step =>
      exact attended.served idle (sets_flag call step) _ arg
  | memsets arg idle call | refuses idle call =>
      refine attended_alone call attended.numbered (kept call) ?_
      intro next at_
      cases idle.symm.trans at_
  | reads count user idle call | writes count user idle call =>
      refine attended_alone call attended.numbered (kept call) ?_
      intro next at_
      cases at_
      exact attends_unstarted call rfl
  | transfers event transfer after at_ step => exact attended.transfers at_ step
  | arrives dma index value started there writes running inside =>
      constructor
      · exact attended.numbered
      · exact attended.kept
      · exact attended.streamWakes
      · intro transfer at_
        have attends := attended.transfer transfer at_
        exact ⟨attends.alone, attends.latest, attends.pending⟩

end Steps

theorem probed_attended {state : CharDevice} (probed : ProbedChar state) : Attended state := by
  have noDmas := probed.device.noDmas
  have latest := probed.records.1
  constructor
  · constructor
    · intro dma is
      cases latest.symm.trans is
    · rw [noDmas.2.1]
      exact List.forall_mem_nil _
    · rw [noDmas.2.2]
      exact List.forall_mem_nil _
  · intro dma is
    cases latest.symm.trans is
  · intro dma running is
    cases latest.symm.trans is
  · intro transfer at_
    cases probed.transfer.symm.trans at_

/-- Where no interrupt comes at the wrong moment, none is lost. -/
theorem interrupts_kept {state : CharDevice} (reached : charSystem.ReachableUnder Heard state) :
    FlagKept state := by
  have attended : Attended state := by
    apply System.invariant_under _ _ reached
    · intro start probed
      exact probed_attended probed
    · intro before action after attended heard step
      exact attended.step heard (char_cases step)
  exact attended.flag_kept

def probedChar : CharDevice := ⟨probedDevice, none, fun _ => 0#8, fun _ => 0#8, none, []⟩

theorem probed_char : ProbedChar probedChar :=
  ⟨⟨by decide, ⟨rfl, rfl, rfl⟩, ⟨rfl, rfl⟩, ⟨rfl, rfl⟩⟩, rfl, rfl, rfl⟩

def charAfter (actions : List CharAction) : CharDevice :=
  (charSystem.runFrom probedChar actions).getD probedChar

def streamStarted : List CharAction := startCall.map fun action => .request (.stream action) 0#64

def charInterrupt (dma : ℕ) : CharAction := .request (.stream (.interrupt dma)) 0#64

def readStarted : List CharAction :=
  [.read 4096#64 fun _ => 0#8, .proceed .plain, .proceed .plain]

def readSleeps : List CharAction := [.proceed .plain, .proceed .plain]

theorem interrupts_kept_start :
    FlagKept (charAfter (streamStarted ++ [charInterrupt 0])) := by
  apply interrupts_kept
  have started : charSystem.ReachableUnder Heard (charAfter streamStarted) := by
    apply System.reachable_of_run streamStarted (.start probed_char)
    · intro state action member dma arg is
      subst is
      simp [streamStarted, startCall] at member
    · rfl
  have step : charSystem.step (charAfter streamStarted) (charInterrupt 0) =
      some (charAfter (streamStarted ++ [charInterrupt 0])) := rfl
  apply started.next _ step
  intro dma arg is missed
  cases missed with
  | cleared transfer at_ | transferSleeps transfer at_ => cases at_
  | streamSleeps running call => cases call

/-- A read misses the interrupt of its DMA when that comes before the flag is cleared; and when
no stream was started before, it is not woken up. -/
theorem interrupt_lost :
    (∃ after, charSystem.runFrom probedChar
        (streamStarted ++ charInterrupt 0 :: readStarted ++ charInterrupt 1 :: readSleeps) =
          some after ∧ after.latest = some 1 ∧ 1 ∈ after.device.stream.card.completed ∧
      after.device.stream.descr.dmaDone = false ∧ ¬FlagKept after) ∧
    ∃ after, charSystem.runFrom probedChar (readStarted ++ readSleeps ++ [charInterrupt 0]) =
        some after ∧ 0 ∈ after.device.stream.card.completed ∧
      after.device.stream.descr.dmaDone = true ∧ ¬FlagKept after := by
  constructor
  · refine ⟨_, rfl, rfl, List.mem_cons_self, rfl, ?_⟩
    intro flagKept
    have wakes := flagKept.transferWakes ⟨false, .asleep, 4096#64, 1⟩ rfl List.mem_cons_self
    exact wakes.1 rfl
  · refine ⟨_, rfl, List.mem_cons_self, rfl, ?_⟩
    intro flagKept
    have wakes := flagKept.transferWakes ⟨false, .asleep, 4096#64, 0⟩ rfl List.mem_cons_self
    exact wakes.1 rfl

end FpgaPcie.Creotech
