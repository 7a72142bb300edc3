import FpgaPcie.Creotech.SettingsFrame

/-!
# What a read or a write transfers

`fpga_char_read` and `fpga_char_write` copy 4096 bytes and return that number, whatever the
caller's count is and whatever the settings tell the card. The bytes that the card has written
are kept on record, and a call is compared with those of its DMA.
-/

namespace FpgaPcie.Creotech

open FpgaPcie.Transition

set_option autoImplicit false

abbrev Landed := ℕ → ℕ → Option U8

def Landed.record (landed : Landed) : CharAction → Landed
  | .arrive dma byte value =>
      Function.update landed dma (Function.update (landed dma) byte (some value))
  | .request _ _ => landed
  | .memsetWriteBuffer _ => landed
  | .unknown => landed
  | .read _ _ => landed
  | .write _ _ => landed
  | .proceed _ => landed

def landedSystem : System (CharDevice × Landed) CharAction :=
  charSystem.observing (fun _ _ => none) fun _ action landed => landed.record action

/-- The call at work has its bytes in the buffer, where another DMA would overwrite them. -/
def Crosses (state : CharDevice) (dma : ℕ) : Prop :=
  ∃ transfer, state.transfer = some transfer ∧
    if transfer.writes then transfer.point ≠ .copyIn
    else transfer.point.started = true ∧ transfer.dma ≠ dma

/-- The card raises the interrupt of a DMA that writes memory when all its bytes are there; and
while a read or a write is at work no other DMA writes where that has its bytes. -/
structure Faithful (pair : CharDevice × Landed) (action : CharAction) : Prop where
  complete : ∀ dma arg, action = .request (.stream (.interrupt dma)) arg → dma ∉ pair.1.reads →
    ∀ started, pair.1.device.stream.card.dmas[dma]? = some started →
      ∀ byte < started.bytes, (pair.2 dma byte).isSome
  apart : ∀ dma byte value, action = .arrive dma byte value → Crosses pair.1 dma →
    ∀ index < transferLength, ¬Targets pair.1 action index

def Touches (state : CharDevice) (transfer : Transfer) (index : ℕ) : Prop :=
  if transfer.writes then
    ∃ user : Bytes, (∀ other, other ≠ index → user other = state.user other) ∧
      ({ state with user := user }.copyIn transfer).buffer ≠ (state.copyIn transfer).buffer
  else
    ∃ buffer : Bytes, ({ state with buffer := buffer }.finish transfer).user index ≠ state.user index

def CharDevice.returns (state : CharDevice) (transfer : Transfer) : ℕ :=
  (state.finish transfer).device.ret.toNat

/-- A call that is about to return keeps to the user's count; as many bytes as it returns are
the first of a completed DMA. -/
structure Honours (state : CharDevice) (landed : Landed) (transfer : Transfer) : Prop where
  touches : ∀ index, Touches state transfer index → index < transfer.count.toNat
  returns : state.returns transfer ≤ transfer.count.toNat
  completed : transfer.dma ∈ state.device.stream.card.completed
  within : ∃ started, state.device.stream.card.dmas[transfer.dma]? = some started ∧
    started.address.toNat = state.device.stream.descr.bufferHwAddr.toNat ∧
    state.returns transfer ≤ started.bytes
  read : transfer.writes = false → ∀ index < state.returns transfer,
    landed transfer.dma index = some ((state.finish transfer).user index)
  written : transfer.writes = true → ∀ index < state.returns transfer,
    state.buffer index = state.user index

theorem byte_other (value : U8) : value + 1#8 ≠ value := by
  intro same
  bv_omega

theorem touches_iff (state : CharDevice) (transfer : Transfer) (index : ℕ) :
    Touches state transfer index ↔ index < transferLength := by
  rcases transfer with ⟨writes, point, count, dma⟩
  cases writes with
  | true =>
      constructor
      · intro touches
        rcases touches with ⟨user, others, differs⟩
        by_contra outside
        apply differs
        funext other
        show (if other < transferLength then user other else state.buffer other) =
          if other < transferLength then state.user other else state.buffer other
        split
        · apply others
          omega
        · rfl
      · intro inside
        refine ⟨Function.update state.user index (state.user index + 1#8), ?_, ?_⟩
        · intro other elsewhere
          exact Function.update_of_ne elsewhere _ _
        · intro same
          have here : (if index < transferLength then
              Function.update state.user index (state.user index + 1#8) index
            else state.buffer index) =
              if index < transferLength then state.user index else state.buffer index :=
            congrFun same index
          rw [if_pos inside, if_pos inside, Function.update_self] at here
          exact byte_other _ here
  | false =>
      constructor
      · intro touches
        rcases touches with ⟨buffer, differs⟩
        by_contra outside
        exact differs (copy_other state.user buffer outside)
      · intro inside
        refine ⟨fun _ => state.user index + 1#8, ?_⟩
        show (if index < transferLength then state.user index + 1#8 else state.user index) ≠ _
        rw [if_pos inside]
        exact byte_other _

structure Carries (state : CharDevice) (landed : Landed) (transfer : Transfer) : Prop where
  alone : state.device.call = none
  programmed : transfer.point = .start →
    ProgrammedOwn state.device.stream.card.regs state.device.stream.descr.ownDma transfer.writes
  started : transfer.point.started = true → state.device.stream.card.dmas[transfer.dma]? =
      some state.device.stream.descr.ownDma ∧ (transfer.dma ∈ state.reads ↔ transfer.writes = true)
  copied : transfer.writes = true → transfer.point ≠ .copyIn → ∀ index < transferLength,
    state.buffer index = state.user index
  landed : transfer.writes = false → transfer.point.started = true →
    ∀ index < transferLength, ∀ value, landed transfer.dma index = some value →
      state.buffer index = value

structure Delivers (state : CharDevice) (landed : Landed) : Prop where
  low : state.device.stream.descr.bufferHwAddr.toNat + 2 * bufSize ≤ 2 ^ 32
  numbered : Numbered state.device.stream.card none
  reads : ∀ dma ∈ state.reads, dma < state.device.stream.card.dmas.length
  fresh : ∀ dma, state.device.stream.card.dmas.length ≤ dma → ∀ byte, landed dma byte = none
  complete : ∀ dma ∈ state.device.stream.card.completed, dma ∉ state.reads →
    ∀ started, state.device.stream.card.dmas[dma]? = some started →
      ∀ byte < started.bytes, (landed dma byte).isSome
  transfer : ∀ transfer, state.transfer = some transfer → Carries state landed transfer

section Calls

variable {state : CharDevice} {landed : Landed} {transfer : Transfer}

theorem own_address (low : state.device.stream.descr.bufferHwAddr.toNat + 2 * bufSize ≤ 2 ^ 32) :
    state.device.stream.descr.ownDma.address.toNat =
      state.device.stream.descr.bufferHwAddr.toNat := by
  have size : 0 < bufSize := by decide
  rw [PcieDescr.ownDma, BitVec.toNat_setWidth]
  apply Nat.mod_eq_of_lt
  omega

theorem Delivers.honours_iff (delivers : Delivers state landed) (at_ : state.transfer = some transfer)
    (point : transfer.point = .copyOut) :
    Honours state landed transfer ↔ transferLength ≤ transfer.count.toNat ∧
      transferLength ≤ state.device.stream.descr.bytes ∧
      transfer.dma ∈ state.device.stream.card.completed := by
  have carries := delivers.transfer transfer at_
  have started : transfer.point.started = true := by
    rw [point]
    rfl
  have own := carries.started started
  have returns : state.returns transfer = transferLength := by
    rw [CharDevice.returns, CharDevice.finish]
    rfl
  constructor
  · intro honours
    refine ⟨?_, ?_, honours.completed⟩
    · rw [← returns]
      exact honours.returns
    · rcases honours.within with ⟨dma, there, _, bytes⟩
      rw [own.1] at there
      cases there
      rw [returns] at bytes
      exact bytes
  · intro holds
    rcases holds with ⟨count, bytes, completed⟩
    constructor
    · intro index touches
      exact ((touches_iff state transfer index).mp touches).trans_le count
    · rw [returns]
      exact count
    · exact completed
    · refine ⟨_, own.1, own_address delivers.low, ?_⟩
      rw [returns]
      exact bytes
    · rw [returns]
      intro reads index inside
      have card : transfer.dma ∉ state.reads := by
        intro member
        rw [own.2.mp member] at reads
        cases reads
      have arrived := delivers.complete _ completed card _ own.1 index (inside.trans_le bytes)
      rcases Option.isSome_iff_exists.mp arrived with ⟨value, there⟩
      have here := carries.landed reads started index inside value there
      have user : (state.finish transfer).user index = state.buffer index := by
        rw [CharDevice.finish, reads]
        show (if index < transferLength then state.buffer index else state.user index) = _
        rw [if_pos inside]
      rw [user, here, there]
    · rw [returns]
      intro writes
      apply carries.copied writes
      rw [point]
      intro same
      cases same

end Calls

section Steps

variable {state after : CharDevice} {landed : Landed}

theorem Delivers.grown (delivers : Delivers state landed)
    (buffer : after.device.stream.descr.bufferHwAddr = state.device.stream.descr.bufferHwAddr)
    (numbered : Numbered after.device.stream.card none)
    (dmas : ∃ more, after.device.stream.card.dmas = state.device.stream.card.dmas ++ more)
    (completed : after.device.stream.card.completed = state.device.stream.card.completed)
    (kept : ∀ dma ∈ state.reads, dma ∈ after.reads)
    (reads : ∀ dma ∈ after.reads, dma < after.device.stream.card.dmas.length)
    (transfer : ∀ transfer, after.transfer = some transfer → Carries after landed transfer) :
    Delivers after landed := by
  rcases dmas with ⟨more, is⟩
  constructor
  · rw [buffer]
    exact delivers.low
  · exact numbered
  · exact reads
  · intro dma beyond
    rw [is, List.length_append] at beyond
    apply delivers.fresh
    omega
  · rw [completed, is]
    intro dma ended writes started there
    rw [List.getElem?_append_left (delivers.numbered.completed dma ended)] at there
    exact delivers.complete dma ended (fun member => writes (kept dma member)) started there
  · exact transfer

theorem moves_buffer {device after : Device} {running : Running} {event : Event}
    (moves : Moves device running event after) :
    after.stream.descr.bufferHwAddr = device.stream.descr.bufferHwAddr := by
  cases moves with
  | done | blocks | woken | timedOut | signalled | doneAgain | blocksAgain | wokenAgain
  | signalledAgain | starts | turns | ends | programsSilent | arms | programs | launchesSilent
  | opens | launches | copies | faults => rfl

theorem sets_buffer {device after : Device} {request : Request}
    (sets : Sets device request after) :
    after.stream.descr.bufferHwAddr = device.stream.descr.bufferHwAddr := by
  cases sets with
  | resetCard | dmaCount | tlpSize | tlpSizeRefused | tlpCount | tlpCountRefused => rfl

theorem serve_reads (state : CharDevice) (request : Request) (arg : U64) (after : Device) :
    (state.serve request arg after).reads = state.reads := by
  rw [CharDevice.serve, CharDevice.launched]
  split
  · rfl
  · rfl

theorem Delivers.served (delivers : Delivers state landed) (idle : state.transfer = none)
    {after : Device} (step : FlagStep state.device after)
    (buffer : after.stream.descr.bufferHwAddr = state.device.stream.descr.bufferHwAddr)
    (request : Request) (arg : U64) : Delivers (state.serve request arg after) landed := by
  have card : Numbered after.stream.card none ∧
      (∃ more, after.stream.card.dmas = state.device.stream.card.dmas ++ more) ∧
      after.stream.card.completed = state.device.stream.card.completed := by
    cases step with
    | launches card =>
        rcases card.dmas with ⟨dma, is⟩
        exact ⟨(delivers.numbered.launched card).forget, ⟨_, is⟩, card.completed⟩
    | arms card arms => exact ⟨delivers.numbered.quiet card, card.dmas, card.completed⟩
    | keeps card disarmed done sleeps =>
        exact ⟨delivers.numbered.quiet card, card.dmas, card.completed⟩
  have longer : state.device.stream.card.dmas.length ≤ after.stream.card.dmas.length := by
    rcases card.2.1 with ⟨more, is⟩
    rw [is, List.length_append]
    exact Nat.le_add_right _ _
  apply delivers.grown buffer card.1 card.2.1 card.2.2
  · rw [serve_reads]
    exact fun dma member => member
  · rw [serve_reads]
    intro dma member
    exact (delivers.reads dma member).trans_le longer
  · intro transfer at_
    rw [serve_transfer, idle] at at_
    cases at_

structure SameBytes (state after : CharDevice) : Prop where
  call : after.device.call = state.device.call
  regs : after.device.stream.card.regs = state.device.stream.card.regs
  dmas : after.device.stream.card.dmas = state.device.stream.card.dmas
  own : after.device.stream.descr.ownDma = state.device.stream.descr.ownDma
  reads : after.reads = state.reads
  buffer : after.buffer = state.buffer
  user : after.user = state.user

section Transfers

variable {transfer : Transfer} {event : Event}

theorem Carries.same (carries : Carries state landed transfer) (same : SameBytes state after) :
    Carries after landed transfer := by
  constructor
  · rw [same.call]
    exact carries.alone
  · rw [same.regs, same.own]
    exact carries.programmed
  · rw [same.dmas, same.own, same.reads]
    exact carries.started
  · rw [same.buffer, same.user]
    exact carries.copied
  · rw [same.buffer]
    exact carries.landed

theorem Carries.goes (carries : Carries state landed transfer) {point : TransferPoint}
    (started : transfer.point.started = true) (later : point.started = true) :
    Carries state landed (transfer.at point) := by
  constructor
  · exact carries.alone
  · intro starts
    change point = .start at starts
    rw [starts] at later
    cases later
  · intro _
    exact carries.started started
  · intro writes _
    apply carries.copied writes
    intro copies
    rw [copies] at started
    cases started
  · intro reads _
    exact carries.landed reads started

theorem Carries.woken (carries : Carries state landed transfer) :
    Carries state landed transfer.wakeUp := by
  rw [Transfer.wakeUp]
  split
  · rename_i asleep
    apply carries.goes _ rfl
    rw [asleep]
    rfl
  · exact carries

theorem Delivers.interrupted (delivers : Delivers state landed) {dma : ℕ} {stream : Stream}
    (comes : state.device.stream.interrupt dma = some stream)
    (complete : dma ∉ state.reads → ∀ started,
      state.device.stream.card.dmas[dma]? = some started →
        ∀ byte < started.bytes, (landed dma byte).isSome) :
    Delivers (state.strike { state.device with stream := stream }) landed := by
  simp only [Stream.interrupt, Option.ite_none_right_eq_some, Option.some.injEq] at comes
  rcases comes with ⟨runs, is⟩
  subst is
  constructor
  · exact delivers.low
  · exact delivers.numbered.interrupted runs
  · exact delivers.reads
  · exact delivers.fresh
  · intro other ended
    rcases List.mem_cons.mp ended with this | before
    · rw [this]
      exact complete
    · exact delivers.complete other before
  · intro woken at_
    have carries : Carries state landed woken := by
      cases before : state.transfer with
      | none =>
          simp only [CharDevice.strike, before, Option.map_none, ite_self] at at_
          cases at_
      | some transfer =>
          have carries := delivers.transfer transfer before
          simp only [CharDevice.strike, before, Option.map_some] at at_
          split at at_
          · cases at_
            exact carries.woken
          · cases at_
            exact carries
    exact carries.same ⟨rfl, rfl, rfl, rfl, rfl, rfl, rfl⟩

/-- The card is not started, and no byte of the user is copied into the buffer. -/
theorem Delivers.transferred (delivers : Delivers state landed)
    (stream : after.device.stream.card = state.device.stream.card)
    (buffer : after.device.stream.descr.bufferHwAddr = state.device.stream.descr.bufferHwAddr)
    (reads : after.reads = state.reads)
    (transfer : ∀ transfer, after.transfer = some transfer → Carries after landed transfer) :
    Delivers after landed := by
  apply delivers.grown buffer
  · rw [stream]
    exact delivers.numbered
  · rw [stream]
    exact ⟨[], (List.append_nil _).symm⟩
  · rw [stream]
  · rw [reads]
    exact fun dma member => member
  · rw [stream, reads]
    exact delivers.reads
  · exact transfer

theorem start_descr (transfer : Transfer) :
    (state.start transfer).device.stream.descr = state.device.stream.descr := by
  rcases transfer with ⟨writes, point, count, dma⟩
  cases writes with
  | true => rfl
  | false => rfl

theorem start_dmas (programmed : ProgrammedOwn state.device.stream.card.regs
      state.device.stream.descr.ownDma transfer.writes) :
    (state.start transfer).device.stream.card.dmas =
      state.device.stream.card.dmas ++ [state.device.stream.descr.ownDma] := by
  rcases transfer with ⟨writes, point, count, dma⟩
  cases writes with
  | true =>
      rcases programmed with ⟨address, size, packets⟩
      show state.device.stream.card.dmas ++ [_] = _
      rw [address, size, packets]
      rfl
  | false =>
      rcases programmed with ⟨address, size, packets⟩
      apply (launch_last state.device.stream).1.trans
      rw [address, size, packets]
      rfl

theorem Delivers.starts (delivers : Delivers state landed) (at_ : state.transfer = some transfer)
    (point : transfer.point = .start) : Delivers (state.start transfer) landed := by
  have carries := delivers.transfer transfer at_
  have launches := @start_launches state transfer
  have dmas := start_dmas (carries.programmed point)
  have last : state.device.stream.card.dmas.length ∉ state.reads := by
    intro member
    exact Nat.lt_irrefl _ (delivers.reads _ member)
  have numbered := delivers.numbered.launched launches
  refine delivers.grown ?_ numbered.forget ⟨_, dmas⟩ launches.completed ?_ ?_ ?_
  · rw [start_descr]
  · intro dma member
    show dma ∈ if transfer.writes then _ :: state.reads else state.reads
    split
    · exact List.mem_cons_of_mem _ member
    · exact member
  · intro dma member
    change dma ∈ if transfer.writes then _ :: state.reads else state.reads at member
    rw [launches.longer]
    split at member
    · rcases List.mem_cons.mp member with this | before
      · rw [this]
        exact Nat.lt_succ_self _
      · exact (delivers.reads dma before).trans (Nat.lt_succ_self _)
    · exact (delivers.reads dma member).trans (Nat.lt_succ_self _)
  · intro next is
    cases is
    constructor
    · exact carries.alone
    · intro starts
      cases starts
    · intro _
      constructor
      · rw [dmas, start_descr]
        exact List.getElem?_concat_length
      · show _ ∈ (if transfer.writes then _ :: state.reads else state.reads) ↔ _
        cases transfer.writes with
        | true => exact ⟨fun _ => rfl, fun _ => List.mem_cons_self⟩
        | false =>
            exact ⟨fun member => absurd member last, fun writes => absurd writes Bool.false_ne_true⟩
    · intro writes _
      apply carries.copied writes
      rw [point]
      intro copies
      cases copies
    · intro reads _ index inside value there
      have none_ := delivers.fresh _ (Nat.le_refl _) index
      cases none_.symm.trans there

theorem Delivers.transfers (delivers : Delivers state landed) (at_ : state.transfer = some transfer)
    (step : Transfers state transfer event after) : Delivers after landed := by
  have carries := delivers.transfer transfer at_
  have goes : ∀ {point stream}, transfer.point.started = true → point.started = true →
      stream.card = state.device.stream.card →
      stream.descr.ownDma = state.device.stream.descr.ownDma →
      stream.descr.bufferHwAddr = state.device.stream.descr.bufferHwAddr →
      Delivers (state.goto stream transfer point) landed := by
    intro point stream started later card own buffer
    refine delivers.transferred card buffer rfl ?_
    intro next is
    cases is
    apply (carries.goes started later).same
    exact ⟨rfl, congrArg Card.regs card, congrArg Card.dmas card, own, rfl, rfl, rfl⟩
  cases step with
  | copiesIn point =>
      refine delivers.transferred rfl rfl rfl ?_
      intro next is
      cases is
      constructor
      · exact carries.alone
      · intro starts
        cases starts
      · intro started
        cases started
      · intro writes _ index inside
        exact if_pos inside
      · intro reads started
        cases started
  | programs point =>
      rcases program_transfer state.device.stream transfer.writes with ⟨regs, is, own⟩
      rw [is]
      refine delivers.grown rfl (delivers.numbered.quiet (.writes ⟨regs, rfl⟩))
        ⟨[], (List.append_nil _).symm⟩ rfl (fun dma member => member) delivers.reads ?_
      intro next at_
      cases at_
      constructor
      · exact carries.alone
      · intro _
        exact own
      · intro started
        cases started
      · intro writes _
        apply carries.copied writes
        rw [point]
        intro copies
        cases copies
      · intro reads started
        cases started
  | starts point => exact delivers.starts at_ point
  | clears point => exact goes (by rw [point]; rfl) rfl rfl rfl rfl
  | done point is => exact goes (by rw [point]; rfl) rfl rfl rfl rfl
  | sleeps point is => exact goes (by rw [point]; rfl) rfl rfl rfl rfl
  | signalled point =>
      refine goes ?_ rfl rfl rfl rfl
      rcases point with waits | asleep
      · rw [waits]
        rfl
      · rw [asleep]
        rfl
  | finishes point =>
      refine delivers.transferred rfl rfl rfl ?_
      intro next is
      cases is

end Transfers

/-- A byte of the DMA that the call at work has started, or of one that leaves its bytes alone. -/
theorem Delivers.arrived (delivers : Delivers state landed) {dma byte : ℕ} {value : U8}
    {started : Dma} (there : state.device.stream.card.dmas[dma]? = some started)
    (running : dma ∉ state.device.stream.card.completed)
    (apart : Crosses state dma → ∀ index < transferLength,
      ¬Targets state (.arrive dma byte value) index) :
    Delivers (state.arrived started byte value) (landed.record (.arrive dma byte value)) := by
  have other : ∀ {index}, ¬Targets state (.arrive dma byte value) index →
      (state.arrived started byte value).buffer index = state.buffer index := by
    intro index elsewhere
    apply write_bus_other
    intro here
    exact elsewhere ⟨started, there, here.1, here.2⟩
  constructor
  · exact delivers.low
  · exact delivers.numbered
  · exact delivers.reads
  · intro later beyond index
    have this : later ≠ dma := by
      intro same
      rw [same] at beyond
      exact absurd (List.getElem?_eq_some_iff.mp there).1 (Nat.not_lt.mpr beyond)
    show Function.update landed dma _ later index = none
    rw [Function.update_of_ne this]
    exact delivers.fresh later beyond index
  · intro ended member writes started' at_ index inside
    have this : ended ≠ dma := by
      intro same
      exact running (same ▸ member)
    show (Function.update landed dma _ ended index).isSome
    rw [Function.update_of_ne this]
    exact delivers.complete ended member writes started' at_ index inside
  · intro transfer at_
    have carries := delivers.transfer transfer at_
    constructor
    · exact carries.alone
    · exact carries.programmed
    · exact carries.started
    · intro writes copied index inside
      rw [other (apart ⟨transfer, at_, by rw [if_pos writes]; exact copied⟩ index inside)]
      exact carries.copied writes copied index inside
    · intro reads begun index inside
      by_cases own : transfer.dma = dma
      · have mine := (carries.started begun).1
        rw [own, there] at mine
        cases mine
        have base := own_address delivers.low
        rw [own]
        show ∀ value', Function.update landed dma _ dma index = some value' → _
        rw [Function.update_self]
        by_cases here : index = byte
        · subst here
          rw [Function.update_self]
          intro value' is
          cases is
          apply write_bus_here
          · rw [base]
          · exact inside.trans (by decide)
        · rw [Function.update_of_ne here]
          rw [other]
          · rw [← own]
            exact carries.landed reads begun index inside
          · intro targets
            rcases targets with ⟨started', at', same, _⟩
            rw [there] at at'
            cases at'
            rw [base] at same
            exact here (Nat.add_left_cancel same).symm
      · show ∀ value', Function.update landed dma _ transfer.dma index = some value' → _
        rw [Function.update_of_ne own, other]
        · exact carries.landed reads begun index inside
        · refine apart ⟨transfer, at_, ?_⟩ index inside
          rw [reads]
          exact ⟨begun, own⟩

theorem Delivers.step (delivers : Delivers state landed) {action : CharAction}
    (faithful : Faithful (state, landed) action) (moves : CharMoves state action after) :
    Delivers after (landed.record action) := by
  cases moves with
  | interrupts dma arg stream comes =>
      exact delivers.interrupted comes (faithful.complete dma arg rfl)
  | begins command arg idle call =>
      refine delivers.served idle ?_ ?_ _ arg
      · apply keeps_awake (Quiet.same _) (disarmed_of_idle call) rfl
        cases command with
        | startStream | nextStream | endStream => rfl
      · rfl
  | moves event arg running after idle call step =>
      exact delivers.served idle (moves_flag call step) (moves_buffer step) _ arg
  | sets request arg after idle call step =>
      exact delivers.served idle (sets_flag call step) (sets_buffer step) _ arg
  | memsets arg idle call | refuses idle call =>
      refine delivers.transferred rfl rfl rfl ?_
      intro next at_
      cases idle.symm.trans at_
  | reads count user idle call =>
      refine delivers.transferred rfl rfl rfl ?_
      intro next at_
      cases at_
      constructor
      · exact call
      · intro starts
        cases starts
      · intro started
        cases started
      · intro writes
        cases writes
      · intro reads started
        cases started
  | writes count user idle call =>
      refine delivers.transferred rfl rfl rfl ?_
      intro next at_
      cases at_
      constructor
      · exact call
      · intro starts
        cases starts
      · intro started
        cases started
      · intro writes copied
        exact absurd rfl copied
      · intro reads
        cases reads
  | transfers event transfer after at_ step => exact delivers.transfers at_ step
  | arrives dma byte value started there writes running inside =>
      exact delivers.arrived there running (faithful.apart dma byte value rfl)

end Steps

theorem probed_delivers {state : CharDevice} (probed : ProbedChar state) :
    Delivers state fun _ _ => none := by
  have noDmas := probed.device.noDmas
  have records := probed.records
  constructor
  · exact probed.device.lowBuffer
  · exact (probed_attended probed).numbered.forget
  · rw [records.2]
    exact List.forall_mem_nil _
  · intro dma beyond byte
    rfl
  · rw [noDmas.2.2]
    exact List.forall_mem_nil _
  · intro transfer at_
    cases probed.transfer.symm.trans at_

/-- A read or a write that is about to return keeps to the user's count exactly if the user has
room for 4096 bytes, the settings make the DMA that long, and the DMA has completed. -/
theorem count_honoured_iff {pair : CharDevice × Landed} {transfer : Transfer}
    (reached : landedSystem.ReachableUnder Faithful pair)
    (at_ : pair.1.transfer = some transfer) (point : transfer.point = .copyOut) :
    Honours pair.1 pair.2 transfer ↔ transferLength ≤ transfer.count.toNat ∧
      transferLength ≤ pair.1.device.stream.descr.bytes ∧
      transfer.dma ∈ pair.1.device.stream.card.completed := by
  have delivers : Delivers pair.1 pair.2 := by
    apply System.invariant_under _ _ reached
    · intro start probed
      rw [probed.2]
      exact probed_delivers probed.1
    · intro before action after delivers faithful step
      rcases Option.map_eq_some_iff.mp step with ⟨state, moves, is⟩
      subst is
      exact delivers.step faithful (char_cases moves)
  exact delivers.honours_iff at_ point

def landedAfter (actions : List CharAction) : CharDevice × Landed :=
  (landedSystem.runFrom (probedChar, fun _ _ => none) actions).getD (probedChar, fun _ _ => none)

def writeStarted : List CharAction :=
  [.write 4096#64 fun _ => 0x5a#8, .proceed .plain, .proceed .plain, .proceed .plain,
    .proceed .plain]

theorem faithful_quiet {pair : CharDevice × Landed} {action : CharAction}
    (quiet : ∀ dma arg, action ≠ .request (.stream (.interrupt dma)) arg)
    (still : ∀ dma byte value, action ≠ .arrive dma byte value) : Faithful pair action := by
  constructor
  · intro dma arg is
    exact absurd is (quiet dma arg)
  · intro dma byte value is
    exact absurd is (still dma byte value)

theorem count_honoured_write :
    Honours (landedAfter (writeStarted ++ [charInterrupt 0, .proceed .plain])).1
      (landedAfter (writeStarted ++ [charInterrupt 0, .proceed .plain])).2
      ⟨true, .copyOut, 4096#64, 0⟩ := by
  have probed : landedSystem.ReachableUnder Faithful (probedChar, fun _ _ => none) :=
    .start ⟨probed_char, rfl⟩
  have started : landedSystem.ReachableUnder Faithful (landedAfter writeStarted) := by
    apply System.reachable_of_run writeStarted probed
    · intro pair action member
      apply faithful_quiet
      · intro dma arg is
        subst is
        simp [writeStarted] at member
      · intro dma byte value is
        subst is
        simp [writeStarted] at member
    · rfl
  have interrupted : landedSystem.ReachableUnder Faithful
      (landedAfter (writeStarted ++ [charInterrupt 0])) := by
    have step : landedSystem.step (landedAfter writeStarted) (charInterrupt 0) =
        some (landedAfter (writeStarted ++ [charInterrupt 0])) := rfl
    apply started.next _ step
    constructor
    · intro dma arg is card
      cases is
      exact absurd List.mem_cons_self card
    · intro dma byte value is
      cases is
  have waited : landedSystem.ReachableUnder Faithful
      (landedAfter (writeStarted ++ [charInterrupt 0, .proceed .plain])) := by
    have step : landedSystem.step (landedAfter (writeStarted ++ [charInterrupt 0]))
        (.proceed .plain) =
          some (landedAfter (writeStarted ++ [charInterrupt 0, .proceed .plain])) := rfl
    apply interrupted.next _ step
    apply faithful_quiet
    · intro dma arg is
      cases is
    · intro dma byte value is
      cases is
  apply (count_honoured_iff waited rfl rfl).mpr
  refine ⟨?_, ?_, List.mem_cons_self⟩
  · exact Nat.le_refl _
  · decide

def shortRead : List CharAction :=
  [.request (.setTlpSize 1#32 1#32) 0x1000#64, .request (.setTlpCount 1#32 1#32) 0x1000#64,
    .read 16#64 fun _ => 0xff#8, .proceed .plain, .proceed .plain, .proceed .plain,
    .arrive 0 0 0x2d#8, .arrive 0 1 0x2c#8, .arrive 0 2 0x2b#8, .arrive 0 3 0x2a#8,
    charInterrupt 0, .proceed .plain]

/-- The read returns 4096 bytes, of which the card has written four, and the user's memory is
overwritten behind the 16. -/
theorem read_overruns_count :
    ∃ pair, landedSystem.runFrom (probedChar, fun _ _ => none) shortRead = some pair ∧
      pair.1.transfer = some ⟨false, .copyOut, 16#64, 0⟩ ∧
      pair.1.returns ⟨false, .copyOut, 16#64, 0⟩ = 4096 ∧ pair.2 0 4 = none ∧
      pair.1.user 100 = 0xff#8 ∧ (pair.1.finish ⟨false, .copyOut, 16#64, 0⟩).user 100 = 0#8 ∧
      ¬Honours pair.1 pair.2 ⟨false, .copyOut, 16#64, 0⟩ := by
  refine ⟨_, rfl, rfl, rfl, rfl, rfl, rfl, ?_⟩
  intro honours
  exact absurd honours.returns (by decide)

end FpgaPcie.Creotech
