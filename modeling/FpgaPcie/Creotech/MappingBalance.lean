import FpgaPcie.Creotech.CompletionFlag

/-!
# The mappings of the stream's DMAs

`run_dma` maps the half for its DMA, and the interrupt handler takes the mapping back by an
address that it computes from the half and the offset of that moment. A ledger is kept of what
the driver maps and unmaps, beside a run of the device.
-/

namespace FpgaPcie.Creotech

open FpgaPcie.Transition

set_option autoImplicit false

/-- What was mapped and where it lies on the bus, what `pci_map_single` returned, the DMA it
was mapped for, and the half then selected. -/
structure Mapping where
  address : U64
  size : ℕ
  bus : U64
  dmaAddr : U64
  dma : ℕ
  half : U32
  deriving DecidableEq, Repr

/-- `wrong` was unmapped and not mapped; `early` was mapped still when its half was handed
out. -/
structure Ledger where
  mapped : List Mapping
  held : List Mapping
  released : List Mapping
  wrong : List (U64 × ℕ)
  early : List Mapping
  deriving DecidableEq, Repr

namespace Stream

def newCall (before after : Stream) : Option DmaApiCall :=
  (after.dmaApi.take (after.dmaApi.length - before.dmaApi.length)).head?

def newHalf (before after : Stream) : Option U32 :=
  (after.handed.drop before.handed.length).head?

end Stream

namespace Ledger

def empty : Ledger := ⟨[], [], [], [], []⟩

def map (ledger : Ledger) (mapping : Mapping) : Ledger :=
  { ledger with mapped := mapping :: ledger.mapped, held := mapping :: ledger.held }

def unmap (ledger : Ledger) (address : U64) (size : ℕ) : Ledger :=
  match ledger.held.find? fun mapping => mapping.dmaAddr = address ∧ mapping.size = size with
  | some mapping => { ledger with
      held := ledger.held.erase mapping
      released := mapping :: ledger.released }
  | none => { ledger with wrong := (address, size) :: ledger.wrong }

def handOut (ledger : Ledger) (half : U32) : Ledger :=
  { ledger with early := ledger.held.filter (fun mapping => mapping.half = half) ++ ledger.early }

/-- What a step adds. The mapping is made for the DMA started next. -/
def account (ledger : Ledger) (before after : Stream) : Ledger :=
  match before.newCall after with
  | some (.map address size) => ledger.map
      ⟨address, size, after.descr.bufferHwAddr + (address - after.descr.buffer),
        after.descr.dmaAddr, after.card.dmas.length, after.retarg⟩
  | some (.unmap address size) => ledger.unmap address size
  | none =>
      match before.newHalf after with
      | some half => ledger.handOut half
      | none => ledger

end Ledger

def mappedSystem : System (CharDevice × Ledger) CharAction where
  initial pair := ProbedChar pair.1 ∧ pair.2 = Ledger.empty
  step pair action := (charSystem.step pair.1 action).map fun after =>
    (after, pair.2.account pair.1.device.stream after.device.stream)

/-- Whatever was mapped is mapped until its DMA has completed, and is then unmapped once; the
DMA writes to what was mapped for it. -/
structure Balanced (card : Card) (ledger : Ledger) : Prop where
  wrong : ledger.wrong = []
  early : ledger.early = []
  all : ledger.mapped.Perm (ledger.held ++ ledger.released)
  held : ∀ mapping ∈ ledger.held, mapping.dma ∉ card.completed
  released : ∀ mapping ∈ ledger.released, mapping.dma ∈ card.completed
  covers : ∀ mapping ∈ ledger.mapped, ∀ dma, card.dmas[mapping.dma]? = some dma →
    dma.address = mapping.bus.setWidth 32 ∧ dma.bytes = mapping.size

/-- No read or write starts the card. A stream call maps for a DMA with its interrupt, with no
offset left behind, with settings that fill the half and with nothing in flight; the interrupt
comes while the first half is selected; and `END_STREAM` hands out with nothing in flight. -/
structure Tame (state : CharDevice) (action : CharAction) : Prop where
  starts : ∀ event transfer, action = .proceed event → state.transfer = some transfer →
    transfer.point ≠ .start
  maps : ∀ dmaAddr arg running, action = .request (.stream (.proceed (.mapped dmaAddr))) arg →
    state.device.call = some running → (∀ left offset, running.point ≠ .loop left offset) ∧
      state.device.stream.descr.offset = 0#64 ∧ state.device.stream.descr.bytes = bufSize ∧
      state.device.stream.card.running = []
  even : ∀ dma arg, action = .request (.stream (.interrupt dma)) arg →
    state.device.stream.descr.evenBuffer = true
  ends : ∀ arg running, action = .request (.stream (.proceed .copied)) arg →
    state.device.call = some running → running.command = .endStream →
    state.device.stream.card.running = []

section Accounts

variable {before after : Stream} (ledger : Ledger)

theorem no_new_call (api : after.dmaApi = before.dmaApi) : before.newCall after = none := by
  rw [Stream.newCall, api, Nat.sub_self, List.take_zero, List.head?_nil]

theorem account_same (api : after.dmaApi = before.dmaApi) (handed : after.handed = before.handed) :
    ledger.account before after = ledger := by
  have half : before.newHalf after = none := by
    rw [Stream.newHalf, handed, List.drop_length, List.head?_nil]
  rw [Ledger.account, no_new_call api, half]

theorem new_call {call : DmaApiCall} (api : after.dmaApi = call :: before.dmaApi) :
    before.newCall after = some call := by
  have one : before.dmaApi.length + 1 - before.dmaApi.length = 1 := Nat.add_sub_cancel_left _ _
  rw [Stream.newCall, api, List.length_cons, one, List.take_succ_cons, List.head?_cons]

theorem account_map {address : U64} {size : ℕ}
    (api : after.dmaApi = DmaApiCall.map address size :: before.dmaApi) :
    ledger.account before after = ledger.map
      ⟨address, size, after.descr.bufferHwAddr + (address - after.descr.buffer),
        after.descr.dmaAddr, after.card.dmas.length, after.retarg⟩ := by
  rw [Ledger.account, new_call api]

theorem account_unmap {address : U64} {size : ℕ}
    (api : after.dmaApi = DmaApiCall.unmap address size :: before.dmaApi) :
    ledger.account before after = ledger.unmap address size := by
  rw [Ledger.account, new_call api]

theorem account_hand {half : U32} (api : after.dmaApi = before.dmaApi)
    (handed : after.handed = before.handed ++ [half]) :
    ledger.account before after = ledger.handOut half := by
  have new : before.newHalf after = some half := by
    rw [Stream.newHalf, handed, List.drop_left, List.head?_cons]
  rw [Ledger.account, no_new_call api, new]

variable {ledger}

theorem hand_out_free {half : U32} (free : ∀ mapping ∈ ledger.held, mapping.half ≠ half) :
    ledger.handOut half = ledger := by
  have none_ : ledger.held.filter (fun mapping => mapping.half = half) = [] := by
    rw [List.filter_eq_nil_iff]
    intro mapping member same
    exact free mapping member (of_decide_eq_true same)
  rw [Ledger.handOut, none_, List.nil_append]

theorem unmap_only {mapping : Mapping} {address : U64} {size : ℕ} (held : ledger.held = [mapping])
    (is : mapping.dmaAddr = address) (whole : mapping.size = size) :
    ledger.unmap address size =
      { ledger with held := [], released := mapping :: ledger.released } := by
  have found : ledger.held.find? (fun mapping => mapping.dmaAddr = address ∧ mapping.size = size) =
      some mapping := by
    rw [held]
    exact List.find?_cons_of_pos (decide_eq_true ⟨is, whole⟩)
  rw [Ledger.unmap, found, held]
  simp only [List.erase_cons_head]

end Accounts

section Balance

variable {card after : Card} {ledger : Ledger} {mapping : Mapping}

theorem Balanced.of_same (balanced : Balanced card ledger) (dmas : after.dmas = card.dmas)
    (completed : after.completed = card.completed) : Balanced after ledger := by
  constructor
  · exact balanced.wrong
  · exact balanced.early
  · exact balanced.all
  · rw [completed]
    exact balanced.held
  · rw [completed]
    exact balanced.released
  · rw [dmas]
    exact balanced.covers

theorem Balanced.map (balanced : Balanced card ledger) (numbered : Numbered card none)
    (next : mapping.dma = card.dmas.length) : Balanced card (ledger.map mapping) := by
  constructor
  · exact balanced.wrong
  · exact balanced.early
  · exact balanced.all.cons mapping
  · intro other member ended
    rcases List.mem_cons.mp member with this | before
    · rw [this, next] at ended
      exact Nat.lt_irrefl _ (numbered.completed _ ended)
    · exact balanced.held other before ended
  · exact balanced.released
  · intro other member dma there
    rcases List.mem_cons.mp member with this | before
    · rw [this, next, List.getElem?_eq_none (Nat.le_refl _)] at there
      cases there
    · exact balanced.covers other before dma there

/-- The DMA of the only mapping is started, and writes to what was mapped. -/
theorem Balanced.launched (balanced : Balanced card ledger) (numbered : Numbered card none)
    {dma : Dma} (held : ledger.held = [mapping]) (next : mapping.dma = card.dmas.length)
    (dmas : after.dmas = card.dmas ++ [dma]) (completed : after.completed = card.completed)
    (address : dma.address = mapping.bus.setWidth 32) (bytes : dma.bytes = mapping.size) :
    Balanced after ledger := by
  constructor
  · exact balanced.wrong
  · exact balanced.early
  · exact balanced.all
  · rw [completed]
    exact balanced.held
  · rw [completed]
    exact balanced.released
  · intro other member started there
    have either := (balanced.all.mem_iff).mp member
    rw [held, List.singleton_append, List.mem_cons] at either
    rw [dmas] at there
    rcases either with this | ended
    · rw [this, next, List.getElem?_concat_length] at there
      cases there
      rw [this]
      exact ⟨address, bytes⟩
    · have old := numbered.completed _ (balanced.released other ended)
      rw [List.getElem?_append_left old] at there
      exact balanced.covers other member started there

theorem Balanced.unmapped (balanced : Balanced card ledger) (held : ledger.held = [mapping])
    (dmas : after.dmas = card.dmas) (completed : after.completed = mapping.dma :: card.completed) :
    Balanced after { ledger with held := [], released := mapping :: ledger.released } := by
  constructor
  · exact balanced.wrong
  · exact balanced.early
  · have all := balanced.all
    rw [held] at all
    exact all
  · exact List.forall_mem_nil _
  · rw [completed]
    intro other member
    rcases List.mem_cons.mp member with this | before
    · rw [this]
      exact List.mem_cons_self
    · exact List.mem_cons_of_mem _ (balanced.released other before)
  · rw [dmas]
    exact balanced.covers

end Balance

/-- At most one DMA is in flight, and only its half is mapped, by the address that the driver
remembers. -/
inductive Flight (stream : Stream) (ledger : Ledger) : Prop where
  | none (running : stream.card.running = []) (held : ledger.held = [])
  | one (mapping : Mapping) (running : stream.card.running = [mapping.dma])
      (held : ledger.held = [mapping]) (current : mapping.dmaAddr = stream.descr.dmaAddr)
      (offset : stream.descr.offset = 0#64) (size : mapping.size = bufSize)

/-- The half is mapped, and the registers describe the DMA that is to be started. -/
structure Primed (stream : Stream) (ledger : Ledger) (mapping : Mapping) : Prop where
  running : stream.card.running = []
  held : ledger.held = [mapping]
  dma : mapping.dma = stream.card.dmas.length
  current : mapping.dmaAddr = stream.descr.dmaAddr
  offset : stream.descr.offset = 0#64
  size : mapping.size = bufSize
  address : stream.card.regs regWdmaTlpA = mapping.bus.setWidth 32
  bytes : 4 * (stream.card.regs regWdmaTlpS).toNat * (stream.card.regs regWdmaTlpC).toNat =
    mapping.size

/-- The half that a `NEXT_STREAM` hands out is not the one that it maps. -/
def MapsAt (stream : Stream) (ledger : Ledger) : Option Running → Prop
  | none => Flight stream ledger
  | some running =>
      match running.point with
      | .check | .waiting | .recheck | .waitingDone | .select => Flight stream ledger
      | .loop _ offset | .last offset => Flight stream ledger ∧ offset = 0#64 ∧
          (running.command ≠ .startStream → stream.retarg ≠ running.retarg)
      | .launch false _ _ => False
      | .launch true _ _ => ∃ mapping, Primed stream ledger mapping ∧
          (running.command ≠ .startStream → mapping.half ≠ running.retarg)
      | .copy => Flight stream ledger ∧
          (running.command ≠ .endStream → ∀ mapping ∈ ledger.held, mapping.half ≠ running.retarg)

structure InBooks (state : CharDevice) (ledger : Ledger) : Prop where
  balanced : Balanced state.device.stream.card ledger
  numbered : Numbered state.device.stream.card none
  alone : ∀ transfer, state.transfer = some transfer → state.device.call = none
  place : MapsAt state.device.stream ledger state.device.call

section Places

variable {stream after : Stream} {ledger : Ledger}

theorem Flight.of_same (flight : Flight stream ledger)
    (running : after.card.running = stream.card.running)
    (dmaAddr : after.descr.dmaAddr = stream.descr.dmaAddr)
    (offset : after.descr.offset = stream.descr.offset) : Flight after ledger := by
  cases flight with
  | none none_ held => exact .none (running.trans none_) held
  | one mapping one held current zero size =>
      exact .one mapping (running.trans one) held (current.trans dmaAddr.symm)
        (offset.trans zero) size

theorem Flight.landed (flight : Flight stream ledger) (quiet : stream.card.running = []) :
    ledger.held = [] := by
  cases flight with
  | none running held => exact held
  | one mapping running held current offset size =>
      rw [quiet] at running
      cases running

theorem next_retarg (stream : Stream) : stream.nextSelect.retarg ≠ stream.retarg := by
  show (if !stream.descr.evenBuffer then 0#32 else BitVec.ofNat 32 bufSize) ≠
    if stream.descr.evenBuffer then 0#32 else BitVec.ofNat 32 bufSize
  cases stream.descr.evenBuffer with
  | true => decide
  | false => decide

/-- With the first half selected the handler computes the address that was returned. -/
theorem Flight.unmapped (flight : Flight stream ledger) {dma : ℕ}
    (comes : stream.interrupt dma = some after) (even : stream.descr.evenBuffer = true)
    (balanced : Balanced stream.card ledger) :
    Balanced after.card (ledger.account stream after) ∧ Flight after (ledger.account stream after) ∧
      (ledger.account stream after).held = [] := by
  simp only [Stream.interrupt, Option.ite_none_right_eq_some, Option.some.injEq] at comes
  rcases comes with ⟨runs, is⟩
  subst is
  cases flight with
  | none running held =>
      rw [running] at runs
      cases runs
  | one mapping running held current offset size =>
      rw [running, List.mem_singleton] at runs
      subst runs
      have half : stream.descr.half = 0#64 := by rw [PcieDescr.half, even, if_pos rfl]
      have address : mapping.dmaAddr =
          stream.descr.dmaAddr + stream.descr.half + stream.descr.offset := by
        rw [current, half, offset, BitVec.add_zero, BitVec.add_zero]
      rw [account_unmap ledger rfl, unmap_only held address size]
      refine ⟨balanced.unmapped held rfl rfl, .none ?_ rfl, rfl⟩
      show stream.card.running.erase mapping.dma = []
      rw [running, List.erase_cons_head]

theorem bus_address (descr : PcieDescr) (offset : U64) :
    descr.bufferHwAddr + (descr.buffer + descr.half + offset - descr.buffer) =
      descr.bufferHwAddr + descr.half + offset := by
  have moved : descr.buffer + descr.half + offset - descr.buffer = descr.half + offset := by
    bv_omega
  rw [moved, BitVec.add_assoc]

/-- What `run_dma` maps when nothing is in flight and no offset is left behind. -/
def Stream.mapping (stream : Stream) (dmaAddr : U64) : Mapping where
  address := stream.descr.buffer + stream.descr.half + stream.descr.offset
  size := bufSize
  bus := stream.descr.bufferHwAddr +
    (stream.descr.buffer + stream.descr.half + stream.descr.offset - stream.descr.buffer)
  dmaAddr := dmaAddr
  dma := stream.card.dmas.length
  half := stream.retarg

theorem program_account (stream : Stream) (ledger : Ledger) (offset dmaAddr : U64) :
    ledger.account stream (stream.programDma offset dmaAddr) =
      ledger.map (stream.mapping dmaAddr) := by
  have dmas := (program_dma_card stream offset dmaAddr).1
  rw [account_map ledger rfl, dmas]
  rfl

theorem Flight.programmed (flight : Flight stream ledger) (dmaAddr : U64)
    (zero : stream.descr.offset = 0#64) (whole : stream.descr.bytes = bufSize)
    (quiet : stream.card.running = []) :
    Primed (stream.programDma 0#64 dmaAddr) (ledger.map (stream.mapping dmaAddr))
      (stream.mapping dmaAddr) := by
  rcases program_dma_card stream 0#64 dmaAddr with ⟨dmas, running, _, registers⟩
  constructor
  · exact running.trans quiet
  · rw [Ledger.map, flight.landed quiet]
  · rw [dmas]
    rfl
  · rfl
  · rfl
  · rfl
  · rw [registers.address, PcieDescr.tlpAddress, Stream.mapping, bus_address, zero]
  · rw [registers.tlpSize, registers.tlpCount]
    exact whole

theorem Primed.launched {mapping : Mapping} (primed : Primed stream ledger mapping)
    (numbered : Numbered stream.card none) (balanced : Balanced stream.card ledger) :
    Balanced (stream.launchDma true).card ledger ∧ Flight (stream.launchDma true) ledger := by
  rcases launch_last stream with ⟨dmas, running, completed⟩
  constructor
  · exact balanced.launched numbered primed.held primed.dma dmas completed primed.address
      primed.bytes
  · refine .one mapping ?_ primed.held primed.current primed.offset primed.size
    rw [running, primed.running, primed.dma, List.nil_append]

end Places

section Steps

variable {state : CharDevice} {ledger : Ledger}

theorem InBooks.quietly (books : InBooks state ledger) {after : CharDevice}
    (api : after.device.stream.dmaApi = state.device.stream.dmaApi)
    (handed : after.device.stream.handed = state.device.stream.handed)
    (dmas : after.device.stream.card.dmas = state.device.stream.card.dmas)
    (running : after.device.stream.card.running = state.device.stream.card.running)
    (completed : after.device.stream.card.completed = state.device.stream.card.completed)
    (alone : ∀ transfer, after.transfer = some transfer → after.device.call = none)
    (place : MapsAt after.device.stream ledger after.device.call) :
    InBooks after (ledger.account state.device.stream after.device.stream) := by
  rw [account_same ledger api handed]
  constructor
  · exact books.balanced.of_same dmas completed
  · exact books.numbered.quiet ⟨running, completed, [], dmas.trans (List.append_nil _).symm⟩
  · exact alone
  · exact place

theorem MapsAt.interrupted {stream after : Stream} {call : Option Running}
    (place : MapsAt stream ledger call) {dma : ℕ} (comes : stream.interrupt dma = some after)
    (even : stream.descr.evenBuffer = true) (balanced : Balanced stream.card ledger) :
    Balanced after.card (ledger.account stream after) ∧
      MapsAt after (ledger.account stream after) call := by
  have spec := interrupt_spec comes
  have landed : Flight stream ledger → Balanced after.card (ledger.account stream after) ∧
      Flight after (ledger.account stream after) ∧ (ledger.account stream after).held = [] := by
    intro flight
    exact flight.unmapped comes even balanced
  cases call with
  | none => exact ⟨(landed place).1, (landed place).2.1⟩
  | some running =>
      rcases running with ⟨command, point, retarg⟩
      cases point with
      | check | waiting | recheck | waitingDone | select =>
          exact ⟨(landed place).1, (landed place).2.1⟩
      | loop left offset | last offset =>
          rcases place with ⟨flight, zero, apart⟩
          have same : after.retarg = stream.retarg := by
            rw [Stream.retarg, Stream.retarg, spec.2.2.2.1]
          refine ⟨(landed flight).1, (landed flight).2.1, zero, ?_⟩
          rw [same]
          exact apart
      | launch sendInterrupt left offset =>
          cases sendInterrupt with
          | false => exact place.elim
          | true =>
              rcases place with ⟨mapping, primed, _⟩
              have runs := spec.1
              rw [primed.running] at runs
              cases runs
      | copy =>
          have after_ := landed place.1
          refine ⟨after_.1, after_.2.1, ?_⟩
          intro _ mapping member
          rw [after_.2.2] at member
          cases member

theorem InBooks.interrupted (books : InBooks state ledger) {dma : ℕ} {stream : Stream}
    (comes : state.device.stream.interrupt dma = some stream)
    (even : state.device.stream.descr.evenBuffer = true) :
    InBooks (state.strike { state.device with stream := stream })
      (ledger.account state.device.stream stream) := by
  have after := books.place.interrupted comes even books.balanced
  constructor
  · exact after.1
  · simp only [Stream.interrupt, Option.ite_none_right_eq_some, Option.some.injEq] at comes
    rcases comes with ⟨runs, is⟩
    subst is
    exact books.numbered.interrupted runs
  · intro woken at_
    cases before : state.transfer with
    | none =>
        simp only [CharDevice.strike, before, Option.map_none, ite_self] at at_
        cases at_
    | some transfer => exact books.alone transfer before
  · exact after.2

section Calls

variable {device after : Device} {running : Running} {event : Event}

structure Keeps (stream after : Stream) (ledger : Ledger) (call : Option Running) : Prop where
  balanced : Balanced after.card (ledger.account stream after)
  numbered : Numbered after.card none
  place : MapsAt after (ledger.account stream after) call

theorem maps_after_wait {stream : Stream} (flight : Flight stream ledger) (running : Running) :
    MapsAt stream ledger (some (running.at (Device.afterWait running))) := by
  rcases running with ⟨command, point, retarg⟩
  cases command with
  | startStream | nextStream | endStream => exact flight

theorem moves_keeps (moves : Moves device running event after)
    (balanced : Balanced device.stream.card ledger) (numbered : Numbered device.stream.card none)
    (place : MapsAt device.stream ledger (some running))
    (maps : ∀ dmaAddr, event = .mapped dmaAddr →
      (∀ left offset, running.point ≠ .loop left offset) ∧
        device.stream.descr.offset = 0#64 ∧ device.stream.descr.bytes = bufSize ∧
        device.stream.card.running = [])
    (ends : event = .copied → running.command = .endStream → device.stream.card.running = []) :
    Keeps device.stream after.stream ledger after.call := by
  have quietly : ∀ {stream : Stream} {next : Option Running},
      stream.dmaApi = device.stream.dmaApi → stream.handed = device.stream.handed →
      stream.card = device.stream.card → MapsAt stream ledger next →
      Keeps device.stream stream ledger next := by
    intro stream next api handed card there
    constructor
    · rw [account_same ledger api handed, card]
      exact balanced
    · rw [card]
      exact numbered
    · rw [account_same ledger api handed]
      exact there
  cases moves with
  | done point is | woken point is | signalled point =>
      simp only [MapsAt, point] at place
      exact quietly rfl rfl rfl (maps_after_wait place running)
  | blocks point is | doneAgain point is | wokenAgain point is | signalledAgain point
  | blocksAgain point is =>
      simp only [MapsAt, point] at place
      exact quietly rfl rfl rfl place
  | timedOut point =>
      simp only [MapsAt, point] at place
      exact quietly rfl rfl rfl place
  | faults point =>
      simp only [MapsAt, point] at place
      exact quietly rfl rfl rfl place.1
  | starts point command =>
      simp only [MapsAt, point] at place
      refine quietly rfl rfl rfl ⟨place.of_same rfl rfl rfl, rfl, ?_⟩
      intro other
      exact absurd command other
  | turns point command =>
      simp only [MapsAt, point] at place
      refine quietly rfl rfl rfl ⟨place.of_same rfl rfl rfl, rfl, ?_⟩
      intro _
      exact next_retarg device.stream
  | ends point command =>
      simp only [MapsAt, point] at place
      refine quietly rfl rfl rfl ⟨place.of_same rfl rfl rfl, ?_⟩
      intro other
      exact absurd command other
  | programsSilent left offset dmaAddr point =>
      exact absurd point ((maps dmaAddr rfl).1 _ _)
  | arms offset point =>
      simp only [MapsAt, point] at place
      exact quietly rfl rfl rfl ⟨place.1.of_same rfl rfl rfl, place.2.1, place.2.2⟩
  | programs offset dmaAddr point =>
      simp only [MapsAt, point] at place
      rcases maps dmaAddr rfl with ⟨_, zero, whole, quiet⟩
      rcases place with ⟨flight, first, apart⟩
      subst first
      rcases program_dma_card device.stream 0#64 dmaAddr with ⟨dmas, runs, completed, _⟩
      have account := program_account device.stream ledger 0#64 dmaAddr
      constructor
      · rw [account]
        exact (balanced.map numbered rfl).of_same dmas completed
      · exact numbered.quiet (program_quiet _ _ _)
      · rw [account]
        exact ⟨_, flight.programmed dmaAddr zero whole quiet, apart⟩
  | launchesSilent left offset point =>
      simp only [MapsAt, point] at place
  | opens left offset point command =>
      simp only [MapsAt, point] at place
      rcases place with ⟨mapping, primed, _⟩
      have launched := primed.launched numbered balanced
      have account : ledger.account device.stream
          { device.stream.launchDma true with isOpen := true } = ledger :=
        account_same ledger rfl rfl
      constructor
      · rw [account]
        exact launched.1
      · exact (numbered.launched (launch_launches _)).forget
      · rw [account]
        exact launched.2.of_same rfl rfl rfl
  | launches left offset point command =>
      simp only [MapsAt, point] at place
      rcases place with ⟨mapping, primed, apart⟩
      have launched := primed.launched numbered balanced
      have account : ledger.account device.stream (device.stream.launchDma true) = ledger :=
        account_same ledger rfl rfl
      constructor
      · rw [account]
        exact launched.1
      · exact (numbered.launched (launch_launches _)).forget
      · rw [account]
        refine ⟨launched.2, ?_⟩
        intro _ other member
        rw [primed.held, List.mem_singleton] at member
        rw [member]
        exact apart command
  | copies point =>
      simp only [MapsAt, point] at place
      rcases place with ⟨flight, apart⟩
      have free : ∀ mapping ∈ ledger.held, mapping.half ≠ running.retarg := by
        by_cases last : running.command = .endStream
        · rw [flight.landed (ends rfl last)]
          exact List.forall_mem_nil _
        · exact apart last
      have account : ledger.account device.stream { device.stream with
          handed := device.stream.handed ++ [running.retarg]
          isOpen := running.command ≠ .endStream } = ledger := by
        apply Eq.trans _ (hand_out_free free)
        exact account_hand ledger rfl rfl
      constructor
      · rw [account]
        exact balanced
      · exact numbered
      · rw [account]
        exact flight.of_same rfl rfl rfl

end Calls

theorem InBooks.transferred (books : InBooks state ledger) {transfer : Transfer} {event : Event}
    {after : CharDevice} (at_ : state.transfer = some transfer)
    (starts : transfer.point ≠ .start) (step : Transfers state transfer event after) :
    InBooks after (ledger.account state.device.stream after.device.stream) := by
  have alone := books.alone transfer at_
  have place := books.place
  rw [alone] at place
  cases step with
  | copiesIn point | done point is | sleeps point is | signalled point | finishes point =>
      refine books.quietly rfl rfl rfl rfl rfl (fun _ _ => alone) ?_
      exact books.place
  | programs point =>
      rcases program_transfer state.device.stream transfer.writes with ⟨regs, is, _⟩
      rw [is]
      refine books.quietly rfl rfl rfl rfl rfl (fun _ _ => alone) ?_
      show MapsAt _ _ state.device.call
      rw [alone]
      exact place.of_same rfl rfl rfl
  | starts point => exact absurd point starts
  | clears point =>
      refine books.quietly rfl rfl rfl rfl rfl (fun _ _ => alone) ?_
      show MapsAt _ _ state.device.call
      rw [alone]
      exact place.of_same rfl rfl rfl

theorem serve_transfer (state : CharDevice) (request : Request) (arg : U64) (after : Device) :
    (state.serve request arg after).transfer = state.transfer := by
  rw [CharDevice.serve, CharDevice.launched]
  split
  · rfl
  · rfl

theorem InBooks.set (books : InBooks state ledger) {request : Request} {after : Device}
    (arg : U64) (idle : state.transfer = none) (call : state.device.call = none)
    (sets : Sets state.device request after) :
    InBooks (state.serve request arg after)
      (ledger.account state.device.stream after.stream) := by
  have alone : ∀ {after : Device} transfer,
      (state.serve request arg after).transfer = some transfer → after.call = none := by
    intro after transfer at_
    rw [serve_transfer, idle] at at_
    cases at_
  have place := books.place
  rw [call] at place
  cases sets with
  | resetCard =>
      rcases init_device_card state.device.stream with ⟨regs, card⟩
      have dmas := congrArg Card.dmas card
      have running := congrArg Card.running card
      have completed := congrArg Card.completed card
      refine books.quietly rfl rfl dmas running completed alone ?_
      show MapsAt _ _ state.device.call
      rw [call]
      exact place.of_same running rfl rfl
  | dmaCount | tlpSize | tlpSizeRefused | tlpCount | tlpCountRefused =>
      refine books.quietly rfl rfl rfl rfl rfl alone ?_
      show MapsAt _ _ state.device.call
      rw [call]
      exact place.of_same rfl rfl rfl

theorem InBooks.step (books : InBooks state ledger) {action : CharAction} {after : CharDevice}
    (tame : Tame state action) (moves : CharMoves state action after) :
    InBooks after (ledger.account state.device.stream after.device.stream) := by
  have place := books.place
  cases moves with
  | interrupts dma arg stream comes => exact books.interrupted comes (tame.even dma arg rfl)
  | begins command arg idle call =>
      rw [call] at place
      refine books.quietly rfl rfl rfl rfl rfl ?_ ?_
      · intro transfer at_
        rw [serve_transfer, idle] at at_
        cases at_
      · cases command with
        | startStream | nextStream | endStream => exact place
  | moves event arg running after idle call step =>
      rw [call] at place
      have keeps := moves_keeps step books.balanced books.numbered place
        (fun dmaAddr is => tame.maps dmaAddr arg running (by rw [is]) call)
        (fun is => tame.ends arg running (by rw [is]) call)
      refine ⟨keeps.balanced, keeps.numbered, ?_, keeps.place⟩
      intro transfer at_
      rw [serve_transfer, idle] at at_
      cases at_
  | sets request arg after idle call step => exact books.set arg idle call step
  | memsets arg idle call | refuses idle call | reads count user idle call
  | writes count user idle call =>
      exact books.quietly rfl rfl rfl rfl rfl (fun _ _ => call) place
  | transfers event transfer after at_ step =>
      exact books.transferred at_ (tame.starts event transfer rfl at_) step
  | arrives dma index value started there writes running inside =>
      exact books.quietly rfl rfl rfl rfl rfl books.alone place

end Steps

theorem probed_in_books {state : CharDevice} (probed : ProbedChar state) :
    InBooks state Ledger.empty := by
  have noDmas := probed.device.noDmas
  constructor
  · constructor
    · rfl
    · rfl
    · exact List.Perm.nil
    · exact List.forall_mem_nil _
    · exact List.forall_mem_nil _
    · exact List.forall_mem_nil _
  · exact (probed_attended probed).numbered.forget
  · intro transfer at_
    cases probed.transfer.symm.trans at_
  · rw [probed.device.closed.2]
    exact .none noDmas.2.1 rfl

/-- In tame runs the mappings are balanced. -/
theorem mappings_balanced {pair : CharDevice × Ledger}
    (reached : mappedSystem.ReachableUnder (fun pair => Tame pair.1) pair) :
    Balanced pair.1.device.stream.card pair.2 := by
  have books : InBooks pair.1 pair.2 := by
    apply System.invariant_under _ _ reached
    · intro start probed
      rw [probed.2]
      exact probed_in_books probed.1
    · intro before action after books tame step
      rcases Option.map_eq_some_iff.mp step with ⟨state, moves, is⟩
      subst is
      exact books.step tame (char_cases moves)
  exact books.balanced

def bookedAfter (actions : List CharAction) : CharDevice × Ledger :=
  (mappedSystem.runFrom (probedChar, Ledger.empty) actions).getD (probedChar, Ledger.empty)

def streamNext : List CharAction :=
  [.ioctl .nextStream, .proceed .plain, .proceed .plain, .proceed .plain,
    .proceed (.mapped 0x30000#64), .proceed .plain, .proceed .copied].map fun action =>
      .request (.stream action) 0#64

/-- Of the statements only those that map, interrupt, hand out or start a transfer matter. -/
theorem tame_statement (state : CharDevice) (action : Action) (arg : U64)
    (other : ∀ dmaAddr, action ≠ .proceed (.mapped dmaAddr)) (quiet : ∀ dma, action ≠ .interrupt dma)
    (uncopied : action ≠ .proceed .copied) : Tame state (.request (.stream action) arg) := by
  constructor
  · intro event transfer is
    cases is
  · intro dmaAddr arg running is
    cases is
    exact absurd rfl (other dmaAddr)
  · intro dma arg is
    cases is
    exact absurd rfl (quiet dma)
  · intro arg running is
    cases is
    exact absurd rfl uncopied

theorem mappings_balanced_start :
    Balanced (bookedAfter (streamStarted ++ [charInterrupt 0])).1.device.stream.card
      (bookedAfter (streamStarted ++ [charInterrupt 0])).2 := by
  apply mappings_balanced
  have probed : mappedSystem.ReachableUnder (fun pair => Tame pair.1)
      (probedChar, Ledger.empty) := .start ⟨probed_char, rfl⟩
  have begun : mappedSystem.ReachableUnder (fun pair => Tame pair.1)
      (bookedAfter (streamStarted.take 3)) := by
    apply System.reachable_of_run (streamStarted.take 3) probed
    · intro pair action member
      simp only [streamStarted, startCall, List.map_cons, List.take_succ_cons, List.take_zero,
        List.mem_cons, List.not_mem_nil, or_false] at member
      rcases member with is | is | is
      · rw [is]
        exact tame_statement _ _ _ (by simp) (by simp) (by simp)
      · rw [is]
        exact tame_statement _ _ _ (by simp) (by simp) (by simp)
      · rw [is]
        exact tame_statement _ _ _ (by simp) (by simp) (by simp)
    · rfl
  have mapped : mappedSystem.ReachableUnder (fun pair => Tame pair.1)
      (bookedAfter (streamStarted.take 4)) := by
    have step : mappedSystem.step (bookedAfter (streamStarted.take 3))
        (.request (.stream (.proceed (.mapped 0x20000#64))) 0#64) =
          some (bookedAfter (streamStarted.take 4)) := rfl
    apply begun.next _ step
    constructor
    · intro event transfer is
      cases is
    · intro dmaAddr arg running is call
      have here : (bookedAfter (streamStarted.take 3)).1.device.call =
          some ⟨.startStream, .last 0#64, 0#32⟩ := rfl
      rw [here] at call
      cases call
      refine ⟨?_, rfl, rfl, rfl⟩
      intro left offset point
      cases point
    · intro dma arg is
      cases is
    · intro arg running is
      cases is
  have started : mappedSystem.ReachableUnder (fun pair => Tame pair.1)
      (bookedAfter streamStarted) := by
    have step : mappedSystem.step (bookedAfter (streamStarted.take 4))
        (.request (.stream (.proceed .plain)) 0#64) = some (bookedAfter streamStarted) := rfl
    apply mapped.next _ step
    exact tame_statement _ _ _ (by simp) (by simp) (by simp)
  have step : mappedSystem.step (bookedAfter streamStarted) (charInterrupt 0) =
      some (bookedAfter (streamStarted ++ [charInterrupt 0])) := rfl
  apply started.next _ step
  constructor
  · intro event transfer is
    cases is
  · intro dmaAddr arg running is
    cases is
  · intro dma arg is
    rfl
  · intro arg running is
    cases is

/-- The DMA of the other half is unmapped by an address `BUF_SIZE` behind the one returned; and
that of a read was never mapped. -/
theorem mappings_unbalanced :
    (∃ pair, mappedSystem.runFrom (probedChar, Ledger.empty)
        (streamStarted ++ charInterrupt 0 :: streamNext ++ [charInterrupt 1]) = some pair ∧
      pair.2.wrong = [(0x30000#64 + BitVec.ofNat 64 bufSize, bufSize)] ∧
      pair.2.held.map Mapping.dmaAddr = [0x30000#64] ∧
      ¬Balanced pair.1.device.stream.card pair.2) ∧
    ∃ pair, mappedSystem.runFrom (probedChar, Ledger.empty) (readStarted ++ [charInterrupt 0]) =
        some pair ∧ pair.2.mapped = [] ∧ pair.2.wrong ≠ [] ∧
      ¬Balanced pair.1.device.stream.card pair.2 := by
  constructor
  · refine ⟨_, rfl, rfl, rfl, ?_⟩
    intro balanced
    cases balanced.wrong
  · refine ⟨_, rfl, rfl, ?_, ?_⟩
    · intro none_
      cases none_
    · intro balanced
      cases balanced.wrong

end FpgaPcie.Creotech
