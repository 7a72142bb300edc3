import FpgaPcie.Creotech.StreamClient
import FpgaPcie.Creotech.StreamFill
import Mathlib.Tactic.IntervalCases

/-!
# What the client sends

A half that has been handed out stays as the card wrote it until the call after next, and
the client is through with it by then. So every datagram behind a first successful call is
a part of the half of the latest one, as the card told it.
-/

namespace FpgaPcie.Creotech

open FpgaPcie.PageTable FpgaPcie.Rotation FpgaPcie.Transition

set_option autoImplicit false

/-- Part `index` of half `half`, as the card tells it. -/
def partOf (source : ℕ → ℕ → U8) (half index : ℕ) : List U8 :=
  (List.range (bufLen / 4)).map fun byte => source half (index * (bufLen / 4) + byte)

def halfParts (last : Bool) : List (Socket × ℕ) := if last then lastParts else loopParts

namespace StreamClient

/-- The halves that the client was handed by the calls up to this one. -/
def handedBy (client : StreamClient) (call : ℕ) : ℕ := (client.outcomes.take (call + 1)).count true

/-- Datagram `m` belongs to call `m/4`, and is a part of the half handed out last by then. -/
def Brings (source : ℕ → ℕ → U8) (client : StreamClient) (m : ℕ) (datagram : Datagram) : Prop :=
  ∀ n, client.handedBy (m / 4) = n + 1 →
    datagram.payload = partOf source (client.first + n) (m % 4)

structure Sending (source : ℕ → ℕ → U8) (first : ℕ) (sent : List Datagram) (outcomes : List Bool)
    (last : Bool) (left : List (Socket × ℕ)) (taken : List U8) (quarter : ℕ) : Prop where
  left : left = (halfParts last).drop quarter
  some_ : quarter < 4
  count : sent.length + 4 = 4 * outcomes.length + quarter
  short : taken.length < bufLen / 4
  taken : ∀ n, outcomes.count true = n + 1 →
    taken = (partOf source (first + n) quarter).take taken.length

def Stands (source : ℕ → ℕ → U8) (client : StreamClient) : Prop :=
  match client.point with
  | .setsCount | .starts => client.device.call = none ∧ client.device.stream.isOpen = false ∧
      client.outcomes = [] ∧ client.sent = []
  | .calls => client.device.call = none ∧ client.device.stream.isOpen = true ∧
      client.sent.length = 4 * client.outcomes.length
  | .inCall command => (∀ running, client.device.call = some running → running.command = command) ∧
      (command = .startStream → client.outcomes = []) ∧
      client.sent.length = 4 * client.outcomes.length
  | .sends last left taken => client.device.call = none ∧
      (last = false → client.device.stream.isOpen = true) ∧
      ∃ quarter, Sending source client.first client.sent client.outcomes last left taken quarter
  | .done => client.device.call = none ∧ client.sent.length ≤ 4 * client.outcomes.length

structure Unstarted (device : Device) (first : ℕ) (point : ClientPoint) : Prop where
  none_ : device.stream.card.dmas.length = first
  quiet : device.stream.card.running = []
  point : point = .setsCount ∨ point = .starts ∨ point = .inCall .startStream
  selects : ∀ running, device.call = some running → running.point = .select

structure Delivering (pageFrame : ℕ → ℕ) (pageShift : ℕ) (source : ℕ → ℕ → U8)
    (client : StreamClient) : Prop where
  placed : Placed client.device.stream client.device.call
  settings : client.device.stream.descr.tlpSize = 32#32 ∧
    client.device.stream.descr.tlpCount = 128#32
  one : client.point ≠ .setsCount → client.device.stream.descr.dmaCount = 1#32
  based : client.device.stream.base = client.first ∨
    Unstarted client.device client.first client.point
  filled : Filled source client.first client.buffer client.arrived client.device.stream.view
  handed : client.device.stream.handed.length = client.first + client.outcomes.count true
  offset : ∀ n, client.outcomes.count true = n + 1 → client.offset = streamHalf n
  aligned : Aligned pageFrame pageShift client.device.stream.descr client.vma
  maps : pagesFor (2 ^ pageShift) (32 * 1024 + 1) ≤ client.vma.pages pageShift
  brings : ∀ m datagram, client.sent[m]? = some datagram → client.Brings source m datagram
  stands : client.Stands source

end StreamClient

open StreamClient

section Clients

variable {pageFrame : ℕ → ℕ} {pageShift : ℕ} {source : ℕ → ℕ → U8} {client after : StreamClient}

theorem reached_placed {device : Device}
    (reached : streamSystem.ReachableUnder FollowsProtocol device) :
    Placed device.stream device.call :=
  @System.invariant_under _ _ _ _ (fun device => Placed device.stream device.call)
    (fun _ => probed_placed) (fun _ _ _ placed follows step => placed.step follows step) _ reached

theorem placed_closed {stream : Stream} (placed : Placed stream none)
    (closed : stream.isOpen = false) : Closed stream := by
  cases placed with
  | closed here => exact here
  | streaming here =>
      rw [here.isOpen] at closed
      cases closed

theorem placed_streaming {stream : Stream} (placed : Placed stream none)
    (isOpen : stream.isOpen = true) : Streaming stream := by
  cases placed with
  | streaming here => exact here
  | closed here =>
      rw [here.isOpen] at isOpen
      cases isOpen

theorem Closed.all_handed {stream : Stream} (here : Closed stream) :
    stream.handed.length = stream.card.dmas.length := by
  have count := here.stage.count
  have behind := here.stage.behind
  simp only [View.served, Stream.view] at count behind
  omega

theorem opened_delivering (opened : Opened pageFrame pageShift client) :
    client.Delivering pageFrame pageShift source := by
  have placed := reached_placed opened.reached
  rw [opened.idle] at placed
  have closed := placed_closed placed opened.closed
  obtain ⟨point, -, -, sent⟩ := opened.begins
  obtain ⟨first, outcomes, fresh⟩ := opened.records
  have unarrived : ∀ turn, client.arrived (client.first + turn) = 0 := by
    intro turn
    exact fresh _ (Nat.le_add_right _ _)
  constructor
  · rw [opened.idle]
    exact placed
  · exact opened.settings
  · intro other
    exact absurd point other
  · apply Or.inr
    apply Unstarted.mk first.symm closed.quiet (Or.inl point)
    intro running call
    rw [opened.idle] at call
    cases call
  · have none_ : client.device.stream.view.dmas.length = client.first := first.symm
    constructor
    · exact none_.ge
    · intro k dma later there
      have bound := (List.getElem?_eq_some_iff.mp there).1
      omega
    · intro k later begun
      omega
    · intro k beyond
      apply fresh
      omega
    · rw [none_, Nat.sub_self]
      apply Rotates.empty
      intro turn
      rw [unarrived]
      exact Nat.zero_le _
  · rw [closed.all_handed, outcomes, first]
    rfl
  · intro n some_
    rw [outcomes] at some_
    cases some_
  · exact opened.aligned
  · exact opened.maps
  · intro m datagram there
    rw [sent] at there
    cases there
  · rw [Stands, point]
    exact ⟨opened.idle, opened.closed, outcomes, sent⟩

theorem ioctl_step {device after : Device} {command : Command}
    (step : device.step (.ioctl command) = some after) :
    device.call = none ∧ after.stream = device.stream ∧ ∃ running,
      after.call = some running ∧ running.command = command ∧
      (command = .startStream → running.point = .select) := by
  rcases step_moves step with ⟨other, same, idle, rfl⟩ | ⟨running, event, same, -⟩ |
    ⟨dma, stream, same, -⟩
  · cases same
    refine ⟨idle, rfl, _, rfl, rfl, ?_⟩
    intro start
    exact if_pos start
  · cases same
  · cases same

theorem settings_bytes {descr : PcieDescr}
    (settings : descr.tlpSize = 32#32 ∧ descr.tlpCount = 128#32) : descr.bytes = bufSize := by
  rw [PcieDescr.bytes, settings.1, settings.2]
  rfl

theorem StreamClient.Delivering.follows (delivering : client.Delivering pageFrame pageShift source)
    (counted : client.point ≠ .setsCount) {action : Action}
    (allowed : match action with
      | .ioctl .startStream => client.device.stream.isOpen = false
      | .ioctl _ => client.device.stream.isOpen = true
      | .proceed event => event ≠ .signalled ∧ event ≠ .faulted
      | .interrupt _ => True) : FollowsProtocol client.device action :=
  ⟨delivering.one counted, (settings_bytes delivering.settings).le, allowed⟩

theorem StreamClient.Delivering.enters (delivering : client.Delivering pageFrame pageShift source)
    {command : Command}
    (counted : client.point ≠ .setsCount) (counts : client.sent.length = 4 * client.outcomes.length)
    (none_ : command = .startStream → client.outcomes = [])
    (allowed : FollowsProtocol client.device (.ioctl command))
    (starts : Unstarted client.device client.first client.point → command = .startStream)
    (enters : client.enter command = some after) : after.Delivering pageFrame pageShift source := by
  obtain ⟨device, step, rfl⟩ := Option.map_eq_some_iff.mp enters
  have placed := delivering.placed.step allowed step
  obtain ⟨idle, stream, running, call, is, selects⟩ := ioctl_step step
  have descr : device.stream.descr = client.device.stream.descr := congrArg Stream.descr stream
  refine { delivering with
    placed := placed, settings := ?_, one := ?_, based := ?_, filled := ?_, handed := ?_,
    aligned := ?_, stands := ?_ }
  · rw [descr]
    exact delivering.settings
  · intro _
    rw [descr]
    exact delivering.one counted
  · rcases delivering.based with base | unstarted
    · apply Or.inl
      rw [stream]
      exact base
    · apply Or.inr
      have start := starts unstarted
      constructor
      · rw [stream]
        exact unstarted.none_
      · rw [stream]
        exact unstarted.quiet
      · rw [start]
        exact Or.inr (Or.inr rfl)
      · intro other at_
        rw [call] at at_
        cases at_
        exact selects start
  · rw [stream]
    exact delivering.filled
  · rw [stream]
    exact delivering.handed
  · rw [descr]
    exact delivering.aligned
  · refine ⟨?_, none_, counts⟩
    intro other at_
    rw [call] at at_
    cases at_
    exact is

theorem StreamClient.Delivering.sets (delivering : client.Delivering pageFrame pageShift source)
    (point : client.point = .setsCount) {device : Device}
    (step : client.device.request (.setDmaCount 1#32) = some device) :
    { client with device := device, point := .starts : StreamClient }.Delivering pageFrame pageShift
      source := by
  have stands := delivering.stands
  rw [Stands, point] at stands
  obtain ⟨idle, closed, counts⟩ := stands
  have placed := delivering.placed
  rw [idle] at placed
  have here := placed_closed placed closed
  rw [Device.request, if_pos idle] at step
  cases step
  have call : (client.device.serve (client.device.stream.setDmaCount 1#32)).call = none := idle
  have after : Closed (client.device.stream.setDmaCount 1#32) :=
    ⟨here.isOpen, here.stage, here.quiet⟩
  refine { delivering with
    placed := ?_, one := ?_, based := ?_, aligned := delivering.aligned.congr rfl rfl,
    stands := ⟨idle, closed, counts⟩ }
  · rw [call]
    exact .closed after
  · intro _
    rfl
  · rcases delivering.based with base | unstarted
    · exact Or.inl base
    · apply Or.inr
      exact ⟨unstarted.none_, unstarted.quiet, Or.inr (Or.inl rfl), unstarted.selects⟩

theorem StreamClient.Delivering.calls (delivering : client.Delivering pageFrame pageShift source)
    (step : client.call = some after) : after.Delivering pageFrame pageShift source := by
  have stands := delivering.stands
  rw [Stands] at stands
  rw [StreamClient.call] at step
  cases point : client.point with
  | setsCount =>
      rw [point] at step
      obtain ⟨device, request, rfl⟩ := Option.map_eq_some_iff.mp step
      exact delivering.sets point request
  | starts =>
      rw [point] at step stands
      have counted : client.point ≠ .setsCount := by
        rw [point]
        exact nofun
      have counts : client.sent.length = 4 * client.outcomes.length := by
        rw [stands.2.2.1, stands.2.2.2]
        rfl
      exact delivering.enters counted counts (fun _ => stands.2.2.1)
        (delivering.follows counted stands.2.1) (fun _ => rfl) step
  | calls =>
      rw [point] at step stands
      have counted : client.point ≠ .setsCount := by
        rw [point]
        exact nofun
      have begun : ¬Unstarted client.device client.first client.point := by
        intro unstarted
        have at_ := unstarted.point
        rw [point] at at_
        rcases at_ with at_ | at_ | at_ <;> cases at_
      have goes : ∀ command, command ≠ .startStream →
          FollowsProtocol client.device (.ioctl command) →
          client.enter command = some after → after.Delivering pageFrame pageShift source :=
        fun _ other allowed => delivering.enters counted stands.2.2
          (fun start => absurd start other) allowed fun unstarted => absurd unstarted begun
      simp only at step
      split at step
      · exact goes .nextStream nofun (delivering.follows counted stands.2.1) step
      · exact goes .endStream nofun (delivering.follows counted stands.2.1) step
  | inCall command | sends last left taken | done =>
      rw [point] at step
      cases step

theorem stream_half_start (turn : ℕ) : (streamHalf turn).toNat = slotStart 2 bufSize turn := by
  rw [streamHalf, slotStart]
  rcases Nat.mod_two_eq_zero_or_one turn with even | odd
  · rw [even, if_pos rfl, Nat.zero_mul]
    rfl
  · rw [odd, if_neg (by decide), Nat.one_mul]
    rfl

theorem running_latest (delivering : client.Delivering pageFrame pageShift source) {dma : ℕ}
    (runs : dma ∈ client.device.stream.card.running) :
    client.device.stream.base = client.first ∧ client.first ≤ dma ∧
      dma + 1 = client.device.stream.card.dmas.length ∧
      ∀ k ∈ client.device.stream.card.running, k = dma := by
  have base : client.device.stream.base = client.first := by
    rcases delivering.based with base | unstarted
    · exact base
    · rw [unstarted.quiet] at runs
      cases runs
  obtain ⟨started, stage⟩ := delivering.placed.stage
  have count : client.device.stream.card.dmas.length = client.device.stream.base + started :=
    stage.count
  rcases stage.running with none_ | ⟨some_, one⟩
  · rw [show client.device.stream.card.running = [] from none_] at runs
    cases runs
  · have only : client.device.stream.card.running = [client.device.stream.base + started - 1] := one
    rw [only, List.mem_singleton] at runs
    refine ⟨base, by omega, by omega, ?_⟩
    intro k also
    rw [only, List.mem_singleton] at also
    exact also.trans runs.symm

theorem interrupt_settings {stream after : Stream} {dma : ℕ}
    (interrupts : stream.interrupt dma = some after) :
    after.descr.tlpSize = stream.descr.tlpSize ∧ after.descr.tlpCount = stream.descr.tlpCount ∧
      after.descr.dmaCount = stream.descr.dmaCount ∧ after.descr.buffer = stream.descr.buffer := by
  simp only [Stream.interrupt, Option.ite_none_right_eq_some, Option.some.injEq] at interrupts
  obtain ⟨-, rfl⟩ := interrupts
  exact ⟨rfl, rfl, rfl, rfl⟩

theorem StreamClient.Delivering.interrupted (delivering : client.Delivering pageFrame pageShift source)
    {dma : ℕ}
    (step : client.interrupt dma = some after) : after.Delivering pageFrame pageShift source := by
  rw [StreamClient.interrupt, Option.ite_none_right_eq_some] at step
  obtain ⟨told, moved⟩ := step
  obtain ⟨device, strikes, rfl⟩ := Option.map_eq_some_iff.mp moved
  obtain ⟨stream, interrupts, rfl⟩ := Option.map_eq_some_iff.mp strikes
  obtain ⟨runs, view, isOpen, -, -⟩ := interrupt_spec interrupts
  obtain ⟨base, later, latest, only⟩ := running_latest delivering runs
  obtain ⟨tlpSize, tlpCount, dmaCount, buffer⟩ := interrupt_settings interrupts
  have handed : stream.handed = client.device.stream.handed := congrArg View.handed view
  have hwAddr : stream.descr.bufferHwAddr = client.device.stream.descr.bufferHwAddr :=
    congrArg View.bufferHwAddr view
  have stands := delivering.stands
  refine { delivering with
    placed := delivering.placed.interrupted interrupts, settings := ?_, one := ?_, based := ?_,
    filled := ?_, handed := ?_, aligned := ?_, stands := ?_ }
  · rw [tlpSize, tlpCount]
    exact delivering.settings
  · intro counted
    rw [dmaCount]
    exact delivering.one counted
  · exact Or.inl ((congrArg View.base view).trans base)
  · have dmas : stream.view.dmas = client.device.stream.view.dmas := by rw [view]
    exact delivering.filled.ended later told only dmas
  · rw [handed]
    exact delivering.handed
  · exact delivering.aligned.congr buffer hwAddr
  · rw [Stands] at stands ⊢
    cases point : client.point with
    | setsCount | starts | calls | sends last left taken =>
        rw [point] at stands
        simp only [isOpen]
        exact stands
    | inCall command | done =>
        rw [point] at stands
        exact stands

theorem StreamClient.Delivering.arrives (delivering : client.Delivering pageFrame pageShift source)
    {dma : ℕ} (step : client.arrive source dma = some after) :
    after.Delivering pageFrame pageShift source := by
  rw [StreamClient.arrive] at step
  split at step
  · cases step
  · rename_i started there
    rw [Option.ite_none_right_eq_some, Option.some.injEq] at step
    obtain ⟨⟨runs, room⟩, rfl⟩ := step
    obtain ⟨base, later, latest, only⟩ := running_latest delivering runs
    rw [delivering.filled.full dma started later there] at room
    obtain ⟨begun, stage⟩ := delivering.placed.stage
    have origin : client.device.stream.view.base = client.first := base
    have fills := (stage.fills dma started (origin.trans_le later) there).start
    rw [stream_half_start, origin] at fills
    have address : started.address.toNat + client.arrived dma =
        client.device.stream.descr.bufferHwAddr.toNat +
          place 2 bufSize (dma - client.first) (client.arrived dma) := by
      rw [fills, place, Nat.add_assoc]
      rfl
    have inside := @place_inside 2 bufSize (by decide) (dma - client.first) _ room
    have buffer : client.buffer.writeBus client.device.stream.descr.bufferHwAddr.toNat (2 * bufSize)
          (started.address.toNat + client.arrived dma) (source dma (client.arrived dma)) =
        Function.update client.buffer (place 2 bufSize (dma - client.first) (client.arrived dma))
          (source dma (client.arrived dma)) := by
      rw [address, Bytes.writeBus, if_pos ⟨Nat.le_add_right _ _, Nat.add_lt_add_left inside _⟩,
        Nat.add_sub_cancel_left]
    refine { delivering with filled := ?_ }
    dsimp only
    rw [buffer]
    exact delivering.filled.arrives later latest runs room

theorem part_length (source : ℕ → ℕ → U8) (half index : ℕ) :
    (partOf source half index).length = bufLen / 4 := by
  rw [partOf, List.length_map, List.length_range]

theorem part_byte (half index : ℕ) {byte : ℕ} (inside : byte < bufLen / 4) :
    (partOf source half index)[byte]? = some (source half (index * (bufLen / 4) + byte)) := by
  rw [partOf, List.getElem?_map, List.getElem?_range inside]
  rfl

theorem half_parts_at (last : Bool) {quarter : ℕ} (bound : quarter < 4) :
    ∃ socket, (halfParts last).drop quarter =
      (socket, quarter * (bufLen / 4)) :: (halfParts last).drop (quarter + 1) := by
  cases last with
  | false | true => interval_cases quarter <;> exact ⟨_, rfl⟩

theorem half_parts_end (last : Bool) {quarter : ℕ} (bound : quarter < 4)
    (end_ : (halfParts last).drop (quarter + 1) = []) : quarter = 3 := by
  have length : (halfParts last).length = 4 := by cases last <;> rfl
  have none_ := congrArg List.length end_
  rw [List.length_drop, length, List.length_nil] at none_
  omega

/-- A half that was handed out stays as the card told it while the client has it. -/
theorem handed_byte (delivering : client.Delivering pageFrame pageShift source)
    (idle : client.device.call = none)
    (begun : ¬Unstarted client.device client.first client.point) {n : ℕ}
    (given : client.outcomes.count true = n + 1) {index : ℕ} (inside : index < bufSize) :
    client.mapped pageFrame pageShift (client.vma.vmStart.toNat + (client.offset.toNat + index)) =
      some (source (client.first + n) index) := by
  have base := delivering.based.resolve_right begun
  have handed := delivering.handed
  have offset := delivering.offset n given
  have placed := delivering.placed
  rw [idle] at placed
  have latest : client.device.stream.card.dmas.length ≤ client.first + n + 2 ∧
      client.first + n < client.device.stream.card.dmas.length ∧
      client.first + n ∉ client.device.stream.card.running := by
    have isOpen : client.device.stream.isOpen = true ∨ client.device.stream.isOpen = false := by
      cases client.device.stream.isOpen with
      | true => exact Or.inl rfl
      | false => exact Or.inr rfl
    rcases isOpen with isOpen | closed
    · have here := placed_streaming placed isOpen
      have count := here.stage.count
      simp only [View.served, Stream.view, base, handed, given] at count
      refine ⟨by omega, by omega, fun runs => ?_⟩
      have last := (running_latest delivering runs).2.2.1
      omega
    · have here := placed_closed placed closed
      have all := here.all_handed
      rw [handed, given] at all
      refine ⟨by omega, by omega, fun runs => ?_⟩
      rw [here.quiet] at runs
      cases runs
  obtain ⟨recent, started, ended⟩ := latest
  have landed : client.arrived (client.first + n) = bufSize :=
    delivering.filled.landed _ (Nat.le_add_right _ _) started ended
  have holds := delivering.filled.rotates.holds n
    (show n < client.device.stream.card.dmas.length - client.first by omega)
    (show client.device.stream.card.dmas.length - client.first ≤ n + 2 by omega) index
    (by rw [landed]; exact inside)
  have there := @place_inside 2 bufSize (by decide) n _ inside
  rw [offset, stream_half_start, ← place, mapped_byte delivering.aligned delivering.maps there]
  exact congrArg some holds

theorem taken_grows {first : ℕ} {sent : List Datagram} {outcomes : List Bool} {last : Bool}
    {left : List (Socket × ℕ)} {taken : List U8} {quarter : ℕ} {byte : U8}
    (sending : Sending source first sent outcomes last left taken quarter)
    (next : ∀ n, outcomes.count true = n + 1 →
      byte = source (first + n) (quarter * (bufLen / 4) + taken.length)) {n : ℕ}
    (given : outcomes.count true = n + 1) :
    taken ++ [byte] = (partOf source (first + n) quarter).take (taken.length + 1) := by
  rw [List.take_add_one, part_byte _ _ sending.short, ← sending.taken n given, ← next n given]
  rfl

theorem brings_more (brings : ∀ m datagram, client.sent[m]? = some datagram →
      client.Brings source m datagram) {last : Bool} {left : List (Socket × ℕ)} {taken : List U8}
    {quarter : ℕ}
    (sending : Sending source client.first client.sent client.outcomes last left taken quarter)
    {complete : Datagram} (whole : ∀ n, client.outcomes.count true = n + 1 →
      complete.payload = partOf source (client.first + n) quarter) :
    ∀ m datagram, (client.sent ++ [complete])[m]? = some datagram →
      client.Brings source m datagram := by
  intro m datagram there
  by_cases old : m < client.sent.length
  · rw [List.getElem?_append_left old] at there
    exact brings m datagram there
  · rw [List.getElem?_append_right (Nat.le_of_not_lt old), List.getElem?_singleton,
      Option.ite_none_right_eq_some, Option.some.injEq] at there
    obtain ⟨here, rfl⟩ := there
    have count := sending.count
    have bound := sending.some_
    have call : m / 4 + 1 = client.outcomes.length := by omega
    have part : m % 4 = quarter := by omega
    intro n given
    rw [StreamClient.handedBy, call, List.take_length] at given
    rw [part]
    exact whole n given

theorem sends_begun {last : Bool} {left : List (Socket × ℕ)} {taken : List U8}
    (point : client.point = .sends last left taken) :
    ¬Unstarted client.device client.first client.point ∧ client.point ≠ .setsCount := by
  constructor
  · intro unstarted
    have at_ := unstarted.point
    rw [point] at at_
    rcases at_ with at_ | at_ | at_ <;> cases at_
  · rw [point]
    exact nofun

theorem next_byte (delivering : client.Delivering pageFrame pageShift source) {last : Bool}
    {left : List (Socket × ℕ)} {taken : List U8} (point : client.point = .sends last left taken)
    (idle : client.device.call = none) {quarter : ℕ}
    (sending : Sending source client.first client.sent client.outcomes last left taken quarter)
    {n : ℕ} (given : client.outcomes.count true = n + 1) :
    client.mapped pageFrame pageShift (client.vma.vmStart.toNat + client.offset.toNat +
        quarter * (bufLen / 4) + taken.length) =
      some (source (client.first + n) (quarter * (bufLen / 4) + taken.length)) := by
  have short := sending.short
  have bound := sending.some_
  have inside : quarter * (bufLen / 4) + taken.length < bufSize := by
    simp only [bufLen, bufSize] at short ⊢
    omega
  have held := handed_byte delivering idle (sends_begun point).1 given inside
  rw [Nat.add_assoc, Nat.add_assoc]
  exact held

/-- Behind a complete datagram the next part follows, or the next call. -/
theorem StreamClient.Delivering.completes (delivering : client.Delivering pageFrame pageShift source)
    {last : Bool}
    {left rest : List (Socket × ℕ)} {taken : List U8} {quarter : ℕ}
    (point : client.point = .sends last left taken) (idle : client.device.call = none)
    (isOpen : last = false → client.device.stream.isOpen = true)
    (sending : Sending source client.first client.sent client.outcomes last left taken quarter)
    (others : rest = (halfParts last).drop (quarter + 1)) {complete : Datagram}
    (whole : ∀ n, client.outcomes.count true = n + 1 →
      complete.payload = partOf source (client.first + n) quarter) :
    let sent := { client with sent := client.sent ++ [complete] : StreamClient }
    (if rest = [] then sent.sentAll last
      else { sent with point := .sends last rest [] }).Delivering pageFrame pageShift source := by
  obtain ⟨begun, counted⟩ := sends_begun point
  have base := delivering.based.resolve_right begun
  have brings := brings_more delivering.brings sending whole
  have count := sending.count
  have bound := sending.some_
  have longer : (client.sent ++ [complete]).length = client.sent.length + 1 := by
    rw [List.length_append, List.length_singleton]
  intro sent
  by_cases end_ : rest = []
  · rw [if_pos end_]
    have final := half_parts_end last bound (others ▸ end_)
    cases last with
    | false =>
        refine { delivering with
          one := fun _ => delivering.one counted, based := Or.inl base, brings := brings,
          stands := ⟨idle, isOpen rfl, ?_⟩ }
        show (client.sent ++ [complete]).length = 4 * client.outcomes.length
        omega
    | true =>
        refine { delivering with
          one := fun _ => delivering.one counted, based := Or.inl base, brings := brings,
          stands := ⟨idle, ?_⟩ }
        show (client.sent ++ [complete]).length ≤ 4 * client.outcomes.length
        omega
  · rw [if_neg end_]
    have more : quarter + 1 < 4 := by
      by_contra full
      have three : quarter = 3 := by omega
      apply end_
      rw [others, three]
      cases last <;> rfl
    refine { delivering with
      one := fun _ => delivering.one counted, based := Or.inl base, brings := brings,
      stands := ⟨idle, isOpen, quarter + 1, others, more, ?_, by decide, fun _ _ => rfl⟩ }
    show (client.sent ++ [complete]).length + 4 = 4 * client.outcomes.length + (quarter + 1)
    omega

theorem StreamClient.Delivering.sends (delivering : client.Delivering pageFrame pageShift source)
    (step : client.send pageFrame pageShift = some after) :
    after.Delivering pageFrame pageShift source := by
  have stands := delivering.stands
  rw [Stands] at stands
  rw [StreamClient.send] at step
  split at step
  · rename_i last socket start rest taken point
    rw [point] at stands
    obtain ⟨idle, isOpen, quarter, sending⟩ := stands
    obtain ⟨begun, counted⟩ := sends_begun point
    obtain ⟨byte, reads, rfl⟩ := Option.map_eq_some_iff.mp step
    obtain ⟨own, parts⟩ := half_parts_at last sending.some_
    have left := sending.left.trans parts
    rw [List.cons.injEq, Prod.mk.injEq] at left
    obtain ⟨⟨-, from_⟩, others⟩ := left
    have next : ∀ n, client.outcomes.count true = n + 1 →
        byte = source (client.first + n) (quarter * (bufLen / 4) + taken.length) := by
      intro n given
      rw [from_, next_byte delivering point idle sending given] at reads
      exact (Option.some.inj reads).symm
    split
    · rename_i more
      refine { delivering with
        one := fun _ => delivering.one counted
        based := Or.inl (delivering.based.resolve_right begun), stands := ?_ }
      refine ⟨idle, isOpen, quarter, sending.left, sending.some_, sending.count, ?_, ?_⟩
      · rw [List.length_append, List.length_singleton]
        exact more
      · intro n given
        rw [List.length_append, List.length_singleton]
        exact taken_grows sending next given
    · rename_i full
      apply delivering.completes point idle isOpen sending others
      intro n given
      show taken ++ [byte] = partOf source (client.first + n) quarter
      rw [taken_grows sending next given]
      apply List.take_of_length_le
      rw [part_length]
      exact Nat.le_of_not_lt full
  · cases step

theorem StreamClient.Delivering.fails (delivering : client.Delivering pageFrame pageShift source)
    (step : client.sendFails = some after) : after.Delivering pageFrame pageShift source := by
  have stands := delivering.stands
  rw [Stands] at stands
  rw [StreamClient.sendFails] at step
  split at step
  · rename_i last left taken point
    cases step
    rw [point] at stands
    obtain ⟨idle, isOpen, quarter, sending⟩ := stands
    obtain ⟨begun, counted⟩ := sends_begun point
    refine { delivering with
      one := fun _ => delivering.one counted
      based := Or.inl (delivering.based.resolve_right begun), stands := ⟨idle, ?_⟩ }
    have count := sending.count
    have bound := sending.some_
    dsimp only
    omega
  · cases step

/-- A later call does not change what an earlier one has handed out. -/
theorem brings_longer (counts : client.sent.length = 4 * client.outcomes.length)
    (brings : ∀ m datagram, client.sent[m]? = some datagram → client.Brings source m datagram)
    (outcome : Bool) {m : ℕ} {datagram : Datagram} (there : client.sent[m]? = some datagram) :
    { client with outcomes := client.outcomes ++ [outcome] : StreamClient }.Brings source m
      datagram := by
  have bound := (List.getElem?_eq_some_iff.mp there).1
  have earlier : m / 4 + 1 ≤ client.outcomes.length := by omega
  intro n given
  rw [StreamClient.handedBy, List.take_append_of_le_length earlier] at given
  exact brings m datagram there n given

/-- Behind a call for a half the client sends the half at `offset`. -/
theorem StreamClient.Delivering.returns (delivering : client.Delivering pageFrame pageShift source)
    {command : Command}
    (point : client.point = .inCall command) (other : command ≠ .startStream) {device : Device}
    {offset : U32} (placed : Placed device.stream device.call) (idle : device.call = none)
    (settings : SameSettings client.device device)
    (hwAddr : device.stream.descr.bufferHwAddr = client.device.stream.descr.bufferHwAddr)
    (base : device.stream.base = client.first)
    (filled : Filled source client.first client.buffer client.arrived device.stream.view)
    (handed : device.stream.handed.length =
      client.first + (client.outcomes ++ [decide (device.ret = 0#32)]).count true)
    (points : ∀ n, (client.outcomes ++ [decide (device.ret = 0#32)]).count true = n + 1 →
      offset = streamHalf n)
    (isOpen : command = .nextStream → device.stream.isOpen = true) :
    ({ client with offset := offset : StreamClient }.returned command device).Delivering
      pageFrame pageShift source := by
  have stands := delivering.stands
  rw [Stands, point] at stands
  obtain ⟨-, -, counts⟩ := stands
  have counted : client.point ≠ .setsCount := by
    rw [point]
    exact nofun
  have sizes := delivering.settings
  have one := delivering.one counted
  rw [← settings.tlpSize, ← settings.tlpCount] at sizes
  rw [← settings.dmaCount] at one
  have aligned := delivering.aligned.congr settings.buffer hwAddr
  have count : client.sent.length + 4 =
      4 * (client.outcomes ++ [decide (device.ret = 0#32)]).length + 0 := by
    rw [List.length_append, List.length_singleton]
    omega
  have brings := fun m datagram there =>
    @brings_longer source client counts delivering.brings (decide (device.ret = 0#32)) m datagram
      there
  cases command with
  | startStream => exact absurd rfl other
  | nextStream =>
      exact ⟨placed, sizes, fun _ => one, Or.inl base, filled, handed, points, aligned,
        delivering.maps, brings, idle, fun _ => isOpen rfl, 0, rfl, by decide, count, by decide,
        fun _ _ => rfl⟩
  | endStream =>
      exact ⟨placed, sizes, fun _ => one, Or.inl base, filled, handed, points, aligned,
        delivering.maps, brings, idle, nofun, 0, rfl, by decide, count, by decide, fun _ _ => rfl⟩

theorem StreamClient.Delivering.goesOn (delivering : client.Delivering pageFrame pageShift source)
    {command : Command}
    (point : client.point = .inCall command) {device : Device} {next : Running}
    (placed : Placed device.stream device.call) (call : device.call = some next)
    (is : next.command = command) (settings : SameSettings client.device device)
    (hwAddr : device.stream.descr.bufferHwAddr = client.device.stream.descr.bufferHwAddr)
    (base : device.stream.base = client.first)
    (filled : Filled source client.first client.buffer client.arrived device.stream.view)
    (handed : device.stream.handed = client.device.stream.handed) :
    { client with device := device : StreamClient }.Delivering pageFrame pageShift source := by
  have stands := delivering.stands
  rw [Stands, point] at stands
  have counted : client.point ≠ .setsCount := by
    rw [point]
    exact nofun
  refine { delivering with
    placed := placed, settings := ?_, one := ?_, based := Or.inl base, filled := filled,
    handed := ?_, aligned := ?_, stands := ?_ }
  · rw [settings.tlpSize, settings.tlpCount]
    exact delivering.settings
  · intro _
    rw [settings.dmaCount]
    exact delivering.one counted
  · rw [handed]
    exact delivering.handed
  · exact delivering.aligned.congr settings.buffer hwAddr
  · rw [Stands]
    simp only [point]
    refine ⟨?_, stands.2⟩
    intro running at_
    rw [call] at at_
    cases at_
    exact is

theorem StreamClient.Delivering.opens (delivering : client.Delivering pageFrame pageShift source)
    (counted : client.point ≠ .setsCount) (counts : client.sent.length = 4 * client.outcomes.length)
    {device : Device} {dma : Dma} (placed : Placed device.stream device.call)
    (idle : device.call = none) (settings : SameSettings client.device device)
    (base : client.device.stream.base = client.first)
    (quiet : client.device.stream.view.running = []) (bytes : dma.bytes = bufSize)
    (view : device.stream.view = client.device.stream.view.launches dma)
    (isOpen : device.stream.isOpen = true) :
    (client.returned .startStream device).Delivering pageFrame pageShift source := by
  have hwAddr : device.stream.descr.bufferHwAddr = client.device.stream.descr.bufferHwAddr :=
    congrArg View.bufferHwAddr view
  have handed : device.stream.handed = client.device.stream.handed := congrArg View.handed view
  have sizes := delivering.settings
  rw [← settings.tlpSize, ← settings.tlpCount] at sizes
  have one := delivering.one counted
  rw [← settings.dmaCount] at one
  have aligned := delivering.aligned.congr settings.buffer hwAddr
  have halves := delivering.handed
  rw [← handed] at halves
  have filled := delivering.filled.launches quiet bytes
  rw [← view] at filled
  exact ⟨placed, sizes, fun _ => one, Or.inl ((congrArg View.base view).trans base), filled, halves,
    delivering.offset, aligned, delivering.maps, delivering.brings, idle, isOpen, counts⟩

/-- A stream that is past the start of its first call is counted from `first` on. -/
theorem StreamClient.Delivering.base_first
    (delivering : client.Delivering pageFrame pageShift source) {command : Command}
    {running : Running} (point : client.point = .inCall command)
    (call : client.device.call = some running) (is : running.command = command)
    (beyond : running.point ≠ .select ∨ running.command ≠ .startStream) :
    client.device.stream.base = client.first := by
  rcases delivering.based with base | unstarted
  · exact base
  · rcases beyond with beyond | beyond
    · exact absurd (unstarted.selects running call) beyond
    · have at_ := unstarted.point
      rw [point] at at_
      rcases at_ with at_ | at_ | at_
      · cases at_
      · cases at_
      · cases at_
        exact absurd is beyond

theorem StreamClient.Delivering.handsOut
    (delivering : client.Delivering pageFrame pageShift source) {command : Command}
    {running : Running} (point : client.point = .inCall command)
    (call : client.device.call = some running) (is : running.command = command) {device : Device}
    (placed : Placed device.stream device.call) (idle : device.call = none)
    (settings : SameSettings client.device device) (ret : device.ret = 0#32)
    (was : running.command ≠ .startStream)
    (retarg : running.retarg = streamHalf client.device.stream.view.served)
    (view : device.stream.view = client.device.stream.view.hands)
    (isOpen : device.stream.isOpen = decide (running.command ≠ .endStream)) :
    ({ client with offset := running.retarg : StreamClient }.returned command device).Delivering
      pageFrame pageShift source := by
  have base := delivering.base_first point call is (Or.inr was)
  have hands : device.stream.handed.length = client.device.stream.handed.length + 1 := by
    have more := congrArg View.handed view
    rw [show device.stream.handed = _ from more, View.hands, List.length_append]
    rfl
  have served : client.device.stream.view.served = client.outcomes.count true := by
    have length : client.device.stream.view.handed.length = _ := delivering.handed
    rw [View.served, length, show client.device.stream.view.base = _ from base,
      Nat.add_sub_cancel_left]
  apply delivering.returns point (is ▸ was) placed idle settings
  · exact congrArg View.bufferHwAddr view
  · exact (congrArg View.base view).trans base
  · rw [view]
    exact delivering.filled.congr rfl rfl
  · rw [hands, delivering.handed, List.count_append, ret]
    rfl
  · intro n given
    rw [List.count_append, ret] at given
    rw [retarg, served]
    exact congrArg streamHalf (Nat.succ.inj given)
  · intro next
    rw [isOpen, is, next]
    rfl

theorem StreamClient.Delivering.timesOut
    (delivering : client.Delivering pageFrame pageShift source) {command : Command}
    {running : Running} (point : client.point = .inCall command)
    (call : client.device.call = some running) (is : running.command = command) {device : Device}
    (placed : Placed device.stream device.call) (idle : device.call = none)
    (settings : SameSettings client.device device) (ret : device.ret ≠ 0#32)
    (was : running.command ≠ .startStream) (stream : device.stream = client.device.stream)
    (isOpen : client.device.stream.isOpen = true) :
    (client.returned command device).Delivering pageFrame pageShift source := by
  have base := delivering.base_first point call is (Or.inr was)
  have failed : decide (device.ret = 0#32) = false := decide_eq_false ret
  have same : (client.outcomes ++ [false]).count true = client.outcomes.count true := by
    rw [List.count_append]
    rfl
  apply delivering.returns point (is ▸ was) placed idle settings
  · rw [stream]
  · rw [stream]
    exact base
  · rw [stream]
    exact delivering.filled
  · rw [stream, failed, same]
    exact delivering.handed
  · rw [failed, same]
    exact delivering.offset
  · intro _
    rw [stream]
    exact isOpen

theorem StreamClient.Delivering.proceeds (delivering : client.Delivering pageFrame pageShift source)
    {event : Event}
    (undisturbed : event ≠ .signalled ∧ event ≠ .faulted)
    (step : client.proceed event = some after) : after.Delivering pageFrame pageShift source := by
  have stands := delivering.stands
  rw [Stands] at stands
  rw [StreamClient.proceed] at step
  split at step
  · rename_i command running point call
    obtain ⟨device, proceeds, rfl⟩ := Option.map_eq_some_iff.mp step
    rw [point] at stands
    obtain ⟨own, none_, counts⟩ := stands
    have counted : client.point ≠ .setsCount := by
      intro same
      cases point.symm.trans same
    have is := own running call
    have follows : FollowsProtocol client.device (.proceed event) :=
      delivering.follows counted undisturbed
    have placed := delivering.placed.step follows proceeds
    have here := delivering.placed
    rw [call] at here
    simp only [Device.step, call] at proceeds
    have moves := proceed_moves proceeds
    have settings := moves_settings moves
    have based : running.point ≠ .select ∨ running.command ≠ .startStream →
        client.device.stream.base = client.first := delivering.base_first point call is
    have bytes := settings_bytes delivering.settings
    cases call_step here undisturbed moves with
    | leadsOn next call' command' view selected other =>
        have base : client.device.stream.base = client.first := by
          by_cases start : running.command = .startStream
          · exact based (Or.inl (selected start))
          · exact based (Or.inr start)
        have going : ¬device.call = none := by
          rw [call']
          exact Option.some_ne_none next
        rw [if_neg going, StreamClient.pointed, if_neg other]
        exact delivering.goesOn point placed call' (command'.trans is) settings
          (congrArg View.bufferHwAddr view) ((congrArg View.base view).trans base)
          (delivering.filled.congr (congrArg View.dmas view) (congrArg View.running view))
          (congrArg View.handed view)
    | begins next call' command' was at_ view other =>
        have closed := placed_at_select here was at_
        have first : client.device.stream.card.dmas.length = client.first := by
          rw [← closed.all_handed, delivering.handed, none_ (is.symm.trans was)]
          rfl
        have going : ¬device.call = none := by
          rw [call']
          exact Option.some_ne_none next
        rw [if_neg going, StreamClient.pointed, if_neg other]
        refine delivering.goesOn point placed call'
          (command'.trans (was.symm.trans is)) settings ?_ ?_ ?_ ?_
        · exact congrArg View.bufferHwAddr view
        · exact (congrArg View.base view).trans first
        · apply delivering.filled.congr
          · rw [view]
          · rw [view]
        · exact congrArg View.handed view
    | launches dma next call' command' full at_ quiet view other =>
        have base := based (Or.inl at_)
        have going : ¬device.call = none := by
          rw [call']
          exact Option.some_ne_none next
        rw [if_neg going, StreamClient.pointed, if_neg other]
        refine delivering.goesOn point placed call' (command'.trans is) settings ?_ ?_ ?_ ?_
        · exact congrArg View.bufferHwAddr view
        · exact (congrArg View.base view).trans base
        · rw [view]
          exact delivering.filled.launches quiet (full.trans bytes)
        · exact congrArg View.handed view
    | opens dma call' was full at_ quiet view isOpen =>
        have other : event ≠ .copied := by
          intro copied
          cases copied
          cases moves with
          | copies point => exact absurd was (placed_at_copy here point).1
        rw [if_pos call', StreamClient.pointed, if_neg other, is.symm.trans was]
        exact delivering.opens counted counts placed call' settings
          (based (Or.inl at_)) quiet (full.trans bytes) view isOpen
    | hands copied call' ret was retarg view isOpen =>
        rw [if_pos call', StreamClient.pointed, if_pos copied]
        exact delivering.handsOut point call is placed call' settings ret was retarg view isOpen
    | timesOut timedOut call' ret was stream isOpen =>
        have other : event ≠ .copied := by
          intro copied
          cases timedOut.symm.trans copied
        rw [if_pos call', StreamClient.pointed, if_neg other]
        exact delivering.timesOut point call is placed call' settings ret was stream isOpen
  · cases step

theorem StreamClient.Delivering.step (delivering : client.Delivering pageFrame pageShift source)
    {action : ClientAction}
    (undisrupted : Undisrupted client action)
    (step : client.step pageFrame pageShift source action = some after) :
    after.Delivering pageFrame pageShift source := by
  cases action with
  | call => exact delivering.calls step
  | proceed event =>
      apply delivering.proceeds _ step
      constructor
      · exact fun same => undisrupted.1 (congrArg ClientAction.proceed same)
      · exact fun same => undisrupted.2 (congrArg ClientAction.proceed same)
  | interrupt dma => exact delivering.interrupted step
  | arrive dma => exact delivering.arrives step
  | send => exact delivering.sends step
  | sendFails => exact delivering.fails step

theorem reached_delivering
    (reached : (clientSystem pageFrame pageShift source).ReachableUnder Undisrupted client) :
    client.Delivering pageFrame pageShift source :=
  @System.invariant_under _ _ _ _ (fun client => client.Delivering pageFrame pageShift source)
    (fun _ => opened_delivering)
    (fun _ _ _ delivering undisrupted step => delivering.step undisrupted step) _ reached

theorem sent_bounded (delivering : client.Delivering pageFrame pageShift source) :
    client.sent.length ≤ 4 * client.outcomes.length := by
  have stands := delivering.stands
  rw [Stands] at stands
  split at stands
  · rw [stands.2.2.2]
    exact Nat.zero_le _
  · rw [stands.2.2.2]
    exact Nat.zero_le _
  · exact stands.2.2.le
  · exact stands.2.2.le
  · obtain ⟨-, -, quarter, sending⟩ := stands
    have count := sending.count
    have bound := sending.some_
    omega
  · exact stands.2

end Clients

/-- Every datagram is a part of the half that was handed out last, and without a call that
fails the datagrams are what the card tells, in order and without a gap. -/
structure InSequence (source : ℕ → ℕ → U8) (client : StreamClient) : Prop where
  latest : ∀ m datagram, client.sent[m]? = some datagram → client.Brings source m datagram
  gapless : (∀ outcome ∈ client.outcomes, outcome = true) → ∀ m datagram,
    client.sent[m]? = some datagram →
    datagram.payload = partOf source (client.first + m / 4) (m % 4)

section First

variable {pageFrame : ℕ → ℕ} {pageShift : ℕ} {source : ℕ → ℕ → U8}

theorem bytes_arrive {client : StreamClient}
    (reached : (clientSystem pageFrame pageShift source).ReachableUnder Undisrupted client) {dma : ℕ}
    {started : Dma} (there : client.device.stream.card.dmas[dma]? = some started)
    (runs : dma ∈ client.device.stream.card.running) (none_ : client.arrived dma = 0) (count : ℕ)
    (bound : count ≤ started.bytes) : ∃ buffer arrived, arrived dma = count ∧
      (clientSystem pageFrame pageShift source).ReachableUnder Undisrupted
        { client with buffer := buffer, arrived := arrived } := by
  induction count with
  | zero => exact ⟨client.buffer, client.arrived, none_, reached⟩
  | succ count ih =>
      obtain ⟨buffer, arrived, so_far, earlier⟩ := ih (Nat.le_of_succ_le bound)
      have step : { client with buffer := buffer, arrived := arrived : StreamClient }.arrive source
          dma = some { client with
            buffer := buffer.writeBus client.device.stream.descr.bufferHwAddr.toNat (2 * bufSize)
              (started.address.toNat + arrived dma) (source dma (arrived dma))
            arrived := Function.update arrived dma (arrived dma + 1) } := by
        rw [StreamClient.arrive]
        simp only [there]
        rw [if_pos ⟨runs, so_far ▸ bound⟩]
      have quiet : Undisrupted { client with buffer := buffer, arrived := arrived } (.arrive dma) :=
        ⟨nofun, nofun⟩
      refine ⟨_, _, ?_, earlier.next quiet step⟩
      rw [Function.update_self, so_far]

theorem byte_there {client : StreamClient} (delivering : client.Delivering pageFrame pageShift source)
    {last : Bool} {socket : Socket} {start : ℕ} {rest : List (Socket × ℕ)} {taken : List U8}
    (point : client.point = .sends last ((socket, start) :: rest) taken) {n : ℕ}
    (given : client.outcomes.count true = n + 1) : ∃ byte, client.mapped pageFrame pageShift
      (client.vma.vmStart.toNat + client.offset.toNat + start + taken.length) = some byte := by
  have stands := delivering.stands
  rw [Stands, point] at stands
  obtain ⟨idle, isOpen, quarter, sending⟩ := stands
  obtain ⟨own, parts⟩ := half_parts_at last sending.some_
  have left := sending.left.trans parts
  rw [List.cons.injEq, Prod.mk.injEq] at left
  rw [left.1.2]
  exact ⟨_, next_byte delivering point idle sending given⟩

theorem send_next {client : StreamClient} {last : Bool} {socket : Socket} {start : ℕ}
    {rest : List (Socket × ℕ)} {taken : List U8} {byte : U8}
    (point : client.point = .sends last ((socket, start) :: rest) taken)
    (there : client.mapped pageFrame pageShift
      (client.vma.vmStart.toNat + client.offset.toNat + start + taken.length) = some byte)
    (more : taken.length + 1 < bufLen / 4) : client.send pageFrame pageShift =
      some { client with point := .sends last ((socket, start) :: rest) (taken ++ [byte]) } := by
  rw [StreamClient.send, point]
  dsimp only
  rw [there, Option.map_some, if_pos more]

theorem send_last {client : StreamClient} {last : Bool} {socket : Socket} {start : ℕ}
    {rest : List (Socket × ℕ)} {taken : List U8} {byte : U8}
    (point : client.point = .sends last ((socket, start) :: rest) taken)
    (there : client.mapped pageFrame pageShift
      (client.vma.vmStart.toNat + client.offset.toNat + start + taken.length) = some byte)
    (full : ¬taken.length + 1 < bufLen / 4) (others : rest ≠ []) : client.send pageFrame pageShift =
      some { client with
        sent := client.sent ++ [⟨socket, taken ++ [byte]⟩], point := .sends last rest [] } := by
  rw [StreamClient.send, point]
  dsimp only
  rw [there, Option.map_some, if_neg full, if_neg others]

theorem bytes_taken {client : StreamClient}
    (reached : (clientSystem pageFrame pageShift source).ReachableUnder Undisrupted client)
    {last : Bool} {socket : Socket} {start : ℕ} {rest : List (Socket × ℕ)}
    (point : client.point = .sends last ((socket, start) :: rest) []) {n : ℕ}
    (given : client.outcomes.count true = n + 1) (count : ℕ) (bound : count < bufLen / 4) :
    ∃ taken, taken.length = count ∧ (clientSystem pageFrame pageShift source).ReachableUnder Undisrupted
      { client with point := .sends last ((socket, start) :: rest) taken } := by
  induction count with
  | zero =>
      refine ⟨[], rfl, ?_⟩
      rw [← point]
      exact reached
  | succ count ih =>
      obtain ⟨taken, length, earlier⟩ := ih (Nat.lt_of_succ_lt bound)
      have quiet : Undisrupted { client with point := .sends last ((socket, start) :: rest) taken }
          .send := ⟨nofun, nofun⟩
      obtain ⟨byte, there⟩ := byte_there (reached_delivering earlier) rfl given
      refine ⟨taken ++ [byte], ?_, earlier.next quiet ?_⟩
      · rw [List.length_append, length]
        rfl
      · exact send_next rfl there (length ▸ bound)

/-- A client that has opened the device, on a machine with pages of 4096 bytes. -/
def openedClient : StreamClient where
  device := probedDevice
  buffer := fun _ => 0#8
  vma := clientVma
  point := .setsCount
  i := 1
  offset := 0#32
  sent := []
  arrived := fun _ => 0
  first := 0
  outcomes := []

theorem client_opened : Opened directFrame 12 openedClient where
  reached := probed_reachable
  idle := rfl
  closed := rfl
  settings := ⟨rfl, rfl⟩
  aligned := ⟨⟨0xffff880000010, by decide⟩, ⟨0x10, by decide⟩, ⟨0x7f0000000, by decide⟩, by decide⟩
  maps := by decide
  begins := ⟨rfl, rfl, rfl, rfl⟩
  records := ⟨rfl, rfl, fun _ _ => rfl⟩

def clientAfter (source : ℕ → ℕ → U8) (client : StreamClient) (actions : List ClientAction) :
    StreamClient :=
  (((clientSystem directFrame 12 source).guarded Undisrupted).runFrom client actions).getD client

/-- `SET_DMACOUNT` and `START_STREAM`. -/
def clientStarts : List ClientAction :=
  [.call, .call, .proceed .plain, .proceed .plain, .proceed (.mapped 0x20000#64), .proceed .plain]

/-- A `NEXT_STREAM` that finds the DMA over. -/
def clientNext : List ClientAction :=
  [.call, .proceed .plain, .proceed .plain, .proceed .plain, .proceed (.mapped 0x20000#64),
    .proceed .plain, .proceed .copied]

def countingBytes (dma byte : ℕ) : U8 := BitVec.ofNat 8 (dma + byte)

end First

end FpgaPcie.Creotech
