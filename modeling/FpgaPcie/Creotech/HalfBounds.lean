import FpgaPcie.Creotech.CharDevice
import FpgaPcie.Creotech.StreamOrder

/-!
# Writing inside the selected half

The DMAs of a call lie one behind the other. Where the settings fit when the call comes to
its DMAs, each of them begins where the one before ended, and the last one ends inside the
half. Nothing but that call moves the half or changes the settings meanwhile.
-/

namespace FpgaPcie.Creotech

open FpgaPcie.Transition

set_option autoImplicit false

theorem init_device_dmas (stream : Stream) :
    stream.fpgaInitDevice.card.dmas = stream.card.dmas := by
  rcases init_device_card stream with ⟨regs, card⟩
  rw [card]

theorem launch_dmas (stream : Stream) (sendInterrupt : Bool) {address : U32}
    (programmed : Programmed stream.card stream.descr address) :
    (stream.launchDma sendInterrupt).card.dmas = stream.card.dmas ++
      [⟨address, stream.descr.tlpSize, stream.descr.tlpCount, sendInterrupt⟩] := by
  rw [← programmed.address, ← programmed.tlpSize, ← programmed.tlpCount]
  cases sendInterrupt with
  | true => exact (launch_last stream).1
  | false => exact (launch_silent stream).1

section Addresses

variable {descr : PcieDescr} {offset : U64}

theorem half_of_buffer (low : descr.bufferHwAddr.toNat + 2 * bufSize ≤ 2 ^ 32) :
    (descr.bufferHwAddr + descr.half).toNat = descr.bufferHwAddr.toNat + descr.half.toNat ∧
      descr.half.toNat ≤ bufSize := by
  have small : descr.half.toNat ≤ bufSize := by
    rw [PcieDescr.half]
    split <;> decide
  refine ⟨?_, small⟩
  simp only [bufSize] at low small
  rw [BitVec.toNat_add]
  omega

theorem tlp_address_in_half (low : descr.bufferHwAddr.toNat + 2 * bufSize ≤ 2 ^ 32)
    (inside : offset.toNat < bufSize) :
    (descr.tlpAddress offset).toNat =
      (descr.bufferHwAddr + descr.half).toNat + offset.toNat := by
  have half := half_of_buffer low
  simp only [bufSize] at low half inside
  rw [PcieDescr.tlpAddress, BitVec.toNat_setWidth, BitVec.toNat_add]
  omega

theorem transfer_size_eq (fits : descr.bytes ≤ bufSize) :
    descr.transferSize.toNat = descr.bytes := by
  have product : (4#32 * descr.tlpSize * descr.tlpCount).toNat = descr.bytes := by
    have four : (4#32).toNat = 4 := rfl
    rw [BitVec.toNat_mul, BitVec.toNat_mul, four, Nat.mod_mul_mod]
    exact Nat.mod_eq_of_lt (fits.trans_lt (by decide))
  have positive : (4#32 * descr.tlpSize * descr.tlpCount).msb = false := by
    rw [BitVec.msb_eq_false_iff_two_mul_lt, product]
    simp only [bufSize] at fits
    omega
  rw [PcieDescr.transferSize, BitVec.signExtend_eq_setWidth_of_msb_false positive,
    BitVec.toNat_setWidth, product]
  exact Nat.mod_eq_of_lt (fits.trans_lt (by decide))

end Addresses

/-- `left` DMAs are to come; they begin at `offset`, where those before have ended. -/
structure Underway (session : Session) (left : ℕ) (offset : U64) : Prop where
  begins : ∃ done, offset.toNat = done * session.device.stream.descr.bytes
  room : offset.toNat + left * session.device.stream.descr.bytes ≤ bufSize
  behind : ∀ started ∈ session.started, started.call = session.calls →
    started.dma.address.toNat + started.dma.bytes ≤ session.half.toNat + offset.toNat

def Fresh (session : Session) : Prop := ∀ started ∈ session.started, started.call < session.calls

def AtPoint (session : Session) : Point → Prop
  | .loop left offset => Underway session (left + 1) offset
  | .last offset => Underway session 1 offset
  | .launch sendInterrupt left offset =>
      Underway session (if sendInterrupt then 1 else left + 2) offset ∧
        Programmed session.device.stream.card session.device.stream.descr
          (session.device.stream.descr.tlpAddress offset)
  | .copy => True
  | .check | .waiting | .recheck | .waitingDone | .select => Fresh session

structure Bounded (session : Session) : Prop where
  low : session.device.stream.descr.bufferHwAddr.toNat + 2 * bufSize ≤ 2 ^ 32
  inside : ∀ started ∈ session.started, started.Inside
  numbered : ∀ started ∈ session.started, started.call ≤ session.calls
  apart : session.started.Pairwise fun first second =>
    first.call = second.call → first.dma.Disjoint second.dma
  point : ∀ running, session.device.call = some running → AtPoint session running.point

section Steps

variable {session after : Session} {left : ℕ} {offset : U64}

theorem Bounded.idle (bounded : Bounded session) (started : after.started = session.started)
    (buffer : after.device.stream.descr.bufferHwAddr = session.device.stream.descr.bufferHwAddr)
    (calls : session.calls ≤ after.calls)
    (point : ∀ running, after.device.call = some running → AtPoint after running.point) :
    Bounded after where
  low := buffer ▸ bounded.low
  inside := started ▸ bounded.inside
  numbered := by
    rw [started]
    exact fun dma member => (bounded.numbered dma member).trans calls
  apart := started ▸ bounded.apart
  point := point

theorem Underway.congr (underway : Underway session left offset)
    (started : after.started = session.started) (calls : after.calls = session.calls)
    (half : after.half = session.half)
    (bytes : after.device.stream.descr.bytes = session.device.stream.descr.bytes) :
    Underway after left offset where
  begins := bytes ▸ underway.begins
  room := bytes ▸ underway.room
  behind := by
    rw [started, calls, half]
    exact underway.behind

/-- A DMA begins inside the half, and so its address is not cut off. -/
theorem Underway.address (underway : Underway session (left + 1) offset)
    (low : session.device.stream.descr.bufferHwAddr.toNat + 2 * bufSize ≤ 2 ^ 32) :
    (session.device.stream.descr.tlpAddress offset).toNat =
      session.half.toNat + offset.toNat := by
  apply tlp_address_in_half low
  obtain ⟨done, begins⟩ := underway.begins
  have room := underway.room
  rw [Nat.succ_mul] at room
  have size : 0 < bufSize := by decide
  by_cases empty : session.device.stream.descr.bytes = 0
  · rw [empty, Nat.mul_zero] at begins
    omega
  · omega

/-- The DMA of a call that is started at `offset`. -/
def Session.startedAt (session : Session) (offset : U64) (sendInterrupt : Bool) : Started :=
  let descr := session.device.stream.descr
  ⟨session.calls, session.half,
    ⟨descr.tlpAddress offset, descr.tlpSize, descr.tlpCount, sendInterrupt⟩⟩

theorem Underway.launched {sendInterrupt : Bool} (underway : Underway session (left + 1) offset)
    (low : session.device.stream.descr.bufferHwAddr.toNat + 2 * bufSize ≤ 2 ^ 32)
    (started : after.started = session.started ++ [session.startedAt offset sendInterrupt])
    (descr : after.device.stream.descr = session.device.stream.descr)
    (calls : after.calls = session.calls) :
    Underway after left (offset + session.device.stream.descr.transferSize) := by
  have address := underway.address low
  obtain ⟨⟨done, begins⟩, room, behind⟩ := underway
  have split : (left + 1) * session.device.stream.descr.bytes =
    left * session.device.stream.descr.bytes + session.device.stream.descr.bytes := Nat.succ_mul _ _
  have size := @transfer_size_eq session.device.stream.descr (by omega)
  have next : (offset + session.device.stream.descr.transferSize).toNat =
      offset.toNat + session.device.stream.descr.bytes := by
    have small : bufSize < 2 ^ 64 := by decide
    rw [BitVec.toNat_add, size]
    exact Nat.mod_eq_of_lt (by omega)
  have half : after.half = session.half := by rw [Session.half, Session.half, descr]
  constructor
  · exact ⟨done + 1, by rw [next, descr, begins, Nat.succ_mul]⟩
  · rw [next, descr]
    omega
  · intro dma member call
    rw [started, List.mem_append, List.mem_singleton] at member
    rw [half, next]
    rcases member with earlier | rfl
    · have ends := behind dma earlier (call.trans calls)
      omega
    · have bytes : (session.startedAt offset sendInterrupt).dma.bytes =
        session.device.stream.descr.bytes := rfl
      have here : (session.startedAt offset sendInterrupt).dma.address =
        session.device.stream.descr.tlpAddress offset := rfl
      rw [bytes, here]
      omega

theorem Bounded.launched {sendInterrupt : Bool} (bounded : Bounded session)
    (underway : Underway session (left + 1) offset)
    (started : after.started = session.started ++ [session.startedAt offset sendInterrupt])
    (descr : after.device.stream.descr = session.device.stream.descr)
    (calls : after.calls = session.calls)
    (point : ∀ running, after.device.call = some running → AtPoint after running.point) :
    Bounded after := by
  have address := underway.address bounded.low
  have room := underway.room
  rw [Nat.succ_mul] at room
  have bytes : (session.startedAt offset sendInterrupt).dma.bytes =
    session.device.stream.descr.bytes := rfl
  have here : (session.startedAt offset sendInterrupt).dma.address.toNat =
    session.half.toNat + offset.toNat := address
  refine ⟨descr ▸ bounded.low, ?_, ?_, ?_, point⟩
  · intro dma member
    rw [started, List.mem_append, List.mem_singleton] at member
    rcases member with earlier | rfl
    · exact bounded.inside dma earlier
    · constructor
      · exact here ▸ Nat.le_add_right _ _
      · change _ ≤ session.half.toNat + bufSize
        rw [here, bytes]
        omega
  · intro dma member
    rw [started, List.mem_append, List.mem_singleton] at member
    rw [calls]
    rcases member with earlier | rfl
    · exact bounded.numbered dma earlier
    · exact le_rfl
  · rw [started, List.pairwise_append]
    refine ⟨bounded.apart, List.pairwise_singleton _ _, ?_⟩
    intro first member second last call
    rw [List.mem_singleton] at last
    subst last
    apply Or.inl
    rw [here]
    exact underway.behind first member call

end Steps

section Requests

variable {session : Session} {request : Request} {device : Device} {running : Running}
variable {event : Event}

theorem record_idle (request : Request)
    (same : device.stream.card.dmas = session.device.stream.card.dmas) :
    (session.record request device).started = session.started := by
  simp [Session.record, Session.newDmas, same]

theorem record_new (request : Request) {dma : Dma}
    (new : device.stream.card.dmas = session.device.stream.card.dmas ++ [dma]) :
    (session.record request device).started =
      session.started ++ [⟨session.calls, session.half, dma⟩] := by
  simp [Session.record, Session.newDmas, new]

/-- A step of the call at work that starts no DMA, to its next point. -/
theorem Bounded.goes (bounded : Bounded session) {stream : Stream} {next : Running}
    (dmas : stream.card.dmas = session.device.stream.card.dmas)
    (buffer : stream.descr.bufferHwAddr = session.device.stream.descr.bufferHwAddr)
    (point : (session.record (.stream (.proceed event))
        { session.device with stream := stream, call := some next }).started = session.started →
      AtPoint (session.record (.stream (.proceed event))
        { session.device with stream := stream, call := some next }) next.point) :
    Bounded (session.record (.stream (.proceed event))
      { session.device with stream := stream, call := some next }) := by
  have started := @record_idle session
    { session.device with stream := stream, call := some next } (.stream (.proceed event)) dmas
  apply bounded.idle started buffer le_rfl
  intro now here
  cases here
  exact point started

theorem at_either {condition : Prop} [Decidable condition] {first second : Point}
    (one : AtPoint session first) (other : AtPoint session second) :
    AtPoint session (if condition then first else second) := by
  split
  · exact one
  · exact other

theorem at_after_wait (fresh : Fresh session) (running : Running) :
    AtPoint session (Device.afterWait running) := by
  obtain ⟨command, point, retarg⟩ := running
  cases command with
  | startStream | nextStream | endStream => exact fresh

theorem Fresh.kept {after : Session} (fresh : Fresh session)
    (started : after.started = session.started) (calls : after.calls = session.calls) :
    Fresh after := by
  rw [Fresh, started, calls]
  exact fresh

theorem Fresh.underway {after : Session} (fresh : Fresh session)
    (started : after.started = session.started) (calls : after.calls = session.calls)
    (fits : after.device.stream.descr.Fits) :
    Underway after (after.device.stream.descr.silentDmas + 1) 0#64 where
  begins := ⟨0, (Nat.zero_mul _).symm⟩
  room := (Nat.zero_add _).trans_le fits
  behind dma member call := by
    rw [started] at member
    rw [calls] at call
    exact absurd call (fresh dma member).ne

section Places

variable {command : Command} {retarg : U32}

theorem Bounded.checked (bounded : Bounded session) (fresh : Fresh session)
    (step : session.device.proceed ⟨command, .check, retarg⟩ event = some device) :
    Bounded (session.record (.stream (.proceed event)) device) := by
  cases event with
  | plain =>
      cases step
      apply bounded.goes rfl rfl
      intro started
      have still := fresh.kept started rfl
      exact at_either (at_after_wait still _) still
  | woken | timedOut | signalled | mapped | copied | faulted => cases step

theorem Bounded.waited (bounded : Bounded session) (fresh : Fresh session)
    (step : session.device.proceed ⟨command, .waiting, retarg⟩ event = some device) :
    Bounded (session.record (.stream (.proceed event)) device) := by
  cases event with
  | woken =>
      rw [proceed_woken] at step
      split at step
      · cases step
        apply bounded.goes rfl rfl
        intro started
        exact at_after_wait (fresh.kept started rfl) _
      · cases step
  | timedOut =>
      cases step
      exact bounded.idle (record_idle _ rfl) rfl le_rfl nofun
  | signalled =>
      cases step
      apply bounded.goes rfl rfl
      intro started
      exact at_after_wait (fresh.kept started rfl) _
  | plain | mapped | copied | faulted => cases step

theorem Bounded.rechecked (bounded : Bounded session) (fresh : Fresh session)
    (step : session.device.proceed ⟨command, .recheck, retarg⟩ event = some device) :
    Bounded (session.record (.stream (.proceed event)) device) := by
  cases event with
  | plain =>
      cases step
      apply bounded.goes rfl rfl
      intro started
      have still := fresh.kept started rfl
      exact at_either still still
  | woken | timedOut | signalled | mapped | copied | faulted => cases step

theorem Bounded.waited_done (bounded : Bounded session) (fresh : Fresh session)
    (step : session.device.proceed ⟨command, .waitingDone, retarg⟩ event = some device) :
    Bounded (session.record (.stream (.proceed event)) device) := by
  cases event with
  | woken =>
      rw [proceed_woken_done] at step
      split at step
      · cases step
        exact bounded.goes rfl rfl fun started => fresh.kept started rfl
      · cases step
  | signalled =>
      cases step
      exact bounded.goes rfl rfl fun started => fresh.kept started rfl
  | plain | timedOut | mapped | copied | faulted => cases step

theorem Bounded.selected (bounded : Bounded session) (fresh : Fresh session)
    (fits : event = .plain → command ≠ .endStream → session.device.stream.descr.Fits)
    (step : session.device.proceed ⟨command, .select, retarg⟩ event = some device) :
    Bounded (session.record (.stream (.proceed event)) device) := by
  cases event with
  | plain =>
      cases command with
      | startStream | nextStream =>
          cases step
          refine bounded.goes rfl rfl ?_
          intro started
          exact fresh.underway started rfl (fits rfl (by simp))
      | endStream =>
          cases step
          exact bounded.goes rfl rfl fun _ => trivial
  | woken | timedOut | signalled | mapped | copied | faulted => cases step

/-- Programming a DMA starts none, and leaves the registers as they are launched. -/
theorem Bounded.programmed (bounded : Bounded session) (dmaAddr : U64) {sendInterrupt : Bool}
    {left : ℕ} {offset : U64}
    (underway : Underway session (if sendInterrupt then 1 else left + 2) offset) :
    Bounded (session.record (.stream (.proceed event))
      { session.device with
        stream := session.device.stream.programDma offset dmaAddr
        call := some ⟨command, .launch sendInterrupt left offset, retarg⟩ }) := by
  obtain ⟨dmas, -, -, registers⟩ := program_dma_card session.device.stream offset dmaAddr
  apply bounded.goes dmas rfl
  intro started
  constructor
  · exact underway.congr started rfl rfl rfl
  · exact ⟨registers.address, registers.tlpSize, registers.tlpCount⟩

theorem Bounded.looped (bounded : Bounded session) {left : ℕ} {offset : U64}
    (underway : Underway session (left + 1) offset)
    (step : session.device.proceed ⟨command, .loop left offset, retarg⟩ event = some device) :
    Bounded (session.record (.stream (.proceed event)) device) := by
  cases left with
  | zero =>
      cases event with
      | plain =>
          cases step
          exact bounded.goes rfl rfl fun started => underway.congr started rfl rfl rfl
      | woken | timedOut | signalled | mapped | copied | faulted => cases step
  | succ left =>
      cases event with
      | mapped dmaAddr =>
          cases step
          exact bounded.programmed dmaAddr underway
      | plain | woken | timedOut | signalled | copied | faulted => cases step

theorem Bounded.programmed_last (bounded : Bounded session) {offset : U64}
    (underway : Underway session 1 offset)
    (step : session.device.proceed ⟨command, .last offset, retarg⟩ event = some device) :
    Bounded (session.record (.stream (.proceed event)) device) := by
  cases event with
  | mapped dmaAddr =>
      cases step
      exact bounded.programmed dmaAddr underway
  | plain | woken | timedOut | signalled | copied | faulted => cases step

theorem Bounded.launches (bounded : Bounded session) {sendInterrupt : Bool} {left : ℕ}
    {offset : U64} (point : AtPoint session (.launch sendInterrupt left offset))
    (step : session.device.proceed ⟨command, .launch sendInterrupt left offset, retarg⟩ event =
      some device) :
    Bounded (session.record (.stream (.proceed event)) device) := by
  cases event with
  | plain =>
      obtain ⟨underway, registers⟩ := point
      have dmas := launch_dmas session.device.stream sendInterrupt registers
      cases sendInterrupt with
      | true =>
          cases command with
          | startStream =>
              cases step
              exact bounded.launched underway (record_new _ dmas) rfl rfl nofun
          | nextStream | endStream =>
              cases step
              refine bounded.launched underway (record_new _ dmas) rfl rfl ?_
              intro running now
              cases now
              trivial
      | false =>
          cases step
          refine bounded.launched underway (record_new _ dmas) rfl rfl ?_
          intro running now
          cases now
          exact underway.launched bounded.low (record_new _ dmas) rfl rfl
  | woken | timedOut | signalled | mapped | copied | faulted => cases step

theorem Bounded.copied (bounded : Bounded session)
    (step : session.device.proceed ⟨command, .copy, retarg⟩ event = some device) :
    Bounded (session.record (.stream (.proceed event)) device) := by
  cases event with
  | copied =>
      cases step
      exact bounded.idle (record_idle _ rfl) rfl le_rfl nofun
  | faulted =>
      cases step
      exact bounded.idle (record_idle _ rfl) rfl le_rfl nofun
  | plain | woken | timedOut | signalled | mapped => cases step

end Places

theorem Bounded.proceeded (bounded : Bounded session) (call : session.device.call = some running)
    (fits : StartsFitting session (.stream (.proceed event)))
    (step : session.device.proceed running event = some device) :
    Bounded (session.record (.stream (.proceed event)) device) := by
  have point := bounded.point running call
  have fits := fits running call
  obtain ⟨command, place, retarg⟩ := running
  cases place with
  | check => exact bounded.checked point step
  | waiting => exact bounded.waited point step
  | recheck => exact bounded.rechecked point step
  | waitingDone => exact bounded.waited_done point step
  | select =>
      apply bounded.selected point _ step
      intro same starts
      subst same
      exact fits rfl starts rfl
  | loop left offset => exact bounded.looped point step
  | last offset => exact bounded.programmed_last point step
  | launch sendInterrupt left offset => exact bounded.launches point step
  | copy => exact bounded.copied step

theorem Bounded.begins {command : Command} (bounded : Bounded session)
    (step : session.device.step (.ioctl command) = some device) :
    Bounded (session.record (.stream (.ioctl command)) device) := by
  cases call : session.device.call with
  | some running => cases command <;> simp [Device.step, call] at step
  | none =>
      have idle : ∀ next : Running, AtPoint (session.record (.stream (.ioctl command))
          { session.device with call := some next }) next.point →
          Bounded (session.record (.stream (.ioctl command))
            { session.device with call := some next }) := by
        intro next point
        refine bounded.idle (record_idle _ rfl) rfl (Nat.le_succ _) ?_
        intro running here
        cases here
        exact point
      have fresh : ∀ device : Device, device.stream.card.dmas = session.device.stream.card.dmas →
          Fresh (session.record (.stream (.ioctl command)) device) := by
        intro device dmas started member
        rw [record_idle _ dmas] at member
        exact Nat.lt_succ_of_le (bounded.numbered started member)
      cases command with
      | startStream =>
          simp only [Device.step, call] at step
          cases step
          exact idle _ (fresh _ rfl)
      | nextStream | endStream =>
          simp only [Device.step, call] at step
          cases step
          exact idle _ (fresh _ rfl)

/-- The handler touches neither the registers nor what they are set from. -/
theorem Bounded.interrupted {dma : ℕ} (bounded : Bounded session)
    (step : session.device.step (.interrupt dma) = some device) :
    Bounded (session.record (.stream (.interrupt dma)) device) := by
  obtain ⟨stream, interrupts, rfl⟩ := Option.map_eq_some_iff.mp step
  simp only [Stream.interrupt, Option.ite_none_right_eq_some, Option.some.injEq] at interrupts
  obtain ⟨-, rfl⟩ := interrupts
  have started := @record_idle session { session.device with stream := _ }
    (.stream (.interrupt dma)) rfl
  refine bounded.idle started rfl le_rfl ?_
  intro running here
  have point := bounded.point running here
  obtain ⟨command, place, retarg⟩ := running
  cases place with
  | loop left offset => exact Underway.congr point started rfl rfl rfl
  | last offset => exact Underway.congr point started rfl rfl rfl
  | launch sendInterrupt left offset =>
      obtain ⟨underway, registers⟩ := point
      exact ⟨underway.congr started rfl rfl rfl, registers.address, registers.tlpSize,
        registers.tlpCount⟩
  | copy => trivial
  | check | waiting | recheck | waitingDone | select => exact Fresh.kept point started rfl

theorem Bounded.served (bounded : Bounded session) (quiet : device.call = none)
    (dmas : device.stream.card.dmas = session.device.stream.card.dmas)
    (buffer : device.stream.descr.bufferHwAddr = session.device.stream.descr.bufferHwAddr)
    (calls : session.calls ≤ (session.record request device).calls) :
    Bounded (session.record request device) := by
  apply bounded.idle (record_idle _ dmas) buffer calls
  intro running here
  exact absurd (quiet.symm.trans here) (Option.some_ne_none _).symm

theorem Bounded.step {after : Session} (bounded : Bounded session)
    (fits : StartsFitting session request) (step : session.step request = some after) :
    Bounded after := by
  obtain ⟨device, requested, rfl⟩ := Option.map_eq_some_iff.mp step
  rcases request_cases requested with ⟨action, rfl, moves⟩ | ⟨quiet, sets⟩
  · cases action with
    | ioctl command => exact bounded.begins moves
    | proceed event =>
        cases call : session.device.call with
        | none => simp [Device.step, call] at moves
        | some running =>
            simp only [Device.step, call] at moves
            exact bounded.proceeded call fits moves
    | interrupt dma => exact bounded.interrupted moves
  · cases sets with
    | resetCard => exact bounded.served quiet (init_device_dmas _) rfl le_rfl
    | dmaCount | tlpSize | tlpSizeRefused | tlpCount | tlpCountRefused =>
        exact bounded.served quiet rfl rfl le_rfl

theorem bounded_start (initial : sessionSystem.initial session) : Bounded session := by
  obtain ⟨probed, calls, none_⟩ := initial
  refine ⟨probed.lowBuffer, ?_, ?_, ?_, ?_⟩
  · rw [none_]
    exact fun _ member => absurd member List.not_mem_nil
  · rw [none_]
    exact fun _ member => absurd member List.not_mem_nil
  · rw [none_]
    exact List.Pairwise.nil
  · intro running here
    exact absurd (probed.closed.2.symm.trans here) (Option.some_ne_none _).symm

end Requests

/-- In every session whose stream calls find settings that fit, every DMA is inside the half
that was selected, and the DMAs of one call are disjoint. -/
theorem dmas_stay_in_half {session : Session}
    (reached : sessionSystem.ReachableUnder StartsFitting session) :
    (∀ started ∈ session.started, started.Inside) ∧
      session.started.Pairwise fun first second =>
        first.call = second.call → first.dma.Disjoint second.dma := by
  have bounded : Bounded session :=
    System.invariant_under (fun _ => bounded_start) (fun _ _ _ bounded fits step =>
      bounded.step fits step) reached
  exact ⟨bounded.inside, bounded.apart⟩

def startTwo : List Request :=
  [.stream (.ioctl .startStream), .stream (.proceed .plain),
    .stream (.proceed (.mapped 0x20000#64)), .stream (.proceed .plain), .stream (.proceed .plain),
    .stream (.proceed (.mapped 0x20000#64)), .stream (.proceed .plain)]

def probedSession : Session := ⟨probedDevice, 0, []⟩

def sessionAfter (requests : List Request) : Session :=
  (sessionSystem.runFrom probedSession requests).getD probedSession

theorem probed_session_initial : sessionSystem.initial probedSession :=
  ⟨⟨by decide, ⟨rfl, rfl, rfl⟩, ⟨rfl, rfl⟩, ⟨rfl, rfl⟩⟩, rfl, rfl⟩

theorem dmas_stay_in_half_two_dmas :
    let session := sessionAfter (.setDmaCount 2#32 :: .setTlpCount 64#32 64#32 :: startTwo)
    session.started.length = 2 ∧ (∀ started ∈ session.started, started.Inside) ∧
      session.started.Pairwise fun first second =>
        first.call = second.call → first.dma.Disjoint second.dma := by
  have reached : sessionSystem.ReachableUnder StartsFitting
      (sessionAfter (.setDmaCount 2#32 :: .setTlpCount 64#32 64#32 :: startTwo)) :=
    System.reachable_of_guarded_run (.setDmaCount 2#32 :: .setTlpCount 64#32 64#32 :: startTwo)
      (.start probed_session_initial) rfl
  exact ⟨rfl, dmas_stay_in_half reached⟩

/-- With the packets that the driver starts with, one DMA fills the half. -/
theorem second_dma_leaves_half :
    ∃ session : Session, sessionSystem.Reachable session ∧
      ∃ started ∈ session.started, ¬started.Inside := by
  refine ⟨sessionAfter (.setDmaCount 2#32 :: startTwo), ?_,
    ⟨1, 0x10000#64, 0x14000#32, 32#32, 128#32, true⟩, ?_, ?_⟩
  · exact System.reachable_of_run (.setDmaCount 2#32 :: startTwo) (.start probed_session_initial)
      (fun _ _ _ => trivial) rfl
  · exact List.mem_cons_of_mem _ List.mem_cons_self
  · exact fun inside => absurd inside.back (by decide)

end FpgaPcie.Creotech
