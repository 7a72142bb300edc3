import FpgaPcie.Creotech.Pcie
import Mathlib.Tactic.Common

/-!
# How far a stream has come

The DMAs of a stream take turns with the halves, and the halves are handed out in the
order of the DMAs. A stage counts the DMAs started; starting a DMA, its interrupt and
handing a half out lead from stage to stage.
-/

namespace FpgaPcie.Creotech

set_option autoImplicit false

theorem write_idle (card : Card) (offset val : U32)
    (idle : offset ≠ regDdmacr ∨ val &&& bitWdmaStart = 0#32) :
    card.writeReg offset val = { card with regs := Function.update card.regs offset val } := by
  have other : ¬(offset = regDdmacr ∧ val &&& bitWdmaStart ≠ 0#32) := by
    intro both
    rcases both with ⟨here, starts⟩
    exact idle.elim (fun elsewhere => elsewhere here) starts
  rw [Card.writeReg, if_neg other]

def setRegs (regs : U32 → U32) (writes : List (U32 × U32)) : U32 → U32 :=
  writes.foldl (fun regs write => Function.update regs write.1 write.2) regs

theorem writes_idle (writes : List (U32 × U32)) (card : Card)
    (idle : ∀ write ∈ writes, write.1 ≠ regDdmacr ∨ write.2 &&& bitWdmaStart = 0#32) :
    writes.foldl (fun card write => card.writeReg write.1 write.2) card =
      { card with regs := setRegs card.regs writes } := by
  induction writes generalizing card with
  | nil => rfl
  | cons write rest ih =>
      rw [List.foldl_cons, write_idle card _ _ (idle write List.mem_cons_self)]
      exact ih _ fun other member => idle other (List.mem_cons_of_mem _ member)

theorem writes_other (writes : List (U32 × U32)) (card : Card)
    (other : regDdmacr ∉ writes.map Prod.fst) :
    writes.foldl (fun card write => card.writeReg write.1 write.2) card =
      { card with regs := setRegs card.regs writes } := by
  apply writes_idle
  intro write member
  apply Or.inl
  intro same
  exact other (same ▸ List.mem_map_of_mem member)

structure Programmed (card : Card) (descr : PcieDescr) (address : U32) : Prop where
  address : card.regs regWdmaTlpA = address
  tlpSize : card.regs regWdmaTlpS = descr.tlpSize
  tlpCount : card.regs regWdmaTlpC = descr.tlpCount

theorem program_dma_card (stream : Stream) (offset mapped : U64) :
    (stream.programDma offset mapped).card.dmas = stream.card.dmas ∧
    (stream.programDma offset mapped).card.running = stream.card.running ∧
    (stream.programDma offset mapped).card.completed = stream.card.completed ∧
    Programmed (stream.programDma offset mapped).card stream.descr
      (stream.descr.tlpAddress offset) := by
  have other : regDdmacr ∉
      [regDcsr, regDcsr, regWdmaTlpC, regWdmaTlpS, regWdmaTlpP, regWdmaTlpA] := by decide
  have card : ∃ regs, (stream.programDma offset mapped).card = { stream.card with regs := regs } ∧
      regs regWdmaTlpA = stream.descr.tlpAddress offset ∧
      regs regWdmaTlpS = stream.descr.tlpSize ∧ regs regWdmaTlpC = stream.descr.tlpCount :=
    ⟨_, writes_other _ stream.card other, rfl, rfl, rfl⟩
  rcases card with ⟨regs, is, address, size, count⟩
  rw [is]
  exact ⟨rfl, rfl, rfl, address, size, count⟩

theorem launch_last (stream : Stream) :
    (stream.launchDma true).card.dmas = stream.card.dmas ++ [⟨stream.card.regs regWdmaTlpA,
      stream.card.regs regWdmaTlpS, stream.card.regs regWdmaTlpC, true⟩] ∧
    (stream.launchDma true).card.running = stream.card.running ++ [stream.card.dmas.length] ∧
    (stream.launchDma true).card.completed = stream.card.completed := by
  have starts : bitWdmaStart &&& bitWdmaStart ≠ 0#32 := by decide
  have interrupt : decide (bitWdmaStart &&& bitWdmaIntDone = 0#32) = true := by decide
  simp only [Stream.launchDma, if_true, Card.writeReg, starts, interrupt, ne_eq,
    not_false_eq_true, and_self]

theorem launch_silent (stream : Stream) :
    (stream.launchDma false).card.dmas = stream.card.dmas ++ [⟨stream.card.regs regWdmaTlpA,
      stream.card.regs regWdmaTlpS, stream.card.regs regWdmaTlpC, false⟩] ∧
    (stream.launchDma false).card.running = stream.card.running ∧
    (stream.launchDma false).card.completed = stream.card.completed := by
  have starts : (bitWdmaStart ||| bitWdmaIntDone) &&& bitWdmaStart ≠ 0#32 := by decide
  have silent : decide ((bitWdmaStart ||| bitWdmaIntDone) &&& bitWdmaIntDone = 0#32) = false := by
    decide
  simp only [Stream.launchDma, Bool.false_eq_true, if_false, Card.writeReg, starts, silent, ne_eq,
    not_false_eq_true, and_self, if_true]

def PcieDescr.dmaAt (descr : PcieDescr) (address : U32) : Dma :=
  ⟨address, descr.tlpSize, descr.tlpCount, true⟩

theorem launch_card (stream : Stream) {address : U32}
    (programmed : Programmed stream.card stream.descr address) :
    (stream.launchDma true).card.dmas = stream.card.dmas ++ [stream.descr.dmaAt address] ∧
    (stream.launchDma true).card.running = stream.card.running ++ [stream.card.dmas.length] ∧
    (stream.launchDma true).card.completed = stream.card.completed := by
  rw [PcieDescr.dmaAt, ← programmed.address, ← programmed.tlpSize, ← programmed.tlpCount]
  exact launch_last stream

structure Dma.Fills (dma : Dma) (bufferHwAddr : U64) (half : U32) : Prop where
  start : dma.address.toNat = bufferHwAddr.toNat + half.toNat
  fits : 4 * dma.tlpSize.toNat * dma.tlpCount.toNat ≤ bufSize

/-- The half that DMA `turn` of a stream is meant for. -/
def streamHalf (turn : ℕ) : U32 := if turn % 2 = 0 then 0#32 else BitVec.ofNat 32 bufSize

structure View where
  bufferHwAddr : U64
  dmas : List Dma
  running : List ℕ
  completed : List ℕ
  handed : List U32
  base : ℕ

def Stream.view (stream : Stream) : View :=
  ⟨stream.descr.bufferHwAddr, stream.card.dmas, stream.card.running, stream.card.completed,
    stream.handed, stream.base⟩

def View.served (view : View) : ℕ := view.handed.length - view.base

def View.hands (view : View) : View :=
  { view with handed := view.handed ++ [streamHalf view.served] }

theorem View.served_hands (view : View) (behind : view.base ≤ view.handed.length) :
    view.hands.served = view.served + 1 := by
  simp only [View.served, View.hands, List.length_append, List.length_singleton]
  omega

structure Stage (view : View) (started : ℕ) : Prop where
  low : view.bufferHwAddr.toNat + 2 * bufSize ≤ 2 ^ 32
  count : view.dmas.length = view.base + started
  behind : view.base ≤ view.handed.length
  handedOut : ∀ k half, view.handed[k]? = some half → ∃ dma, view.dmas[k]? = some dma ∧
    dma.Fills view.bufferHwAddr half ∧ k ∈ view.completed
  turns : ∀ k half, view.base ≤ k → view.handed[k]? = some half → half = streamHalf (k - view.base)
  fills : ∀ k dma, view.base ≤ k → view.dmas[k]? = some dma →
    dma.Fills view.bufferHwAddr (streamHalf (k - view.base))
  running : view.running = [] ∨ 0 < started ∧ view.running = [view.base + started - 1]
  completed : ∀ k < view.dmas.length, k ∉ view.running → k ∈ view.completed

section Stages

variable {view : View} {started : ℕ}

theorem Stage.launched (stage : Stage view started) (quiet : view.running = []) {dma : Dma}
    (fills : dma.Fills view.bufferHwAddr (streamHalf started)) :
    Stage { view with dmas := view.dmas ++ [dma], running := [view.dmas.length] }
      (started + 1) where
  low := stage.low
  count := by
    rw [List.length_append, stage.count]
    rfl
  behind := stage.behind
  handedOut := by
    intro k half handed
    obtain ⟨other, there, full, done⟩ := stage.handedOut k half handed
    refine ⟨other, ?_, full, done⟩
    rw [List.getElem?_append_left (List.getElem?_eq_some_iff.mp there).1]
    exact there
  turns := stage.turns
  fills := by
    intro k other later there
    by_cases old : k < view.dmas.length
    · rw [List.getElem?_append_left old] at there
      exact stage.fills k other later there
    · rw [List.getElem?_append_right (by omega), List.getElem?_singleton,
        Option.ite_none_right_eq_some, Option.some.injEq] at there
      obtain ⟨last, rfl⟩ := there
      have turn : k - view.base = started := by
        have count := stage.count
        omega
      rw [turn]
      exact fills
  running := Or.inr ⟨Nat.succ_pos _, by rw [stage.count]; rfl⟩
  completed := by
    intro k bound notRunning
    rw [List.length_append, List.length_singleton] at bound
    rw [List.mem_singleton] at notRunning
    exact stage.completed k (by omega) (by rw [quiet]; exact List.not_mem_nil)

theorem Stage.interrupted (stage : Stage view started) {dma : ℕ} (runs : dma ∈ view.running) :
    Stage { view with running := view.running.erase dma, completed := dma :: view.completed }
      started ∧ view.running.erase dma = [] := by
  have only : view.running.erase dma = [] := by
    rcases stage.running with none_ | ⟨-, one⟩
    · rw [none_] at runs
      cases runs
    · rw [one, List.mem_singleton] at runs
      rw [one, runs, List.erase_cons_head]
  refine ⟨{ stage with handedOut := ?_, running := Or.inl only, completed := ?_ }, only⟩
  · intro k half handed
    obtain ⟨other, there, full, done⟩ := stage.handedOut k half handed
    exact ⟨other, there, full, List.mem_cons_of_mem _ done⟩
  · intro k bound _
    by_cases this : k = dma
    · rw [this]
      exact List.mem_cons_self
    · refine List.mem_cons_of_mem _ (stage.completed k bound fun also => ?_)
      rcases stage.running with none_ | ⟨-, one⟩
      · rw [none_] at runs
        cases runs
      · rw [one, List.mem_singleton] at runs also
        exact this (also.trans runs.symm)

theorem Stage.hands (stage : Stage view started) (next : view.served < started)
    (ended : view.handed.length ∉ view.running) : Stage view.hands started := by
  have behind := stage.behind
  have count := stage.count
  have bound : view.handed.length < view.dmas.length := by
    rw [View.served] at next
    omega
  refine { stage with behind := ?_, handedOut := ?_, turns := ?_ }
  · exact behind.trans (by rw [View.hands, List.length_append]; exact Nat.le_add_right _ _)
  · intro k half handed
    rw [View.hands] at handed
    by_cases old : k < view.handed.length
    · rw [List.getElem?_append_left old] at handed
      exact stage.handedOut k half handed
    · rw [List.getElem?_append_right (by omega), List.getElem?_singleton,
        Option.ite_none_right_eq_some, Option.some.injEq] at handed
      obtain ⟨last, rfl⟩ := handed
      have here : k = view.handed.length := by omega
      subst here
      exact ⟨_, List.getElem?_eq_getElem bound,
        stage.fills _ _ behind (List.getElem?_eq_getElem bound), stage.completed _ bound ended⟩
  · intro k half later handed
    rw [View.hands] at handed
    by_cases old : k < view.handed.length
    · rw [List.getElem?_append_left old] at handed
      exact stage.turns k half later handed
    · rw [List.getElem?_append_right (by omega), List.getElem?_singleton,
        Option.ite_none_right_eq_some, Option.some.injEq] at handed
      obtain ⟨last, rfl⟩ := handed
      have here : k = view.handed.length := by omega
      rw [here, View.served, View.hands]

/-- A stream whose halves have all been handed out makes room for the next. -/
theorem Stage.restarted (stage : Stage view view.served) (quiet : view.running = []) :
    Stage { view with base := view.dmas.length } 0 := by
  have behind := stage.behind
  have all : view.handed.length = view.dmas.length := by
    rw [stage.count, View.served]
    omega
  refine { stage with
    count := rfl, behind := all.ge, turns := ?_, fills := ?_, running := Or.inl quiet }
  · intro k half later handed
    have bound := (List.getElem?_eq_some_iff.mp handed).1
    exact absurd (bound.trans_eq all) (not_lt_of_ge later)
  · intro k dma later there
    exact absurd (List.getElem?_eq_some_iff.mp there).1 (not_lt_of_ge later)

end Stages

end FpgaPcie.Creotech
