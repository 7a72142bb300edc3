import FpgaPcie.Lib.Ram
import FpgaPcie.Mprace.Board
import Mathlib.Tactic.IntervalCases

/-!
# Patterns for the data generator

The generator of the board plays a program of descriptors, each a pair of words in board
memory. `storePattern` and `start` write such a program word by word, and so does the
`store_pattern` of the Perl library. A descriptor names its successor by a number of 12 bits.
-/

namespace FpgaPcie.Mprace

open FpgaPcie.Bus FpgaPcie.Ram

set_option autoImplicit false

abbrev U16 := BitVec 16

namespace ABBDataGenerator

def dgOffset : U32 := 0xC0000 >>> 2
def dgCtrl : U32 := 0x00A8 >>> 2
def dgReset : U32 := 0x00A
def dgTrafficclassDaq : U8 := 1

def descriptorWord (enable stop : Bool) (trafficClass : U8) (nextAddress delayCount : U16) : U32 :=
  ((((0 ||| (if enable then 1 <<< 31 else 0)) ||| (if stop then 1 <<< 30 else 0)) |||
    ((trafficClass.setWidth 32 &&& 0x3) <<< 28)) |||
      ((nextAddress.setWidth 32 &&& 0xFFF) <<< 16)) ||| delayCount.setWidth 32

def dataWord (sof eof : Bool) (daqData : U16) : U32 :=
  (((0 : U32) ||| (if sof then 1 <<< 17 else 0)) ||| (if eof then 1 <<< 16 else 0)) |||
    daqData.setWidth 32

section Board

variable (board : BoardClass) (windows : Windows)

def saveDescriptor (offset : U32) (enable stop : Bool) (trafficClass : U8)
    (nextAddress delayCount : U16) : BoardCall :=
  board.write windows (dgOffset + offset)
    (descriptorWord enable stop trafficClass nextAddress delayCount)

def saveDAQData (offset : U32) (sof eof : Bool) (daqData : U16) : BoardCall :=
  board.write windows (dgOffset + offset) (dataWord sof eof daqData)

/-- The turn of the loop for word `i`, when `offset` has come to twice `i`. -/
def storeWordAt (loop : Bool) (number : U32) (data : ℕ → U16) (i : ℕ) : BoardCall :=
  let offset := BitVec.ofNat 32 (2 * i)
  let isLastDescriptor : Bool := BitVec.ofNat 32 i = number - 1
  let nextAddress : U16 := if loop && isLastDescriptor then 0 else (offset / 2 + 1).setWidth 16
  (saveDescriptor board windows offset false (!loop && isLastDescriptor) dgTrafficclassDaq
    nextAddress 0).andThen
    (saveDAQData board windows (offset + 1) (i % 4 == 0) ((i + 1) % 4 == 0) (data i))

def storePattern (loop : Bool) (number : U32) (data : ℕ → U16) : BoardCall :=
  (saveDAQData board windows 1 true false (data 0)).andThen
    (repeatCall (storeWordAt board windows loop number data) (number.toNat - 1) 1)

def start : BoardCall :=
  (board.setReg windows dgCtrl dgReset).andThen
    (saveDescriptor board windows 0 true false dgTrafficclassDaq 1 0)

def play (loop : Bool) (number : U32) (data : ℕ → U16) : BoardCall :=
  (storePattern board windows loop number data).andThen (start board windows)

end Board

end ABBDataGenerator

namespace PerlDataGenerator

def descriptorWord (enable stop : Bool) (nextAddress delayCount : ℕ) : ℕ :=
  ((((0 ||| (if enable then 1 <<< 31 else 0)) ||| (if stop then 1 <<< 30 else 0)) |||
    ((1 &&& 0x3) <<< 28)) ||| ((nextAddress &&& 0xFFF) <<< 16)) ||| delayCount

def dataWord (startOfFrame endOfFrame : Bool) (data : ℕ) : ℕ :=
  ((0 ||| (if startOfFrame then 1 <<< 17 else 0)) ||| (if endOfFrame then 1 <<< 16 else 0)) |||
    (data &&& 0xFFFF)

section Board

variable (board : BoardClass) (windows : Windows)

/-- `$self->_board->write`, which takes its numbers as `unsigned int`. -/
def boardWrite (address value : ℕ) : BoardCall :=
  board.write windows (BitVec.ofNat 32 address) (BitVec.ofNat 32 value)

def writeDaqData (offset : ℕ) (startOfFrame endOfFrame : Bool) (data : ℕ) : BoardCall :=
  boardWrite board windows ((0xC0000 >>> 2) + offset) (dataWord startOfFrame endOfFrame data)

def writeDescriptor (offset : ℕ) (enable stop : Bool) (nextAddress delayCount : ℕ) : BoardCall :=
  boardWrite board windows ((0xC0000 >>> 2) + offset)
    (descriptorWord enable stop nextAddress delayCount)

def reset : BoardCall :=
  board.setReg windows (BitVec.ofNat 32 (0x00A8 >>> 2)) (BitVec.ofNat 32 0x0A)

def stop : BoardCall :=
  (writeDaqData board windows 0x1 false true 0x0).andThen
    ((writeDescriptor board windows 0x0 false true 1 0).andThen (reset board windows))

def storeWordAt (loop : Bool) (pattern : List U16) (c : ℕ) : BoardCall :=
  let offset := 2 * c
  let isLastDescriptor : Bool := c = pattern.length - 1
  let nextAddress := if loop && isLastDescriptor then 0 else offset / 2 + 1
  (writeDescriptor board windows offset false (!loop && isLastDescriptor) nextAddress 0).andThen
    (writeDaqData board windows (offset + 1) (c % 4 == 0) ((c + 1) % 4 == 0)
      (pattern.getD c 0).toNat)

/-- `none` where the pattern is refused. -/
def storePattern (loop : Bool) (pattern : List U16) : Option BoardCall :=
  if pattern.length % 4 ≠ 0 then none
  else some ((stop board windows).andThen
    ((writeDaqData board windows 0x1 true false (pattern.getD 0 0).toNat).andThen
      ((repeatCall (storeWordAt board windows loop pattern) (pattern.length - 1) 1).andThen
        ((reset board windows).andThen
          ((writeDescriptor board windows 0 true false 1 0).andThen (reset board windows))))))

end Board

end PerlDataGenerator

open ABBDataGenerator

section Fields

variable (enable stop : Bool) (next : U16)

theorem stop_bit : (descriptorWord enable stop dgTrafficclassDaq next 0).getLsbD 30 = stop := by
  cases enable <;> cases stop <;> simp [descriptorWord, dgTrafficclassDaq]

theorem next_field : (descriptorWord enable stop dgTrafficclassDaq next 0).extractLsb' 16 12 =
    next.setWidth 12 := by
  apply BitVec.eq_of_getLsbD_eq
  intro i inside
  cases enable <;> cases stop <;> interval_cases i <;> simp [descriptorWord, dgTrafficclassDaq]

variable (sof eof : Bool) (daqData : U16)

theorem sof_bit : (dataWord sof eof daqData).getLsbD 17 = sof := by
  cases sof <;> cases eof <;> simp [dataWord]

theorem eof_bit : (dataWord sof eof daqData).getLsbD 16 = eof := by
  cases sof <;> cases eof <;> simp [dataWord]

theorem daq_field : (dataWord sof eof daqData).setWidth 16 = daqData := by
  apply BitVec.eq_of_getLsbD_eq
  intro i inside
  cases sof <;> cases eof <;> interval_cases i <;> simp [dataWord]

end Fields

theorem leaves_store_word (window : Window) (size address value : U32) :
    Leaves (storeWord window size address value) [(⟨window, address.toNat⟩, value)] := by
  intro history returns
  unfold storeWord at returns ⊢
  split at returns
  · cases returns
  · rename_i inside
    rw [if_neg inside, Bus.store, stored_append]
    rfl

theorem store_word_returns {window : Window} {size address value : U32} {history : History}
    (returns : (storeWord window size address value history).1 = none) :
    address.toNat < size.toNat := by
  unfold storeWord at returns
  split at returns
  · cases returns
  · rename_i inside
    exact BitVec.lt_def.mp (BitVec.not_le.mp inside)

theorem board_write (board : BoardClass) (windows : Windows) :
    board.write windows = storeWord .mem windows.memSize := by
  cases board <;> rfl

theorem board_set_reg (board : BoardClass) (windows : Windows) :
    board.setReg windows = storeWord .regs windows.regsSize := by
  cases board <;> rfl

def cell (offset : ℕ) : Place := ⟨.mem, 0x30000 + offset⟩

def ctrl : Place := ⟨.regs, 0x2A⟩

/-- Descriptor `k` of a pattern of `n` words, and its data word. -/
def patternDescriptor (loop : Bool) (n k : ℕ) : U32 :=
  if k = 0 then descriptorWord true false dgTrafficclassDaq 1 0
  else descriptorWord false (!loop && decide (k = n - 1)) dgTrafficclassDaq
    (if loop && decide (k = n - 1) then 0 else BitVec.ofNat 16 (k + 1)) 0

def patternData (data : ℕ → U16) (k : ℕ) : U32 :=
  dataWord (k % 4 == 0) ((k + 1) % 4 == 0) (data k)

def pairStores (loop : Bool) (n : ℕ) (data : ℕ → U16) (k : ℕ) : List (Place × U32) :=
  [(cell (2 * k), patternDescriptor loop n k), (cell (2 * k + 1), patternData data k)]

/-- What both encoders store, but for words they store again. -/
def patternStores (loop : Bool) (n : ℕ) (data : ℕ → U16) : List (Place × U32) :=
  (cell 1, patternData data 0) ::
    ((List.range' 1 (n - 1)).flatMap (pairStores loop n data) ++
      [(ctrl, dgReset), (cell 0, patternDescriptor loop n 0)])

section Stores

variable {board : BoardClass} {windows : Windows} {loop : Bool} {number : U32} {data : ℕ → U16}

/-- The words of a pattern that is accepted are all at addresses of 32 bits. -/
theorem accepted_small (accepted : (play board windows loop number data []).1 = none) :
    0x30000 + 2 * number.toNat < 2 ^ 32 := by
  have bound := number.isLt
  have size := windows.memSize.isLt
  obtain ⟨patternReturns, -⟩ := and_then_returns accepted
  unfold storePattern at patternReturns
  obtain ⟨-, same⟩ := and_then_returns patternReturns
  rw [same] at patternReturns
  by_contra large
  obtain ⟨reached, returns⟩ := @repeat_call_each _ _ _ _ _ _ patternReturns 2147385343 (by omega)
    (by omega)
  unfold storeWordAt at returns
  obtain ⟨-, same⟩ := and_then_returns returns
  rw [same] at returns
  unfold saveDAQData at returns
  rw [board_write] at returns
  have inside := store_word_returns returns
  have last : (dgOffset + (BitVec.ofNat 32 (2 * 2147385343) + 1)).toNat = 4294967295 := by decide
  rw [last] at inside
  omega

section Words

variable {offset : U32} {k : ℕ} (own : offset.toNat = k) (small : 0x30000 + k < 2 ^ 32)

include own small

theorem cell_address : (⟨.mem, (dgOffset + offset).toNat⟩ : Place) = cell k := by
  have start : dgOffset.toNat = 0x30000 := by decide
  rw [cell, BitVec.toNat_add, start, own, Nat.mod_eq_of_lt small]

theorem leaves_descriptor (enable stop : Bool) (trafficClass : U8) (next delay : U16) :
    Leaves (saveDescriptor board windows offset enable stop trafficClass next delay)
      [(cell k, descriptorWord enable stop trafficClass next delay)] := by
  unfold saveDescriptor
  rw [board_write, ← cell_address own small]
  exact leaves_store_word _ _ _ _

theorem leaves_data (sof eof : Bool) (daqData : U16) :
    Leaves (saveDAQData board windows offset sof eof daqData)
      [(cell k, dataWord sof eof daqData)] := by
  unfold saveDAQData
  rw [board_write, ← cell_address own small]
  exact leaves_store_word _ _ _ _

end Words

theorem leaves_word_at {i : ℕ} (first : i ≠ 0) (inside : i < number.toNat)
    (small : 0x30000 + 2 * number.toNat < 2 ^ 32) :
    Leaves (storeWordAt board windows loop number data i)
      (pairStores loop number.toNat data i) := by
  have one : (1 : U32).toNat = 1 := rfl
  have two : (2 : U32).toNat = 2 := rfl
  have own : (BitVec.ofNat 32 i).toNat = i := by
    rw [BitVec.toNat_ofNat]
    omega
  have offset : (BitVec.ofNat 32 (2 * i)).toNat = 2 * i := by
    rw [BitVec.toNat_ofNat]
    omega
  have dataOffset : (BitVec.ofNat 32 (2 * i) + 1).toNat = 2 * i + 1 := by
    rw [BitVec.toNat_add, offset, one]
    omega
  have last : BitVec.ofNat 32 i = number - 1 ↔ i = number.toNat - 1 := by
    rw [← BitVec.toNat_inj, own, BitVec.toNat_sub_of_le (by rw [BitVec.le_def, one]; omega), one]
  have next : ((BitVec.ofNat 32 (2 * i) / 2 + 1).setWidth 16 : U16) = BitVec.ofNat 16 (i + 1) := by
    apply BitVec.eq_of_toNat_eq
    rw [BitVec.toNat_setWidth, BitVec.toNat_add, BitVec.toNat_udiv, offset, one, two,
      BitVec.toNat_ofNat]
    omega
  unfold storeWordAt pairStores patternDescriptor patternData
  simp only [last, next, if_neg first]
  exact (leaves_descriptor offset (by omega) _ _ _ _ _).andThen
    (leaves_data dataOffset (by omega) _ _ _)

theorem leaves_play (some_ : 1 ≤ number.toNat) (small : 0x30000 + 2 * number.toNat < 2 ^ 32) :
    Leaves (play board windows loop number data) (patternStores loop number.toNat data) := by
  have first : Leaves (saveDAQData board windows 1 true false (data 0))
      [(cell 1, patternData data 0)] := leaves_data rfl (by decide) true false (data 0)
  have words : Leaves (repeatCall (storeWordAt board windows loop number data)
      (number.toNat - 1) 1)
      ((List.range' 1 (number.toNat - 1)).flatMap (pairStores loop number.toNat data)) := by
    apply leaves_repeat
    intro i lower upper
    exact leaves_word_at (by omega) (by omega) small
  have reset : Leaves (board.setReg windows dgCtrl dgReset) [(ctrl, dgReset)] := by
    rw [board_set_reg]
    exact leaves_store_word _ _ _ _
  have enabled : Leaves (saveDescriptor board windows 0 true false dgTrafficclassDaq 1 0)
      [(cell 0, patternDescriptor loop number.toNat 0)] :=
    leaves_descriptor rfl (by decide) true false dgTrafficclassDaq 1 0
  exact (first.andThen words).andThen (reset.andThen enabled)

end Stores

theorem pattern_keys (loop : Bool) (n : ℕ) (data : ℕ → U16) :
    (patternStores loop n data).map Prod.fst =
      cell 1 :: ((List.range' 2 (2 * (n - 1))).map cell ++ [ctrl, cell 0]) := by
  have pairs : ∀ count start,
      ((List.range' start count).flatMap (pairStores loop n data)).map Prod.fst =
        (List.range' (2 * start) (2 * count)).map cell := by
    intro count
    induction count with
    | zero => intro start; rfl
    | succ count ih =>
        intro start
        have double : 2 * (count + 1) = 2 * count + 1 + 1 := by omega
        rw [List.range'_succ, List.flatMap_cons, List.map_append, ih, double, List.range'_succ,
          List.range'_succ]
        rfl
  rw [patternStores, List.map_cons, List.map_append, pairs]
  rfl

theorem pattern_keys_distinct (loop : Bool) (n : ℕ) (data : ℕ → U16) :
    ((patternStores loop n data).map Prod.fst).Nodup := by
  have injective : Function.Injective cell := by
    intro one two same
    have index := congrArg Place.index same
    simp only [cell] at index
    omega
  have later : ∀ k < 2, cell k ∉ (List.range' 2 (2 * (n - 1))).map cell := by
    intro k small member
    obtain ⟨other, inside, same⟩ := List.mem_map.mp member
    have lower := (List.mem_range'_1.mp inside).1
    rw [injective same] at lower
    omega
  have control : ctrl ∉ (List.range' 2 (2 * (n - 1))).map cell := by
    intro member
    obtain ⟨other, -, same⟩ := List.mem_map.mp member
    cases congrArg Place.window same
  rw [pattern_keys, List.nodup_cons, List.nodup_append]
  constructor
  · intro member
    rcases List.mem_append.mp member with inside | last
    · exact later 1 (by decide) inside
    · exact absurd last (by decide)
  · refine ⟨List.Nodup.map injective List.nodup_range', by decide, ?_⟩
    intro one inside two last same
    subst same
    simp only [List.mem_cons, List.not_mem_nil, or_false] at last
    rcases last with rfl | rfl
    · exact control inside
    · exact later 0 (by decide) inside

def playMemory (loop : Bool) (n : ℕ) (data : ℕ → U16) (before : Place → U32) : Place → U32 :=
  contents (patternStores loop n data) before

section Contents

variable {loop : Bool} {n : ℕ} {data : ℕ → U16} (before : Place → U32)

theorem pair_member {k : ℕ} (first : k ≠ 0) (inside : k < n) :
    ∀ store ∈ pairStores loop n data k, store ∈ patternStores loop n data := by
  intro store member
  unfold patternStores
  apply List.mem_cons_of_mem
  apply List.mem_append_left
  apply List.mem_flatMap_of_mem _ member
  rw [List.mem_range'_1]
  omega

theorem memory_descriptor {k : ℕ} (inside : k < n) :
    playMemory loop n data before (cell (2 * k)) = patternDescriptor loop n k := by
  apply contents_distinct (pattern_keys_distinct loop n data)
  by_cases first : k = 0
  · subst first
    unfold patternStores
    simp
  · exact pair_member first inside _ List.mem_cons_self

theorem memory_data {k : ℕ} (inside : k < n) :
    playMemory loop n data before (cell (2 * k + 1)) = patternData data k := by
  apply contents_distinct (pattern_keys_distinct loop n data)
  by_cases first : k = 0
  · subst first
    exact List.mem_cons_self
  · exact pair_member first inside _ (List.mem_cons_of_mem _ List.mem_cons_self)

end Contents

/-- The generator's view of the board memory: descriptor `pair` with its data word. -/
def descriptorAt (memory : Place → U32) (pair : ℕ) : U32 := memory (cell (2 * pair))

def dataAt (memory : Place → U32) (pair : ℕ) : U32 := memory (cell (2 * pair + 1))

def nextOf (descriptor : U32) : ℕ := (descriptor.extractLsb' 16 12).toNat

/-- The pair that is played in turn `k`. -/
def pairAt (memory : Place → U32) : ℕ → ℕ
  | 0 => 0
  | k + 1 => nextOf (descriptorAt memory (pairAt memory k))

/-- The words of a pattern come in order, with a stop behind the last one, or from the front
again when the pattern is a loop. -/
structure Plays (memory : Place → U32) (loop : Bool) (n : ℕ) (data : ℕ → U16) : Prop where
  emits : ∀ k < n, (dataAt memory (pairAt memory k)).setWidth 16 = data k
  stops : ∀ k < n,
    (descriptorAt memory (pairAt memory k)).getLsbD 30 = (!loop && decide (k = n - 1))
  returns : loop = true → pairAt memory n = 0 ∧ ∀ k, 0 < k → k < n → pairAt memory k ≠ 0
  frames : ∀ k < n, (dataAt memory (pairAt memory k)).getLsbD 17 = (k % 4 == 0) ∧
    (dataAt memory (pairAt memory k)).getLsbD 16 = ((k + 1) % 4 == 0)

section Play

variable {loop : Bool} {n : ℕ} {data : ℕ → U16} {before : Place → U32}

theorem next_of_pattern {k : ℕ} (more : k < n - 1) :
    nextOf (patternDescriptor loop n k) = (k + 1) % 4096 := by
  have narrow : ((BitVec.ofNat 16 (k + 1)).setWidth 12).toNat = (k + 1) % 4096 := by
    rw [BitVec.toNat_setWidth, BitVec.toNat_ofNat]
    omega
  unfold nextOf patternDescriptor
  by_cases first : k = 0
  · rw [if_pos first, next_field, first]
    rfl
  · have notLast : ¬k = n - 1 := by omega
    rw [if_neg first, next_field]
    simp only [notLast, decide_false, Bool.and_false, Bool.false_eq_true, if_false]
    exact narrow

theorem pair_at_mod (several : 2 ≤ n) {k : ℕ} (inside : k < n) :
    pairAt (playMemory loop n data before) k = k % 4096 := by
  induction k with
  | zero => rfl
  | succ k ih =>
      have own := ih (by omega)
      have low : k % 4096 ≤ k := Nat.mod_le k 4096
      rw [pairAt, own, descriptorAt, memory_descriptor before (by omega),
        next_of_pattern (by omega)]
      omega

theorem stop_of_pattern {k : ℕ} (several : 2 ≤ n) :
    (patternDescriptor loop n k).getLsbD 30 = (!loop && decide (k = n - 1)) := by
  unfold patternDescriptor
  split
  · rename_i first
    have notLast : ¬k = n - 1 := by omega
    rw [stop_bit, decide_eq_false notLast, Bool.and_false]
  · rw [stop_bit]

theorem last_of_loop (several : 2 ≤ n) : nextOf (patternDescriptor true n (n - 1)) = 0 := by
  have notFirst : ¬n - 1 = 0 := by omega
  unfold nextOf patternDescriptor
  rw [if_neg notFirst, next_field]
  simp

theorem plays_of_small (several : 2 ≤ n) (small : n ≤ 4096) :
    Plays (playMemory loop n data before) loop n data := by
  have here : ∀ k < n, pairAt (playMemory loop n data before) k = k := by
    intro k inside
    rw [pair_at_mod several inside]
    omega
  constructor
  · intro k inside
    rw [here k inside, dataAt, memory_data before inside]
    exact daq_field _ _ _
  · intro k inside
    rw [here k inside, descriptorAt, memory_descriptor before inside]
    exact stop_of_pattern several
  · intro looped
    subst looped
    obtain ⟨last, rfl⟩ : ∃ last, n = last + 1 := ⟨n - 1, by omega⟩
    constructor
    · rw [pairAt, here last (by omega), descriptorAt, memory_descriptor before (by omega)]
      exact last_of_loop several
    · intro k positive inside
      rw [here k inside]
      omega
  · intro k inside
    rw [here k inside, dataAt, memory_data before inside]
    exact ⟨sof_bit _ _ _, eof_bit _ _ _⟩

theorem single_not_played : ¬Plays (playMemory loop 1 data before) loop 1 data := by
  intro plays
  have first : descriptorAt (playMemory loop 1 data before) 0 =
      descriptorWord true false dgTrafficclassDaq 1 0 :=
    @memory_descriptor loop 1 data before 0 (by decide)
  cases loop with
  | false =>
      have stops := plays.stops 0 (by decide)
      rw [pairAt, first, stop_bit] at stops
      cases stops
  | true =>
      have returns := (plays.returns rfl).1
      rw [pairAt, pairAt, first, nextOf, next_field] at returns
      cases returns

theorem large_not_played (large : 4096 < n) :
    ¬Plays (playMemory loop n data before) loop n data := by
  intro plays
  cases loop with
  | false =>
      have stops := plays.stops (n - 1) (by omega)
      have low : (n - 1) % 4096 < 4096 := Nat.mod_lt _ (by decide)
      have notLast : ¬(n - 1) % 4096 = n - 1 := by omega
      rw [pair_at_mod (by omega) (by omega), descriptorAt, memory_descriptor before (by omega),
        stop_of_pattern (by omega), decide_eq_false notLast, decide_eq_true rfl] at stops
      cases stops
  | true =>
      have never := (plays.returns rfl).2 4096 (by decide) large
      rw [pair_at_mod (by omega) large] at never
      exact never rfl

theorem plays_iff (some_ : 1 ≤ n) :
    Plays (playMemory loop n data before) loop n data ↔ 2 ≤ n ∧ n ≤ 4096 := by
  constructor
  · intro plays
    constructor
    · by_contra single
      have one : n = 1 := by omega
      subst one
      exact single_not_played plays
    · by_contra large
      exact large_not_played (Nat.lt_of_not_le large) plays
  · intro both
    exact plays_of_small both.1 both.2

end Play

theorem perl_descriptor (enable stop : Bool) (next : ℕ) :
    BitVec.ofNat 32 (PerlDataGenerator.descriptorWord enable stop next 0) =
      descriptorWord enable stop dgTrafficclassDaq (BitVec.ofNat 16 next) 0 := by
  have field : BitVec.ofNat 32 ((next &&& 0xFFF) <<< 16) =
      (((BitVec.ofNat 16 next).setWidth 32 &&& 0xFFF) <<< 16 : U32) := by
    have mask : next &&& 0xFFF = next % 2 ^ 12 := Nat.and_two_pow_sub_one_eq_mod next 12
    have narrow : next % 2 ^ 16 % 2 ^ 32 &&& 0xFFF = next % 2 ^ 16 % 2 ^ 32 % 2 ^ 12 :=
      Nat.and_two_pow_sub_one_eq_mod _ 12
    have ones : (0xFFF : U32).toNat = 0xFFF := rfl
    apply BitVec.eq_of_toNat_eq
    rw [BitVec.toNat_ofNat, BitVec.toNat_shiftLeft, BitVec.toNat_and, BitVec.toNat_setWidth,
      BitVec.toNat_ofNat, ones, mask, narrow, Nat.shiftLeft_eq, Nat.shiftLeft_eq]
    omega
  unfold PerlDataGenerator.descriptorWord descriptorWord
  rw [BitVec.ofNat_or, BitVec.ofNat_or, field]
  cases enable <;> cases stop <;> rfl

theorem perl_data (sof eof : Bool) (daqData : U16) :
    BitVec.ofNat 32 (PerlDataGenerator.dataWord sof eof daqData.toNat) =
      dataWord sof eof daqData := by
  have field : BitVec.ofNat 32 (daqData.toNat &&& 0xFFFF) = daqData.setWidth 32 := by
    have bound := daqData.isLt
    have mask : daqData.toNat &&& 0xFFFF = daqData.toNat % 2 ^ 16 :=
      Nat.and_two_pow_sub_one_eq_mod _ 16
    apply BitVec.eq_of_toNat_eq
    rw [BitVec.toNat_ofNat, mask, BitVec.toNat_setWidth]
    omega
  unfold PerlDataGenerator.dataWord dataWord
  rw [BitVec.ofNat_or, field]
  cases sof <;> cases eof <;> rfl

section Perl

variable {board : BoardClass} {windows : Windows} {loop : Bool} {n : ℕ} {data : ℕ → U16}

theorem leaves_perl_write {k : ℕ} (small : 0x30000 + k < 2 ^ 32) (value : ℕ) :
    Leaves (PerlDataGenerator.boardWrite board windows ((0xC0000 >>> 2) + k) value)
      [(cell k, BitVec.ofNat 32 value)] := by
  have address : (⟨.mem, (BitVec.ofNat 32 ((0xC0000 >>> 2) + k)).toNat⟩ : Place) = cell k := by
    have start : 0xC0000 >>> 2 = 0x30000 := rfl
    rw [cell, start, BitVec.toNat_ofNat, Nat.mod_eq_of_lt small]
  unfold PerlDataGenerator.boardWrite
  rw [board_write, ← address]
  exact leaves_store_word _ _ _ _

theorem leaves_perl_descriptor {k : ℕ} (small : 0x30000 + k < 2 ^ 32) (enable stop : Bool)
    (next : ℕ) : Leaves (PerlDataGenerator.writeDescriptor board windows k enable stop next 0)
      [(cell k, descriptorWord enable stop dgTrafficclassDaq (BitVec.ofNat 16 next) 0)] := by
  rw [← perl_descriptor]
  exact leaves_perl_write small _

theorem leaves_perl_data {k : ℕ} (small : 0x30000 + k < 2 ^ 32) (sof eof : Bool)
    (daqData : U16) : Leaves (PerlDataGenerator.writeDaqData board windows k sof eof daqData.toNat)
      [(cell k, dataWord sof eof daqData)] := by
  rw [← perl_data]
  exact leaves_perl_write small _

theorem leaves_perl_reset : Leaves (PerlDataGenerator.reset board windows) [(ctrl, dgReset)] := by
  unfold PerlDataGenerator.reset
  rw [board_set_reg]
  exact leaves_store_word _ _ _ _

theorem leaves_perl_word_at {pattern : List U16} {k : ℕ} (first : k ≠ 0)
    (inside : k < pattern.length) (small : 0x30000 + 2 * pattern.length < 2 ^ 32)
    (own : pattern.getD k 0 = data k) :
    Leaves (PerlDataGenerator.storeWordAt board windows loop pattern k)
      (pairStores loop pattern.length data k) := by
  have half : 2 * k / 2 = k := by omega
  have zero : BitVec.ofNat 16 0 = 0 := rfl
  have next : (if loop && decide (k = pattern.length - 1) then 0 else BitVec.ofNat 16 (k + 1)) =
      BitVec.ofNat 16 (if loop && decide (k = pattern.length - 1) then 0 else k + 1) := by
    rw [apply_ite (BitVec.ofNat 16), zero]
  unfold PerlDataGenerator.storeWordAt pairStores patternDescriptor patternData
  simp only [half, own, if_neg first, next]
  exact (leaves_perl_descriptor (by omega) _ _ _).andThen (leaves_perl_data (by omega) _ _ _)

/-- What the Perl encoder stores before and behind the words of the pattern. -/
def stopStores : List (Place × U32) :=
  [(cell 1, dataWord false true 0),
    (cell 0, descriptorWord false true dgTrafficclassDaq 1 0), (ctrl, dgReset)]

theorem leaves_perl_pattern {pattern : List U16} {call : BoardCall}
    (accepted : PerlDataGenerator.storePattern board windows loop pattern = some call)
    (some_ : 1 ≤ pattern.length) (small : 0x30000 + 2 * pattern.length < 2 ^ 32)
    (own : ∀ k < pattern.length, pattern.getD k 0 = data k) :
    Leaves call (stopStores ++ (patternStores loop pattern.length data ++ [(ctrl, dgReset)])) := by
  have first : Leaves (PerlDataGenerator.writeDaqData board windows 0x1 true false
      (pattern.getD 0 0).toNat) [(cell 1, patternData data 0)] := by
    rw [own 0 some_]
    exact leaves_perl_data (by decide) true false (data 0)
  have words : Leaves (repeatCall (PerlDataGenerator.storeWordAt board windows loop pattern)
      (pattern.length - 1) 1)
      ((List.range' 1 (pattern.length - 1)).flatMap (pairStores loop pattern.length data)) := by
    apply leaves_repeat
    intro k lower upper
    exact leaves_perl_word_at (by omega) (by omega) small (own k (by omega))
  have reset : Leaves (PerlDataGenerator.reset board windows) [(ctrl, dgReset)] :=
    leaves_perl_reset
  have stopped : Leaves (PerlDataGenerator.stop board windows) stopStores :=
    (leaves_perl_data (by decide) false true 0).andThen
      ((leaves_perl_descriptor (by decide) false true 1).andThen reset)
  have enabled : Leaves (PerlDataGenerator.writeDescriptor board windows 0 true false 1 0)
      [(cell 0, patternDescriptor loop pattern.length 0)] :=
    leaves_perl_descriptor (by decide) true false 1
  have whole := stopped.andThen (first.andThen (words.andThen
    (reset.andThen (enabled.andThen reset))))
  unfold PerlDataGenerator.storePattern at accepted
  split at accepted
  · cases accepted
  · cases accepted
    simpa [patternStores] using whole

/-- The words that the Perl encoder stores in addition are overwritten or there already. -/
theorem contents_perl (loop : Bool) (n : ℕ) (data : ℕ → U16) (before : Place → U32) :
    contents (stopStores ++ (patternStores loop n data ++ [(ctrl, dgReset)])) before =
      playMemory loop n data before := by
  have again : playMemory loop n data before ctrl = dgReset := by
    apply contents_distinct (pattern_keys_distinct loop n data)
    unfold patternStores
    simp
  have covered : ∀ store ∈ stopStores,
      store.1 ∈ (patternStores loop n data ++ [(ctrl, dgReset)]).map Prod.fst := by
    intro store member
    rw [List.map_append, pattern_keys]
    simp only [stopStores, List.mem_cons, List.not_mem_nil, or_false] at member
    rcases member with rfl | rfl | rfl <;> simp
  rw [contents_overwritten covered, contents_append]
  exact (congrArg (Function.update _ ctrl) again.symm).trans (Function.update_eq_self ctrl _)

end Perl

/-- The generator plays the pattern back, and the Perl encoder, where it takes the pattern as
well, leaves the same memory. -/
structure PlaysBack (board : BoardClass) (windows : Windows) (loop : Bool) (number : U32)
    (data : ℕ → U16) (before : Place → U32) : Prop where
  plays : Plays (contents (stored (play board windows loop number data []).2) before) loop
    number.toNat data
  same : ∀ call, PerlDataGenerator.storePattern board windows loop
      ((List.range number.toNat).map data) = some call → (call []).1 = none →
    contents (stored (call []).2) before =
      contents (stored (play board windows loop number data []).2) before

section PlaysBack

variable {board : BoardClass} {windows : Windows} {loop : Bool} {number : U32} {data : ℕ → U16}

theorem stored_play (some_ : 1 ≤ number.toNat)
    (accepted : (play board windows loop number data []).1 = none) :
    stored (play board windows loop number data []).2 =
      patternStores loop number.toNat data := by
  rw [leaves_play some_ (accepted_small accepted) [] accepted]
  rfl

theorem encoders_agree (some_ : 1 ≤ number.toNat)
    (small : 0x30000 + 2 * number.toNat < 2 ^ 32) {call : BoardCall}
    (perl : PerlDataGenerator.storePattern board windows loop
      ((List.range number.toNat).map data) = some call)
    (accepted : (call []).1 = none) (before : Place → U32) :
    contents (stored (call []).2) before = playMemory loop number.toNat data before := by
  have length : ((List.range number.toNat).map data).length = number.toNat := by
    rw [List.length_map, List.length_range]
  have own : ∀ k < ((List.range number.toNat).map data).length,
      ((List.range number.toNat).map data).getD k 0 = data k := by
    intro k inside
    rw [List.getD_eq_getElem?_getD, List.getElem?_eq_getElem inside, Option.getD_some,
      List.getElem_map, List.getElem_range]
  have leaves := leaves_perl_pattern perl (by rw [length]; exact some_)
    (by rw [length]; exact small) own
  rw [leaves [] accepted, length]
  exact contents_perl loop number.toNat data before

/-- Patterns of one word lack the descriptor that would stop or repeat them, and patterns of
more than 4096 words cannot be linked. -/
theorem generator_plays_back_iff (some_ : 1 ≤ number.toNat)
    (accepted : (play board windows loop number data []).1 = none) (before : Place → U32) :
    PlaysBack board windows loop number data before ↔
      2 ≤ number.toNat ∧ number.toNat ≤ 4096 := by
  have storesOf := stored_play some_ accepted
  constructor
  · intro back
    have plays := back.plays
    rw [storesOf] at plays
    exact (plays_iff some_).mp plays
  · intro few
    constructor
    · rw [storesOf]
      exact (plays_iff some_).mpr few
    · intro call perl returns
      rw [storesOf]
      exact encoders_agree some_ (accepted_small accepted) perl returns before

theorem generator_plays_back_iff_two_words :
    (play .abb ⟨0x40000, 0, 0x40⟩ true 2 (fun _ => 7) []).1 = none ∧
      (PlaysBack .abb ⟨0x40000, 0, 0x40⟩ true 2 (fun _ => 7) (fun _ => 0) ↔
        2 ≤ (2 : U32).toNat ∧ (2 : U32).toNat ≤ 4096) :=
  ⟨by decide, generator_plays_back_iff (by decide) (by decide) fun _ => 0⟩

theorem single_word_runs_on :
    (play .abb ⟨0x40000, 0, 0x40⟩ false 1 (fun _ => 7) []).1 = none ∧
      ¬PlaysBack .abb ⟨0x40000, 0, 0x40⟩ false 1 (fun _ => 7) (fun _ => 0) := by
  have accepted : (play .abb ⟨0x40000, 0, 0x40⟩ false 1 (fun _ => 7) []).1 = none := by decide
  apply And.intro accepted
  intro back
  have plays := back.plays
  rw [stored_play (by decide) accepted] at plays
  exact single_not_played plays

end PlaysBack

end FpgaPcie.Mprace
