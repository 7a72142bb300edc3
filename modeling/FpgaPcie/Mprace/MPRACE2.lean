import FpgaPcie.Mprace.BlockAccess

/-!
# Block access to the main FPGA of the MPRACE2

The registers of the main FPGA lie in its memory area. Unless the library is compiled with
`MAIN_LOOPBACK`, a read first asks for the words in three of them: a block that increments
asks once for all of its words, everything else asks for one word at a time. The bound of a
block is computed in 32 bits and counts `count` words also where the address stays.
-/

namespace FpgaPcie.Mprace

set_option autoImplicit false

structure MPRACE2 where
  /-- whether the library is compiled with `MAIN_LOOPBACK` -/
  mainLoopback : Bool
  mainMemSize : U32
  deriving DecidableEq, Repr

namespace MPRACE2

def mainRegisterOffset : U32 := 0x80000#32 >>> 2
def mainSrcAddr : U32 := 0xC0#32 >>> 2
def mainDestAddr : U32 := 0xD0#32 >>> 2
def mainRdSize : U32 := 0xF0#32 >>> 2

/-- A place is an index behind the pointer `main_mem`. -/
abbrev MainHistory := Bus.History ℕ U32

abbrev MainDevice := Bus.Device ℕ U32

abbrev MainCall := Bus.Call MainHistory BoardException

abbrev MainFetch := Bus.Fetch ℕ U32 BoardException

abbrev MainReading := Bus.Reading ℕ U32

abbrev MainReadCall := Bus.Call MainReading BoardException

variable (board : MPRACE2)

def setReg (address value : U32) : MainCall := fun history =>
  if mainRegisterOffset + address < board.mainMemSize then
    (none, Bus.store (mainRegisterOffset.toNat + address.toNat) value history)
  else (some .addressOutOfRange, history)

def write (address value : U32) : MainCall := fun history =>
  if address < board.mainMemSize then (none, Bus.store address.toNat value history)
  else (some .addressOutOfRange, history)

/-- The three calls of `setReg` before a read. -/
def request (address count : U32) : MainCall :=
  if board.mainLoopback then fun history => (none, history)
  else ((board.setReg mainSrcAddr (address <<< 2)).andThen
    (board.setReg mainDestAddr (address <<< 2))).andThen (board.setReg mainRdSize count)

variable (device : MainDevice)

def loadAfter (asked : Option BoardException × MainHistory) (place : ℕ) :
    Except BoardException U32 × MainHistory :=
  match asked with
  | (none, history) =>
      let fetched := Bus.load device place history
      (.ok fetched.1, fetched.2)
  | (some exception, history) => (.error exception, history)

def read (address : U32) : MainFetch := fun history =>
  if address < board.mainMemSize then
    loadAfter device (board.request address 1 history) address.toNat
  else (.error .addressOutOfRange, history)

def inBound (address count : U32) : Prop :=
  address ≤ board.mainMemSize ∧ address + count - 1 < board.mainMemSize

instance (address count : U32) : Decidable (board.inBound address count) := instDecidableAnd

def writeBlock (address : U32) (data : ℕ → U32) (count : U32) (inc : Bool) : MainCall :=
  fun history =>
    if board.inBound address count then
      (none, if inc then
          Bus.loop (fun i => Bus.storeAt data (address.toNat + i) i) count.toNat 0 history
        else Bus.loop (fun i => Bus.storeAt data address.toNat i) count.toNat 0 history)
    else (some .addressOutOfRange, history)

def beside (call : MainCall) : MainReadCall := fun reading =>
  ((call reading.history).1, { reading with history := (call reading.history).2 })

def loadWords (address : U32) (count : U32) : MainReadCall := fun reading =>
  (none, Bus.loop (fun i => Bus.loadAt device (address.toNat + i) i) count.toNat 0 reading)

def askedLoad (address : U32) (i : ℕ) : MainReadCall :=
  Bus.readInto i fun history =>
    loadAfter device (board.request address 1 history) address.toNat

def readBlock (address count : U32) (inc : Bool) : MainReadCall := fun reading =>
  if board.inBound address count then
    if inc then
      (beside (board.request address count)).andThen (loadWords device address count) reading
    else Bus.repeatCall (board.askedLoad device address) count.toNat 0 reading
  else (some .addressOutOfRange, reading)

def singleWrites (address : U32) (data : ℕ → U32) (count : U32) (inc : Bool) : MainCall :=
  Bus.repeatCall (fun i => board.write (singleAddress address inc i) (data i)) count.toNat 0

def singleReads (address count : U32) (inc : Bool) : MainReadCall :=
  Bus.repeatCall (fun i => Bus.readInto i (board.read device (singleAddress address inc i)))
    count.toNat 0

def Names (address count : U32) (inc : Bool) (word : ℕ) : Prop :=
  count ≠ 0 ∧ Touches address count inc word

def Fits (address count : U32) (inc : Bool) : Prop :=
  ∀ word, Names address count inc word → word < board.mainMemSize.toNat

def IsRequest (word : ℕ) : Prop :=
  word = (mainRegisterOffset + mainSrcAddr).toNat ∨
    word = (mainRegisterOffset + mainDestAddr).toNat ∨
    word = (mainRegisterOffset + mainRdSize).toNat

/-- A block that fits does what `calls` do where it `works`, and throws from `stopped` where it
does not; any other throws before its first access. No other words than those of `may` are
touched. -/
structure BlockAs {State : Type} (places : State → List ℕ) (fits works : Prop)
    (block calls : Option BoardException × State) (stopped : State) (may : ℕ → Prop)
    (state : State) : Prop where
  effect : fits → works → block = calls
  stops : fits → ¬works → block = (some .addressOutOfRange, stopped)
  refuses : ¬fits → block = (some .addressOutOfRange, state)
  returns : block.1 = none ↔ fits ∧ works
  touches : ∀ place ∈ places block.2, place ∈ places state ∨ may place

/-- A block that does not fit and throws at once is as it should be, whatever calls would do. -/
theorem BlockAs.refused {State : Type} {places : State → List ℕ} {fits works : Prop}
    {block calls : Option BoardException × State} {stopped : State} {may : ℕ → Prop}
    {state : State} (unfit : ¬fits) (refused : block = (some .addressOutOfRange, state)) :
    BlockAs places fits works block calls stopped may state := by
  rw [refused]
  constructor
  · exact fun fit => absurd fit unfit
  · exact fun fit => absurd fit unfit
  · exact fun _ => rfl
  · exact iff_of_false nofun fun both => unfit both.1
  · exact fun place member => Or.inl member

/-- The arguments on which the bound of the code says what it should: with `inc` the sum
does not wrap, without it all `count` words behind the address are counted. -/
def BoundHolds (address count : U32) (inc : Bool) : Prop :=
  let size := board.mainMemSize.toNat
  let first := address.toNat
  let behind := address.toNat + count.toNat
  if count = 0 then 0 < first ∧ first ≤ size
  else if inc then behind ≤ 2 ^ 32 ∨ size < first
  else behind ≤ size ∨ (size ≤ first ∧ behind ≤ 2 ^ 32) ∨ size < first ∨
    (first < size ∧ 2 ^ 32 < behind)

def asks (address count : U32) : MainHistory :=
  [.store (mainRegisterOffset + mainSrcAddr).toNat (address <<< 2),
    .store (mainRegisterOffset + mainDestAddr).toNat (address <<< 2),
    .store (mainRegisterOffset + mainRdSize).toNat count]

/-- Single reads; of a block that increments the words are asked for once, before the first of
them, and each is then read as in loopback. -/
def blockReads (address count : U32) (inc : Bool) : MainReadCall :=
  if inc ∧ ¬board.mainLoopback then fun reading =>
    singleReads { board with mainLoopback := true } device address count inc
      { reading with history := reading.history ++ asks address count }
  else board.singleReads device address count inc

/-- Where not all that is asked can be asked, what can be has been, and nothing is read. -/
def stoppedRead (address count : U32) (inc : Bool) (reading : MainReading) : MainReading :=
  let asked := (asks address (if inc then count else 1)).filter fun access =>
    access.place < board.mainMemSize.toNat
  { reading with history := reading.history ++ asked }

/-- What is asked can be asked: the last of the three registers lies in the memory. -/
def CanAsk (count : U32) (inc : Bool) : Prop :=
  board.mainLoopback = true ∨ (count = 0 ∧ inc = false) ∨
    mainRegisterOffset + mainRdSize < board.mainMemSize

section Bounds

variable {board : MPRACE2} {address count : U32} {inc : Bool}

theorem fits_iff : board.Fits address count inc ↔
    count.toNat = 0 ∨ address.toNat + length count inc ≤ board.mainMemSize.toNat := by
  have empty : count = 0 ↔ count.toNat = 0 := BitVec.toNat_eq
  unfold Fits Names Touches
  rw [← length]
  constructor
  · intro fits
    by_cases none_ : count.toNat = 0
    · exact Or.inl none_
    · right
      have some_ : 0 < length count inc := by
        unfold length
        split <;> omega
      have last := fits (address.toNat + length count inc - 1)
        ⟨fun zero => none_ (empty.mp zero), by omega, by omega⟩
      omega
  · intro bounds word inside
    rw [ne_eq, empty] at inside
    omega

theorem bound_holds_iff : board.BoundHolds address count inc ↔
    (board.inBound address count ↔ board.Fits address count inc) := by
  have sizeBound := board.mainMemSize.isLt
  have addressBound := address.isLt
  have countBound := count.isLt
  have empty : count = 0 ↔ count.toNat = 0 := BitVec.toNat_eq
  have one : (1 : U32).toNat = 1 := rfl
  have behind : (address + count - 1).toNat =
      (2 ^ 32 - 1 + (address.toNat + count.toNat) % 2 ^ 32) % 2 ^ 32 := by
    rw [BitVec.toNat_sub, BitVec.toNat_add, one]
  unfold BoundHolds inBound
  rw [fits_iff, BitVec.le_def, BitVec.lt_def, behind]
  simp only [length, empty]
  cases inc with
  | false =>
      simp only [Bool.false_eq_true, if_false]
      split <;> omega
  | true =>
      simp only [if_true]
      split <;> omega

end Bounds

/-- What was accessed is in `before` or allowed. -/
def Kept (before : List ℕ) (may : ℕ → Prop) (seen : List ℕ) : Prop :=
  ∀ place ∈ seen, place ∈ before ∨ may place

section Places

variable {board : MPRACE2} {device : MainDevice} {address count value : U32} {inc : Bool}
  {before : List ℕ} {may : ℕ → Prop}

theorem Kept.add {seen : List ℕ} {place : ℕ} (kept : Kept before may seen) (allowed : may place) :
    Kept before may (seen ++ [place]) := by
  intro other member
  rcases List.mem_append.mp member with old | new
  · exact kept other old
  · rw [List.mem_singleton.mp new]
    exact Or.inr allowed

theorem Kept.loop {State : Type} {view : State → List ℕ} {step : ℕ → State → State}
    {at_ : ℕ → ℕ} (one : ∀ i state, view (step i state) = view state ++ [at_ i]) {state : State}
    {count : ℕ} (kept : Kept before may (view state)) (allowed : ∀ i < count, may (at_ i)) :
    Kept before may (view (Bus.loop step count 0 state)) := by
  rw [Bus.loop_places one]
  intro place member
  rcases List.mem_append.mp member with old | new
  · exact kept place old
  · obtain ⟨i, inside, rfl⟩ := List.mem_map.mp new
    rw [List.mem_range'_1] at inside
    exact Or.inr (allowed i (by omega))

theorem set_reg_keeps {history : MainHistory} (kept : Kept before may (Bus.places history))
    (allowed : may (mainRegisterOffset.toNat + address.toNat)) :
    Kept before may (Bus.places (board.setReg address value history).2) := by
  unfold setReg
  split
  · rw [Bus.store_places]
    exact kept.add allowed
  · exact kept

theorem request_keeps (address count : U32) {history : MainHistory}
    (kept : Kept before may (Bus.places history))
    (allowed : board.mainLoopback = false → ∀ word, IsRequest word → may word) :
    Kept before may (Bus.places (board.request address count history).2) := by
  unfold request
  split
  · exact kept
  · rename_i asks
    have all := allowed (Bool.eq_false_iff.mpr asks)
    refine Bus.and_then_keeps (fun history => Kept before may (Bus.places history)) ?_ ?_ kept
    · intro history kept
      refine Bus.and_then_keeps (fun history => Kept before may (Bus.places history)) ?_ ?_ kept
      · intro history kept
        exact set_reg_keeps kept (all _ (Or.inl rfl))
      · intro history kept
        exact set_reg_keeps kept (all _ (Or.inr (Or.inl rfl)))
    · intro history kept
      exact set_reg_keeps kept (all _ (Or.inr (Or.inr rfl)))

end Places

section Writes

variable {board : MPRACE2} {address count : U32} {inc : Bool}

theorem write_block_in_bound (bound : board.inBound address count) (data : ℕ → U32)
    (history : MainHistory) : board.writeBlock address data count inc history =
      (none, Bus.loop (fun i => Bus.storeAt data (address.toNat + advance inc i) i) count.toNat 0
        history) := by
  unfold writeBlock
  rw [if_pos bound]
  cases inc <;> rfl

theorem within_of_fits (fits : board.Fits address count inc) {i : ℕ} (below : i < count.toNat) :
    TouchesWithin address count inc 0 board.mainMemSize.toNat := by
  rw [fits_iff] at fits
  rw [within_iff]
  omega

theorem single_writes_fit (fits : board.Fits address count inc) (data : ℕ → U32)
    (history : MainHistory) : board.singleWrites address data count inc history =
      (none, Bus.loop (fun i => Bus.storeAt data (address.toNat + advance inc i) i) count.toNat 0
        history) := by
  apply Bus.repeat_call_loop
  intro i _ below history
  rw [Nat.zero_add] at below
  obtain ⟨exact_, inside⟩ := single_address_inside (within_of_fits fits below) below
  unfold write
  rw [if_pos inside, exact_]
  rfl

theorem advance_named {i : ℕ} (below : i < count.toNat) :
    Names address count inc (address.toNat + advance inc i) := by
  constructor
  · intro zero
    rw [zero] at below
    exact absurd below (Nat.not_lt_zero i)
  · unfold Touches advance
    cases inc with
    | false =>
        simp only [Bool.false_eq_true, if_false]
        omega
    | true =>
        simp only [if_true]
        omega

theorem write_block_as (bound : board.BoundHolds address count inc) (data : ℕ → U32)
    (history : MainHistory) :
    BlockAs Bus.places (board.Fits address count inc) True
      (board.writeBlock address data count inc history)
      (board.singleWrites address data count inc history) history (Names address count inc)
      history := by
  rw [bound_holds_iff] at bound
  by_cases fits : board.Fits address count inc
  · rw [write_block_in_bound (bound.mpr fits), single_writes_fit fits]
    constructor
    · exact fun _ _ => rfl
    · exact fun _ broken => absurd trivial broken
    · exact fun unfit => absurd fits unfit
    · exact iff_of_true rfl ⟨fits, trivial⟩
    · apply Kept.loop (fun i => Bus.store_at_places data _ i)
      · exact fun place member => Or.inl member
      · exact fun i below => advance_named below
  · have refused : board.writeBlock address data count inc history =
        (some .addressOutOfRange, history) := if_neg fun inside => fits (bound.mp inside)
    exact BlockAs.refused fits refused

end Writes

section Reads

variable {board : MPRACE2} {device : MainDevice} {address count : U32} {inc : Bool}

theorem request_loopback (loopback : board.mainLoopback = true) (history : MainHistory) :
    board.request address count history = (none, history) := by
  unfold request
  rw [if_pos loopback]

theorem request_asks (asked : board.mainLoopback = false) (address count : U32)
    (history : MainHistory) : board.request address count history =
      (if mainRegisterOffset + mainRdSize < board.mainMemSize then none
        else some .addressOutOfRange,
      history ++ (asks address count).filter fun access =>
        access.place < board.mainMemSize.toNat) := by
  have src : (mainRegisterOffset + mainSrcAddr).toNat = 0x20030 := by decide
  have dest : (mainRegisterOffset + mainDestAddr).toNat = 0x20034 := by decide
  have size : (mainRegisterOffset + mainRdSize).toNat = 0x2003C := by decide
  have srcPlace : mainRegisterOffset.toNat + mainSrcAddr.toNat = 0x20030 := by decide
  have destPlace : mainRegisterOffset.toNat + mainDestAddr.toNat = 0x20034 := by decide
  have sizePlace : mainRegisterOffset.toNat + mainRdSize.toNat = 0x2003C := by decide
  unfold request setReg Bus.Call.andThen asks Bus.store
  simp only [asked, Bool.false_eq_true, if_false, BitVec.lt_def, src, dest, size, srcPlace,
    destPlace, sizePlace]
  by_cases first : 0x20030 < board.mainMemSize.toNat
  · by_cases second : 0x20034 < board.mainMemSize.toNat
    · by_cases third : 0x2003C < board.mainMemSize.toNat
      · simp [first, second, third, Bus.Access.place]
      · simp [first, second, third, Bus.Access.place]
    · have third : ¬0x2003C < board.mainMemSize.toNat := by omega
      simp [first, second, third, Bus.Access.place]
  · have second : ¬0x20034 < board.mainMemSize.toNat := by omega
    have third : ¬0x2003C < board.mainMemSize.toNat := by omega
    simp [first, second, third, Bus.Access.place]

theorem all_asked (last : mainRegisterOffset + mainRdSize < board.mainMemSize)
    (address count : U32) : ((asks address count).filter fun access =>
      access.place < board.mainMemSize.toNat) = asks address count := by
  have src : (mainRegisterOffset + mainSrcAddr).toNat = 0x20030 := by decide
  have dest : (mainRegisterOffset + mainDestAddr).toNat = 0x20034 := by decide
  have size : (mainRegisterOffset + mainRdSize).toNat = 0x2003C := by decide
  rw [BitVec.lt_def, size] at last
  apply List.filter_eq_self.mpr
  intro access member
  simp only [asks, src, dest, size, List.mem_cons, List.not_mem_nil, or_false] at member
  rcases member with rfl | rfl | rfl
  · exact decide_eq_true (show 0x20030 < _ by omega)
  · exact decide_eq_true (show 0x20034 < _ by omega)
  · exact decide_eq_true last

theorem request_returns (address count : U32) (history : MainHistory) :
    (board.request address count history).1 = none ↔
      board.mainLoopback = true ∨ mainRegisterOffset + mainRdSize < board.mainMemSize := by
  by_cases loopback : board.mainLoopback = true
  · rw [request_loopback loopback]
    exact iff_of_true rfl (Or.inl loopback)
  · rw [request_asks (Bool.eq_false_iff.mpr loopback), or_iff_right loopback]
    split
    · rename_i last
      exact iff_of_true rfl last
    · rename_i last
      exact iff_of_false nofun last

theorem asked_load_loopback (loopback : board.mainLoopback = true) (i : ℕ)
    (reading : MainReading) : askedLoad board device address i reading =
      (none, Bus.loadAt device address.toNat i reading) := by
  unfold askedLoad Bus.readInto
  simp only [request_loopback loopback]
  rfl

theorem asked_load_returns (i : ℕ) (reading : MainReading) :
    (askedLoad board device address i reading).1 = none ↔
      board.mainLoopback = true ∨ mainRegisterOffset + mainRdSize < board.mainMemSize := by
  rw [← request_returns address 1 reading.history]
  unfold askedLoad Bus.readInto loadAfter
  cases asked : board.request address 1 reading.history with
  | mk error history =>
      cases error with
      | none => simp only [asked]
      | some error =>
          simp only [asked, reduceCtorEq]

theorem asked_load_keeps {before : List ℕ} {may : ℕ → Prop} (i : ℕ)
    (own : may address.toNat)
    (asks : board.mainLoopback = false → ∀ word, IsRequest word → may word)
    (reading : MainReading) (kept : Kept before may reading.places) :
    Kept before may (askedLoad board device address i reading).2.places := by
  have requested := request_keeps address 1 kept asks
  unfold askedLoad Bus.readInto loadAfter
  cases asked : board.request address 1 reading.history with
  | mk error history =>
      rw [asked] at requested
      cases error with
      | none =>
          simp only [asked]
          show Kept before may (Bus.places (Bus.load device address.toNat history).2)
          rw [Bus.load_places]
          exact requested.add own
      | some error =>
          simp only [asked]
          exact requested

def MayTouch (board : MPRACE2) (address count : U32) (inc : Bool) (word : ℕ) : Prop :=
  Names address count inc word ∨ (board.mainLoopback = false ∧ IsRequest word)

theorem single_read_fits (fits : board.Fits address count inc) {i : ℕ} (below : i < count.toNat) :
    Bus.readInto i (board.read device (singleAddress address inc i)) =
      board.askedLoad device (singleAddress address inc i) i := by
  obtain ⟨-, inside⟩ := single_address_inside (within_of_fits fits below) below
  unfold askedLoad read
  simp only [if_pos inside]

theorem single_reads_loopback (loopback : board.mainLoopback = true)
    (fits : board.Fits address count inc) (reading : MainReading) :
    board.singleReads device address count inc reading =
      (none, Bus.loop (fun i => Bus.loadAt device (address.toNat + advance inc i) i) count.toNat 0
        reading) := by
  apply Bus.repeat_call_loop
  intro i _ below reading
  rw [Nat.zero_add] at below
  obtain ⟨exact_, -⟩ := single_address_inside (within_of_fits fits below) below
  rw [single_read_fits fits below, asked_load_loopback loopback, exact_]

/-- A block that increments without loopback asks, and reads its words. -/
theorem read_block_once (bound : board.inBound address count)
    (fits : board.Fits address count true) (asked : board.mainLoopback = false)
    (reading : MainReading) :
    board.readBlock device address count true reading =
      if mainRegisterOffset + mainRdSize < board.mainMemSize then
        board.blockReads device address count true reading
      else (some .addressOutOfRange, board.stoppedRead address count true reading) := by
  have once : true = true ∧ ¬board.mainLoopback = true := ⟨rfl, by rw [asked]; exact nofun⟩
  have whole : Fits { board with mainLoopback := true } address count true := fits
  unfold readBlock blockReads stoppedRead
  rw [if_pos bound, if_pos rfl, if_pos once, single_reads_loopback rfl whole]
  unfold Bus.Call.andThen beside
  rw [request_asks asked]
  by_cases last : mainRegisterOffset + mainRdSize < board.mainMemSize
  · rw [if_pos last, if_pos last, all_asked last]
    rfl
  · rw [if_neg last, if_neg last]
    rfl

theorem read_block_each (bound : board.inBound address count)
    (fits : board.Fits address count inc) (each : ¬(inc = true ∧ ¬board.mainLoopback = true))
    (reading : MainReading) : board.readBlock device address count inc reading =
      board.singleReads device address count inc reading := by
  unfold readBlock
  rw [if_pos bound]
  cases inc with
  | false =>
      simp only [Bool.false_eq_true, if_false]
      apply Bus.repeat_call_congr
      intro i _ below
      rw [Nat.zero_add] at below
      exact (single_read_fits fits below).symm
  | true =>
      have loopback : board.mainLoopback = true := by
        by_contra asked
        exact each ⟨rfl, asked⟩
      rw [if_pos rfl, single_reads_loopback loopback fits]
      unfold Bus.Call.andThen beside
      rw [request_loopback loopback]
      rfl

theorem single_reads_stopped (fits : board.Fits address count false)
    (asked : board.mainLoopback = false) (some_ : count ≠ 0)
    (last : ¬mainRegisterOffset + mainRdSize < board.mainMemSize) (reading : MainReading) :
    board.singleReads device address count false reading =
      (some .addressOutOfRange, board.stoppedRead address count false reading) := by
  have positive : 0 < count.toNat := by
    rw [Nat.pos_iff_ne_zero]
    intro zero
    exact some_ (BitVec.eq_of_toNat_eq zero)
  apply Bus.repeat_call_throws _ positive
  have first := @single_read_fits board device address count false fits 0 positive
  have stays : singleAddress address false 0 = address := rfl
  rw [first, stays]
  unfold askedLoad Bus.readInto
  simp only [request_asks asked, if_neg last]
  rfl

/-- A block that fits reads as `blockReads` has it, if all can be asked. -/
theorem read_block_works (bound : board.inBound address count)
    (fits : board.Fits address count inc) (works : board.CanAsk count inc)
    (reading : MainReading) : board.readBlock device address count inc reading =
      board.blockReads device address count inc reading := by
  by_cases once : inc = true ∧ ¬board.mainLoopback = true
  · obtain ⟨rfl, asked⟩ := once
    have last : mainRegisterOffset + mainRdSize < board.mainMemSize := by
      rcases works with loopback | ⟨-, staying⟩ | last
      · exact absurd loopback asked
      · cases staying
      · exact last
    rw [read_block_once bound fits (Bool.eq_false_iff.mpr asked), if_pos last]
  · rw [read_block_each bound fits once, blockReads, if_neg once]

theorem read_block_stopped (bound : board.inBound address count)
    (fits : board.Fits address count inc) (broken : ¬board.CanAsk count inc)
    (reading : MainReading) : board.readBlock device address count inc reading =
      (some .addressOutOfRange, board.stoppedRead address count inc reading) := by
  rw [CanAsk, not_or, not_or] at broken
  obtain ⟨asked, some_, last⟩ := broken
  have reads : board.mainLoopback = false := Bool.eq_false_iff.mpr asked
  cases inc with
  | true => rw [read_block_once bound fits reads, if_neg last]
  | false =>
      rw [read_block_each bound fits fun both => nomatch both.1]
      exact single_reads_stopped fits reads (fun none_ => some_ ⟨none_, rfl⟩) last reading

theorem read_block_keeps {before : List ℕ} (reading : MainReading)
    (bound : board.inBound address count)
    (kept : Kept before (MayTouch board address count inc) reading.places) :
    Kept before (MayTouch board address count inc)
      (board.readBlock device address count inc reading).2.places := by
  have asking : board.mainLoopback = false → ∀ word, IsRequest word →
      MayTouch board address count inc word := fun asks word member => Or.inr ⟨asks, member⟩
  unfold readBlock
  rw [if_pos bound]
  split
  · rename_i increments
    apply Bus.and_then_keeps fun reading : MainReading =>
      Kept before (MayTouch board address count inc) reading.places
    · intro reading kept
      exact request_keeps address count kept asking
    · intro reading kept
      apply Kept.loop (fun i => Bus.load_at_places device _ i) kept
      intro i below
      have named := @advance_named address count inc i below
      rw [increments] at named ⊢
      exact Or.inl named
    · exact kept
  · rename_i stays
    apply Bus.repeat_call_keeps fun reading : MainReading =>
      Kept before (MayTouch board address count inc) reading.places
    · intro i _ below reading kept
      rw [Nat.zero_add] at below
      apply asked_load_keeps i _ asking reading kept
      have named := @advance_named address count inc i below
      rw [Bool.eq_false_iff.mpr stays] at named ⊢
      exact Or.inl named
    · exact kept

theorem block_reads_return (fits : board.Fits address count inc)
    (works : board.CanAsk count inc) (reading : MainReading) :
    (board.blockReads device address count inc reading).1 = none := by
  unfold blockReads
  split
  · have whole : Fits { board with mainLoopback := true } address count inc := fits
    dsimp only
    rw [single_reads_loopback rfl whole]
  · rename_i each
    have rounds : (board.singleReads device address count inc reading).1 = none ↔
        count.toNat = 0 ∨ (board.mainLoopback = true ∨
          mainRegisterOffset + mainRdSize < board.mainMemSize) := by
      apply Bus.repeat_call_returns
      intro i _ below reading
      rw [Nat.zero_add] at below
      rw [single_read_fits fits below]
      exact asked_load_returns i reading
    rw [rounds]
    rcases works with loopback | ⟨none_, -⟩ | last
    · exact Or.inr (Or.inl loopback)
    · exact Or.inl (by rw [none_]; rfl)
    · exact Or.inr (Or.inr last)

theorem read_block_as (bound : board.BoundHolds address count inc) (reading : MainReading) :
    BlockAs Bus.Reading.places (board.Fits address count inc) (board.CanAsk count inc)
      (board.readBlock device address count inc reading)
      (board.blockReads device address count inc reading)
      (board.stoppedRead address count inc reading)
      (MayTouch board address count inc) reading := by
  rw [bound_holds_iff] at bound
  by_cases fits : board.Fits address count inc
  · have inside := bound.mpr fits
    constructor
    · exact fun _ works => read_block_works inside fits works reading
    · exact fun _ broken => read_block_stopped inside fits broken reading
    · exact fun unfit => absurd fits unfit
    · by_cases works : board.CanAsk count inc
      · rw [read_block_works inside fits works]
        exact iff_of_true (block_reads_return fits works reading) ⟨fits, works⟩
      · rw [read_block_stopped inside fits works]
        exact iff_of_false nofun fun both => works both.2
    · exact read_block_keeps reading inside fun place member => Or.inl member
  · have refused : board.readBlock device address count inc reading =
        (some .addressOutOfRange, reading) := if_neg fun inside => fits (bound.mp inside)
    exact BlockAs.refused fits refused

end Reads

/-- Wherever the bound does not wrap and counts no words in vain, blocks are bounded by the
memory and do what single calls do; a read that increments asks for its words once, and one that
cannot ask for all of them throws when it comes to that. -/
theorem main_blocks_bounded (board : MPRACE2) (device : MainDevice) (address : U32)
    (data : ℕ → U32) (count : U32) (inc : Bool) (history : MainHistory)
    (bound : board.BoundHolds address count inc) :
    BlockAs Bus.places (board.Fits address count inc) True
      (board.writeBlock address data count inc history)
      (board.singleWrites address data count inc history) history (Names address count inc)
      history ∧
    BlockAs Bus.Reading.places (board.Fits address count inc) (board.CanAsk count inc)
      (board.readBlock device address count inc ⟨data, history⟩)
      (board.blockReads device address count inc ⟨data, history⟩)
      (board.stoppedRead address count inc ⟨data, history⟩)
      (MayTouch board address count inc) ⟨data, history⟩ :=
  ⟨write_block_as bound data history, read_block_as bound ⟨data, history⟩⟩

/-- A memory of one megabyte, on a board that is not in loopback. -/
def megabyteBoard : MPRACE2 := ⟨false, 0x40000#32⟩

def zeroDevice : MainDevice := fun _ _ => 0

theorem main_blocks_bounded_two_words :
    megabyteBoard.writeBlock 0 (fun _ => 5) 2 true [] =
      megabyteBoard.singleWrites 0 (fun _ => 5) 2 true [] ∧
    megabyteBoard.readBlock zeroDevice 0 2 true ⟨fun _ => 5, []⟩ =
      megabyteBoard.blockReads zeroDevice 0 2 true ⟨fun _ => 5, []⟩ := by
  have fits : megabyteBoard.Fits 0 2 true := fits_iff.mpr (Or.inr (by decide))
  have bounded := main_blocks_bounded megabyteBoard zeroDevice 0 (fun _ => 5) 2 true []
    (by unfold BoundHolds; decide)
  exact ⟨bounded.1.effect fits trivial, bounded.2.effect fits (Or.inr (Or.inr (by decide)))⟩

theorem read_touches_registers :
    ¬BlockAs Bus.Reading.places (megabyteBoard.Fits 0 1 true) True
      (megabyteBoard.readBlock zeroDevice 0 1 true ⟨fun _ => 5, []⟩)
      (megabyteBoard.singleReads zeroDevice 0 1 true ⟨fun _ => 5, []⟩) ⟨fun _ => 5, []⟩
      (Names 0 1 true) ⟨fun _ => 5, []⟩ := by
  intro bounded
  have register : 0x20030 ∈
      (megabyteBoard.readBlock zeroDevice 0 1 true ⟨fun _ => 5, []⟩).2.places := by decide
  rcases bounded.touches 0x20030 register with before | named
  · cases before
  · exact absurd named.2.2 (by decide)

end MPRACE2

end FpgaPcie.Mprace
