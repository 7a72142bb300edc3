import FpgaPcie.Mprace.Board

/-!
# Blocks and single words

What a block access should do is said with exact addresses and single calls. The code
compares an end address one behind the last word, computed in 32 bits, and reaches the FIFO
through the pointer of the memory. So a block is served as single calls would serve it only
strictly below the last word of the memory.
-/

namespace FpgaPcie.Mprace

set_option autoImplicit false

def singleAddress (address : U32) (inc : Bool) (i : ℕ) : U32 :=
  if inc then address + BitVec.ofNat 32 i else address

def singleWrites (write : U32 → U32 → BoardCall) (address : U32) (data : ℕ → U32) (count : U32)
    (inc : Bool) : BoardCall :=
  Bus.repeatCall (fun i => write (singleAddress address inc i) (data i)) count.toNat 0

def singleReads (read : U32 → Fetch) (address count : U32) (inc : Bool) :
    ReadCall :=
  Bus.repeatCall (fun i => Bus.readInto i (read (singleAddress address inc i))) count.toNat 0

def Touches (address count : U32) (inc : Bool) (word : ℕ) : Prop :=
  address.toNat ≤ word ∧ word < address.toNat + if inc then count.toNat else 1

def TouchesWithin (address count : U32) (inc : Bool) (low high : ℕ) : Prop :=
  ∀ word, Touches address count inc word → low ≤ word ∧ word < high

namespace Windows

def InMemory (windows : Windows) (address count : U32) (inc : Bool) : Prop :=
  TouchesWithin address count inc 0 windows.memSize.toNat

def InFifo (windows : Windows) (address count : U32) (inc : Bool) : Prop :=
  TouchesWithin address count inc windows.memSize.toNat
    (windows.memSize.toNat + windows.fifoSize.toNat)

end Windows

/-- A block does what the calls for its area do, and what lies in no area throws. -/
structure ServedAs {State : Type} (windows : Windows) (address count : U32) (inc : Bool)
    (block memoryCalls fifoCalls : Option BoardException × State) (state : State) : Prop where
  memory : windows.InMemory address count inc → block = memoryCalls
  fifo : windows.InFifo address count inc → block = fifoCalls
  outside : ¬windows.InMemory address count inc → ¬windows.InFifo address count inc →
    block = (some .addressOutOfRange, state)

section Specification

variable (board : BoardClass) (windows : Windows) (device : Device) (address : U32)
  (data : ℕ → U32) (count : U32) (inc : Bool) (history : History)

def WriteExact : Prop :=
  ServedAs windows address count inc
    (board.writeBlock windows address data count inc history)
    (singleWrites (board.write windows) address data count inc history)
    (singleWrites (board.writeFIFO windows) (address - windows.memSize) data count inc history)
    history

def ReadExact : Prop :=
  ServedAs windows address count inc
    (board.readBlock windows device address count inc ⟨data, history⟩)
    (singleReads (board.read windows device) address count inc ⟨data, history⟩)
    (singleReads (board.readFIFO windows device) (address - windows.memSize) count inc
      ⟨data, history⟩)
    ⟨data, history⟩

/-- When a block is served as single calls would serve it. With `inc`, it ends before the
last word of the memory, or the end that is compared is right and lies outside. -/
def BlockServed : Prop :=
  let mem := windows.memSize.toNat
  let both := windows.memSize.toNat + windows.fifoSize.toNat
  let first := address.toNat
  let behind := address.toNat + count.toNat
  if count = 0 then
    first < mem ∨ (first < both ∧ both < 2 ^ 32) ∨ (both ≤ first ∧ inc = false)
  else if inc then
    behind < mem ∨
      (first < mem ∧ mem < behind ∧ behind < 2 ^ 32 ∧ (both ≤ behind ∨ 2 ^ 32 ≤ both)) ∨
      (mem ≤ first ∧ both < behind ∧ (behind < 2 ^ 32 ∨ both ≤ first ∨ 2 ^ 32 ≤ both))
  else first < mem ∨ both ≤ first

instance : Decidable (BlockServed windows address count inc) := by
  unfold BlockServed
  infer_instance

/-- Where the access starts behind `mem`, if the block gets past the comparisons. -/
def blockStart : Option ℕ :=
  if address < windows.memSize ∧ addrEnd address count inc < windows.memSize then
    some address.toNat
  else if address < windows.memSize + windows.fifoSize ∧
      addrEnd address count inc < windows.memSize + windows.fifoSize then
    some (address - windows.memSize).toNat
  else none

structure BlockPlaced : Prop where
  memory : windows.InMemory address count inc →
    ∃ start, blockStart windows address count inc = some start ∧
      (count = 0 ∨ start = address.toNat)
  fifo : windows.InFifo address count inc →
    count = 0 ∧ ∃ start, blockStart windows address count inc = some start
  outside : ¬windows.InMemory address count inc → ¬windows.InFifo address count inc →
    blockStart windows address count inc = none

end Specification

section Ranges

variable {windows : Windows} {address count : U32} {inc : Bool} {low high : ℕ}

def length (count : U32) (inc : Bool) : ℕ := if inc then count.toNat else 1

theorem within_iff : TouchesWithin address count inc low high ↔
    length count inc = 0 ∨
      (low ≤ address.toNat ∧ address.toNat + length count inc ≤ high) := by
  unfold TouchesWithin Touches
  rw [← length]
  constructor
  · intro within
    by_cases none_ : length count inc = 0
    · exact Or.inl none_
    · have first := within address.toNat (by omega)
      have last := within (address.toNat + length count inc - 1) (by omega)
      omega
  · intro bounds word inside
    omega

theorem addr_end_toNat (address count : U32) (inc : Bool) :
    (addrEnd address count inc).toNat =
      if inc then (address.toNat + count.toNat) % 2 ^ 32 else address.toNat := by
  unfold addrEnd
  split
  · exact BitVec.toNat_add address count
  · rfl

theorem placed_of_start {start : ℕ} (reached : blockStart windows address count inc = some start) :
    BlockPlaced windows address count inc ↔
      (windows.InMemory address count inc → count = 0 ∨ start = address.toNat) ∧
      (windows.InFifo address count inc → count = 0) ∧
      (windows.InMemory address count inc ∨ windows.InFifo address count inc) := by
  constructor
  · intro placed
    refine ⟨?_, fun inside => (placed.fifo inside).1, ?_⟩
    · intro inside
      obtain ⟨other, same, correct⟩ := placed.memory inside
      rw [reached, Option.some.injEq] at same
      rwa [same]
    · by_contra neither
      rw [not_or] at neither
      have refused := placed.outside neither.1 neither.2
      rw [reached] at refused
      cases refused
  · intro both
    rcases both with ⟨memory, fifo, area⟩
    constructor
    · intro inside
      exact ⟨start, reached, memory inside⟩
    · intro inside
      exact ⟨fifo inside, start, reached⟩
    · intro notMemory notFifo
      exact absurd area (not_or.mpr ⟨notMemory, notFifo⟩)

theorem placed_of_refused (refused : blockStart windows address count inc = none) :
    BlockPlaced windows address count inc ↔
      ¬windows.InMemory address count inc ∧ ¬windows.InFifo address count inc := by
  constructor
  · intro placed
    constructor
    · intro inside
      obtain ⟨start, reached, -⟩ := placed.memory inside
      rw [refused] at reached
      cases reached
    · intro inside
      obtain ⟨-, start, reached⟩ := placed.fifo inside
      rw [refused] at reached
      cases reached
  · intro neither
    constructor
    · exact fun inside => absurd inside neither.1
    · exact fun inside => absurd inside neither.2
    · exact fun _ _ => refused

theorem block_placed_iff :
    BlockPlaced windows address count inc ↔ BlockServed windows address count inc := by
  have memBound := windows.memSize.isLt
  have fifoBound := windows.fifoSize.isLt
  have addressBound := address.isLt
  have countBound := count.isLt
  have empty : count = 0 ↔ count.toNat = 0 := BitVec.toNat_eq
  have total : (windows.memSize + windows.fifoSize).toNat =
      (windows.memSize.toNat + windows.fifoSize.toNat) % 2 ^ 32 := BitVec.toNat_add _ _
  have behind := addr_end_toNat address count inc
  have reaches := @within_iff address count inc
  by_cases memory : address < windows.memSize ∧ addrEnd address count inc < windows.memSize
  · have reached : blockStart windows address count inc = some address.toNat := if_pos memory
    rw [placed_of_start reached]
    rw [BitVec.lt_def, BitVec.lt_def, behind] at memory
    unfold Windows.InMemory Windows.InFifo BlockServed
    simp only [reaches, length, empty]
    cases inc with
    | false =>
        simp only [Bool.false_eq_true, if_false, or_true, and_true, implies_true, true_and]
          at memory ⊢
        split <;> omega
    | true =>
        simp only [if_true, or_true, Bool.true_eq_false, implies_true, true_and, and_false,
          or_false] at memory ⊢
        split <;> omega
  · by_cases both : address < windows.memSize + windows.fifoSize ∧
        addrEnd address count inc < windows.memSize + windows.fifoSize
    · have reached : blockStart windows address count inc =
          some (address - windows.memSize).toNat := (if_neg memory).trans (if_pos both)
      have start : (address - windows.memSize).toNat =
          (2 ^ 32 - windows.memSize.toNat + address.toNat) % 2 ^ 32 := BitVec.toNat_sub _ _
      rw [placed_of_start reached, start]
      rw [BitVec.lt_def, BitVec.lt_def, behind] at memory
      rw [BitVec.lt_def, BitVec.lt_def, behind, total] at both
      unfold Windows.InMemory Windows.InFifo BlockServed
      simp only [reaches, length, empty]
      cases inc with
      | false =>
          simp only [Bool.false_eq_true, if_false, and_true] at memory both ⊢
          split <;> omega
      | true =>
          simp only [if_true, Bool.true_eq_false, and_false, or_false] at memory both ⊢
          split <;> omega
    · have refused : blockStart windows address count inc = none :=
        (if_neg memory).trans (if_neg both)
      rw [placed_of_refused refused]
      rw [BitVec.lt_def, BitVec.lt_def, behind] at memory
      rw [BitVec.lt_def, BitVec.lt_def, behind, total] at both
      unfold Windows.InMemory Windows.InFifo BlockServed
      simp only [reaches, length, empty]
      cases inc with
      | false =>
          simp only [Bool.false_eq_true, if_false, and_true] at memory both ⊢
          split <;> omega
      | true =>
          simp only [if_true, Bool.true_eq_false, and_false, or_false] at memory both ⊢
          split <;> omega

end Ranges

def advance (inc : Bool) (i : ℕ) : ℕ := if inc then i else 0

/-- `count` accesses, from `start` on or all at `start`. -/
def accesses {State : Type} (access : Place → ℕ → State → State) (window : Window) (start : ℕ)
    (count : U32) (inc : Bool) : State → State :=
  Bus.loop (fun i => access ⟨window, start + advance inc i⟩ i) count.toNat 0

section Served

variable {windows : Windows} {address count : U32} {inc : Bool} {State : Type}
  {view : State → List Place} {access : Place → ℕ → State → State} {state : State}
  {block memoryCalls fifoCalls : Option BoardException × State}

theorem accesses_same (one : ∀ place i state, view (access place i state) = view state ++ [place])
    {left right : Window} {start other : ℕ} (some_ : 0 < count.toNat)
    (same : accesses access left start count inc state =
      accesses access right other count inc state) : left = right ∧ start = other := by
  have seen := congrArg view same
  unfold accesses at seen
  have place := Bus.loop_same_start (fun i => ⟨left, start + advance inc i⟩)
    (fun i => ⟨right, other + advance inc i⟩) (fun i => one _ i) (fun i => one _ i) some_ seen
  have none_ : advance inc 0 = 0 := ite_self 0
  rw [none_, Place.mk.injEq] at place
  exact place

theorem body_returns {after : State}
    (body : block = match blockStart windows address count inc with
      | some start => (none, accesses access .mem start count inc state)
      | none => (some .addressOutOfRange, state))
    (same : block = (none, after)) : ∃ start, blockStart windows address count inc = some start ∧
      accesses access .mem start count inc state = after := by
  rw [same] at body
  cases reached : blockStart windows address count inc with
  | none =>
      rw [reached] at body
      cases congrArg Prod.fst body
  | some start =>
      rw [reached] at body
      exact ⟨start, rfl, (congrArg Prod.snd body).symm⟩

theorem served_as_iff
    (one : ∀ place i state, view (access place i state) = view state ++ [place])
    (body : block = match blockStart windows address count inc with
      | some start => (none, accesses access .mem start count inc state)
      | none => (some .addressOutOfRange, state))
    (memory : windows.InMemory address count inc →
      memoryCalls = (none, accesses access .mem address.toNat count inc state))
    (fifo : windows.InFifo address count inc → fifoCalls =
      (none, accesses access .fifo (address - windows.memSize).toNat count inc state)) :
    ServedAs windows address count inc block memoryCalls fifoCalls state ↔
      BlockPlaced windows address count inc := by
  have empty : count = 0 ↔ count.toNat = 0 := BitVec.toNat_eq
  constructor
  · intro served
    constructor
    · intro inside
      obtain ⟨start, reached, same⟩ :=
        body_returns body ((served.memory inside).trans (memory inside))
      refine ⟨start, reached, ?_⟩
      rcases Nat.eq_zero_or_pos count.toNat with none_ | some_
      · exact Or.inl (empty.mpr none_)
      · exact Or.inr (accesses_same one some_ same).2
    · intro inside
      obtain ⟨start, reached, same⟩ := body_returns body ((served.fifo inside).trans (fifo inside))
      refine ⟨?_, start, reached⟩
      rcases Nat.eq_zero_or_pos count.toNat with none_ | some_
      · exact empty.mpr none_
      · cases (accesses_same one some_ same).1
    · intro notMemory notFifo
      have same := served.outside notMemory notFifo
      rw [body] at same
      cases reached : blockStart windows address count inc with
      | none => rfl
      | some start =>
          rw [reached] at same
          cases congrArg Prod.fst same
  · intro placed
    have nothing : count = 0 → ∀ window start,
        accesses access window start count inc state = state := by
      intro none_ window start
      rw [accesses, empty.mp none_]
      rfl
    constructor
    · intro inside
      obtain ⟨start, reached, correct⟩ := placed.memory inside
      rw [body, memory inside, reached]
      rcases correct with none_ | rfl
      · simp only [nothing none_]
      · rfl
    · intro inside
      obtain ⟨none_, start, reached⟩ := placed.fifo inside
      rw [body, fifo inside, reached]
      simp only [nothing none_]
    · intro notMemory notFifo
      rw [body, placed.outside notMemory notFifo]

end Served

section Bodies

variable (board : BoardClass) (windows : Windows) (device : Device) (address : U32)
  (data : ℕ → U32) (count : U32) (inc : Bool)

theorem store_block_eq (start : ℕ) (history : History) :
    storeBlock start data count inc history =
      accesses (Bus.storeAt data) .mem start count inc history := by
  cases inc <;> rfl

theorem load_block_eq (start : ℕ) (reading : Reading) :
    loadBlock device start count inc reading =
      accesses (Bus.loadAt device) .mem start count inc reading := by
  cases inc <;> rfl

theorem write_block_eq (history : History) :
    board.writeBlock windows address data count inc history =
      match blockStart windows address count inc with
      | some start => (none, accesses (Bus.storeAt data) .mem start count inc history)
      | none => (some .addressOutOfRange, history) := by
  have body : board.writeBlock windows address data count inc history =
      writeBlockBody windows address data count inc history := by
    cases board <;> rfl
  rw [body]
  unfold writeBlockBody blockStart
  simp only [store_block_eq]
  split
  · rfl
  · split <;> rfl

theorem read_block_eq (reading : Reading) :
    board.readBlock windows device address count inc reading =
      match blockStart windows address count inc with
      | some start => (none, accesses (Bus.loadAt device) .mem start count inc reading)
      | none => (some .addressOutOfRange, reading) := by
  have body : board.readBlock windows device address count inc reading =
      readBlockBody windows device address count inc reading := by
    cases board <;> rfl
  rw [body]
  unfold readBlockBody blockStart
  simp only [load_block_eq]
  split
  · rfl
  · split <;> rfl

end Bodies

section Singles

variable {size address count : U32} {inc : Bool}

/-- The addresses of the single calls do not wrap inside of an area. -/
theorem single_address_inside (inside : TouchesWithin address count inc 0 size.toNat) {i : ℕ}
    (below : i < count.toNat) :
    (singleAddress address inc i).toNat = address.toNat + advance inc i ∧
      singleAddress address inc i < size := by
  have sizeBound := size.isLt
  have countBound := count.isLt
  rw [within_iff] at inside
  have exact_ : (singleAddress address inc i).toNat = address.toNat + advance inc i := by
    unfold singleAddress advance
    cases inc with
    | false => rfl
    | true =>
        simp only [length, if_true] at inside ⊢
        rw [BitVec.toNat_add, BitVec.toNat_ofNat, Nat.mod_eq_of_lt (by omega : i < 2 ^ 32)]
        apply Nat.mod_eq_of_lt
        omega
  refine ⟨exact_, ?_⟩
  rw [BitVec.lt_def, exact_]
  unfold advance
  cases inc with
  | false =>
      simp only [length, Bool.false_eq_true, if_false] at inside ⊢
      omega
  | true =>
      simp only [length, if_true] at inside ⊢
      omega

theorem single_writes_inside (window : Window) (data : ℕ → U32) (history : History)
    (inside : TouchesWithin address count inc 0 size.toNat) :
    singleWrites (storeWord window size) address data count inc history =
      (none, accesses (Bus.storeAt data) window address.toNat count inc history) := by
  apply Bus.repeat_call_loop
  intro i _ below history
  rw [Nat.zero_add] at below
  obtain ⟨exact_, bound⟩ := single_address_inside inside below
  rw [store_word_inside window bound, exact_]
  rfl

theorem single_reads_inside (device : Device) (window : Window) (reading : Reading)
    (inside : TouchesWithin address count inc 0 size.toNat) :
    singleReads (loadWord device window size) address count inc reading =
      (none, accesses (Bus.loadAt device) window address.toNat count inc reading) := by
  apply Bus.repeat_call_loop
  intro i _ below reading
  rw [Nat.zero_add] at below
  obtain ⟨exact_, bound⟩ := single_address_inside inside below
  rw [read_into_inside device window bound, exact_]

end Singles

/-- Counted from its own start, a block in the FIFO lies in the area of the FIFO. -/
theorem fifo_within {windows : Windows} {address count : U32} {inc : Bool}
    (inside : windows.InFifo address count inc) :
    TouchesWithin (address - windows.memSize) count inc 0 windows.fifoSize.toNat := by
  unfold Windows.InFifo at inside
  rw [within_iff] at inside ⊢
  rcases inside with none_ | bounds
  · exact Or.inl none_
  · right
    rw [BitVec.toNat_sub_of_le (BitVec.le_def.mpr bounds.1)]
    omega

/-- Blocks are served as single calls exactly under the condition on their ends. -/
theorem block_access_exact_iff (board : BoardClass) (windows : Windows) (device : Device)
    (address : U32) (data : ℕ → U32) (count : U32) (inc : Bool) (history : History) :
    (WriteExact board windows address data count inc history ↔
      BlockServed windows address count inc) ∧
    (ReadExact board windows device address data count inc history ↔
      BlockServed windows address count inc) := by
  rw [← block_placed_iff]
  constructor
  · apply served_as_iff (Bus.store_at_places data)
    · exact write_block_eq board windows address data count inc history
    · intro inside
      cases board with
      | abb => exact single_writes_inside .mem data history inside
      | ml605 => exact single_writes_inside .mem data history inside
    · intro inside
      cases board with
      | abb => exact single_writes_inside .fifo data history (fifo_within inside)
      | ml605 => exact single_writes_inside .fifo data history (fifo_within inside)
  · apply served_as_iff (Bus.load_at_places device)
    · exact read_block_eq board windows device address count inc ⟨data, history⟩
    · intro inside
      cases board with
      | abb => exact single_reads_inside device .mem _ inside
      | ml605 => exact single_reads_inside device .mem _ inside
    · intro inside
      cases board with
      | abb => exact single_reads_inside device .fifo _ (fifo_within inside)
      | ml605 => exact single_reads_inside device .fifo _ (fifo_within inside)

def smallWindows : Windows := ⟨8, 4, 16⟩

/-- The last word of the memory is written in a block of one: the end is not below the size,
so that the block counts as one of the FIFO, and goes far past the memory. -/
theorem last_word_goes_astray :
    ¬WriteExact .abb smallWindows 7 (fun _ => 5) 1 true [] ∧
    smallWindows.InMemory 7 1 true ∧
    BoardClass.abb.writeBlock smallWindows 7 (fun _ => 5) 1 true [] =
      (none, [.store ⟨.mem, 2 ^ 32 - 1⟩ 5]) := by
  have last : BoardClass.abb.writeBlock smallWindows 7 (fun _ => 5) 1 true [] =
      (none, [.store ⟨.mem, 2 ^ 32 - 1⟩ 5]) := by decide
  have inside : smallWindows.InMemory 7 1 true := within_iff.mpr (by decide)
  refine ⟨?_, inside, last⟩
  intro exact_
  have same := exact_.memory inside
  rw [last] at same
  exact absurd same (by decide)

end FpgaPcie.Mprace
