import FpgaPcie.Mprace.BlockAccess
import FpgaPcie.Mprace.BoardDma
import FpgaPcie.Mprace.CopyRuns

/-!
# Two ways to the memory of a board

Words written one by one, blocks of words and transfers of the engine reach the same memory: the
area behind the pointer `mem` is bar 1 of the engine. On a board of memory a block of words does
what a transfer of the same bytes to the same address does, and whole programs that mix both
behave as copies of bytes.
-/

namespace FpgaPcie.Mprace

open FpgaPcie.Transition FpgaPcie.Refinement

set_option autoImplicit false

abbrev ByteMemory := U32 × ℕ → U8

def Window.bar : Window → U32
  | .regs => 0
  | .mem => dmaMem
  | .fifo => dmaFifo

def wordOf (byte : ℕ → U8) : U32 :=
  BitVec.ofNat 32 ((byte 0).toNat + 2 ^ 8 * (byte 1).toNat + 2 ^ 16 * (byte 2).toNat +
    2 ^ 24 * (byte 3).toNat)

theorem word_byte (byte : ℕ → U8) {k : ℕ} (below : k < 4) :
    boardByte (fun _ => wordOf byte) k = byte k := by
  have first := (byte 0).isLt
  have second := (byte 1).isLt
  have third := (byte 2).isLt
  have fourth := (byte 3).isLt
  have cases_ : k = 0 ∨ k = 1 ∨ k = 2 ∨ k = 3 := by omega
  apply BitVec.eq_of_toNat_eq
  unfold boardByte wordOf
  rw [BitVec.toNat_setWidth, BitVec.toNat_ushiftRight, BitVec.toNat_ofNat,
    Nat.shiftRight_eq_div_pow, Nat.mod_eq_of_lt below]
  rcases cases_ with rfl | rfl | rfl | rfl <;>
    simp only [Nat.mul_zero, Nat.reduceMul, Nat.reducePow] <;> omega

def blockBytes (data : ℕ → U32) (count : ℕ) : List U8 := (List.range (4 * count)).map (boardByte data)

theorem block_bytes_length (data : ℕ → U32) (count : ℕ) :
    (blockBytes data count).length = 4 * count := by simp [blockBytes]

theorem board_byte_split (data : ℕ → U32) (index : ℕ) {k : ℕ} (below : k < 4) :
    boardByte data (4 * index + k) = boardByte (fun _ => data index) k := by
  have word : (4 * index + k) / 4 = index := by omega
  have byte : (4 * index + k) % 4 = k := by omega
  unfold boardByte
  rw [word, byte, Nat.mod_eq_of_lt below]

def storeBytes (access : Place × U32) : List (Ram.Store (U32 × ℕ) U8) :=
  (List.range 4).map fun k =>
    ((access.1.window.bar, 4 * access.1.index + k), boardByte (fun _ => access.2) k)

def memoryAfter (history : History) (memory : ByteMemory) : ByteMemory :=
  Ram.contents ((Bus.stored history).flatMap storeBytes) memory

def memoryDevice (memory : ByteMemory) : Device := fun history place =>
  wordOf fun k => memoryAfter history memory (place.window.bar, 4 * place.index + k)

theorem memory_after_load (device : Device) (place : Place) (history : History)
    (memory : ByteMemory) :
    memoryAfter (Bus.load device place history).2 memory = memoryAfter history memory := by
  unfold memoryAfter Bus.load
  rw [Bus.stored_append]
  simp [Bus.stored]

def blockPlace (address : U32) (inc : Bool) : BoardPlace := ⟨dmaMem, (address * 4).setWidth 64, inc⟩

theorem block_place_address {address : U32} (inc : Bool) (low : address.toNat < 2 ^ 30) :
    (blockPlace address inc).address.toNat = 4 * address.toNat := by
  have four : (4 : U32).toNat = 4 := rfl
  rw [blockPlace, BitVec.toNat_setWidth, BitVec.toNat_mul, four]
  omega

def byteAddress (start : ℕ) (inc : Bool) (index : ℕ) : U32 × ℕ :=
  (dmaMem, 4 * start + if inc then index else index % 4)

theorem range_four_succ (count : ℕ) : List.range (4 * (count + 1)) =
    List.range (4 * count) ++ (List.range 4).map fun k => 4 * count + k := by
  rw [show 4 * (count + 1) = 4 * count + 4 by omega, List.range_add]

theorem store_loop_bytes (data : ℕ → U32) (start count : ℕ) (inc : Bool) :
    ((List.range count).map fun i => ((⟨.mem, start + advance inc i⟩ : Place), data i)).flatMap
      storeBytes = (List.range (4 * count)).map fun index =>
        (byteAddress start inc index, boardByte data index) := by
  induction count with
  | zero => rfl
  | succ count ih =>
      have last : storeBytes ((⟨.mem, start + advance inc count⟩ : Place), data count) =
          (List.range 4).map fun k => (byteAddress start inc (4 * count + k),
            boardByte data (4 * count + k)) := by
        apply List.map_congr_left
        intro k member
        have below := List.mem_range.mp member
        have rest : (4 * count + k) % 4 = k := by omega
        rw [board_byte_split data count below]
        cases inc with
        | false => simp [byteAddress, advance, Window.bar, rest]
        | true =>
            have sum : 4 * (start + count) + k = 4 * start + (4 * count + k) := by omega
            simp [byteAddress, advance, Window.bar, sum]
      rw [List.range_succ, List.map_append, List.flatMap_append, ih, range_four_succ,
        List.map_append, List.map_map]
      have one : List.flatMap storeBytes
          (List.map (fun i => ((⟨.mem, start + advance inc i⟩ : Place), data i)) [count]) =
          storeBytes ((⟨.mem, start + advance inc count⟩ : Place), data count) :=
        List.append_nil _
      rw [one, last]
      rfl

theorem block_stored (data : ℕ → U32) (address count : U32) (inc : Bool) (memory : ByteMemory)
    (low : address.toNat < 2 ^ 30) :
    memoryAfter (accesses (Bus.storeAt data) .mem address.toNat count inc []) memory =
      memoryBoard.store (blockPlace address inc) (blockBytes data count.toNat) memory := by
  unfold memoryAfter accesses
  rw [Bus.stored_loop, ← List.range_eq_range', show Bus.stored ([] : History) = [] from rfl,
    List.nil_append, store_loop_bytes]
  unfold memoryBoard
  dsimp only
  rw [block_bytes_length, block_place_address inc low, blockBytes]
  rw [List.zip_map']
  rfl

/-- A loop of loads leaves the memory alone and fills its part of the array. -/
theorem load_loop (memory : ByteMemory) (place : ℕ → Place) (count start : ℕ) (reading : Reading)
    (clean : memoryAfter reading.history memory = memory) (i : ℕ) :
    (Bus.loop (fun i => Bus.loadAt (memoryDevice memory) (place i) i) count start reading).data i =
      if start ≤ i ∧ i < start + count then
        wordOf fun k => memory ((place i).window.bar, 4 * (place i).index + k)
      else reading.data i := by
  induction count generalizing start reading with
  | zero =>
      have none_ : ¬(start ≤ i ∧ i < start + 0) := by omega
      rw [if_neg none_]
      rfl
  | succ count ih =>
      have later : memoryAfter (Bus.loadAt (memoryDevice memory) (place start) start
          reading).history memory = memory :=
        (memory_after_load _ _ _ _).trans clean
      rw [Bus.loop, ih _ _ later]
      by_cases here : i = start
      · subst here
        have notLater : ¬(i + 1 ≤ i ∧ i < i + 1 + count) := by omega
        have now : i ≤ i ∧ i < i + (count + 1) := by omega
        have loaded : (Bus.loadAt (memoryDevice memory) (place i) i reading).data i =
            memoryDevice memory reading.history (place i) := Function.update_self _ _ _
        rw [if_neg notLater, if_pos now, loaded, memoryDevice, clean]
      · have same : (start + 1 ≤ i ∧ i < start + 1 + count) ↔
            (start ≤ i ∧ i < start + (count + 1)) := by omega
        have kept : (Bus.loadAt (memoryDevice memory) (place start) start reading).data i =
            reading.data i := Function.update_of_ne here _ _
        simp only [same, kept]

/-- The array after a block of loads holds what a transfer fetches. -/
theorem block_loaded (data : ℕ → U32) (address count : U32) (inc : Bool) (memory : ByteMemory)
    (low : address.toNat < 2 ^ 30) :
    blockBytes (accesses (Bus.loadAt (memoryDevice memory)) .mem address.toNat count inc
      ⟨data, []⟩).data count.toNat =
        (memoryBoard.fetch (blockPlace address inc) (4 * count.toNat) memory).1 := by
  apply List.map_congr_left
  intro index member
  have bound := List.mem_range.mp member
  have inside : 0 ≤ index / 4 ∧ index / 4 < 0 + count.toNat := by omega
  have split := board_byte_split (accesses (Bus.loadAt (memoryDevice memory)) .mem address.toNat
    count inc ⟨data, []⟩).data (index / 4) (Nat.mod_lt index (by decide))
  rw [Nat.div_add_mod] at split
  rw [split]
  unfold accesses
  rw [load_loop memory _ _ _ _ rfl, if_pos inside, word_byte _ (Nat.mod_lt index (by decide)),
    block_place_address inc low]
  congr 1
  cases inc with
  | false => rfl
  | true =>
      have sum : 4 * (address.toNat + index / 4) + index % 4 = 4 * address.toNat + index := by omega
      exact congrArg (Prod.mk dmaMem) sum

structure BoardProgram where
  machine : Machine ByteMemory
  data : ℕ → U32

/-- `buffer` stands for the calls that make, destroy and fill buffers. -/
inductive BoardStep (Time : Type) where
  | buffer (call : CopyCall Time)
  | set (i : ℕ) (value : U32)
  | write (address value : U32)
  | read (address : U32) (i : ℕ)
  | writeBlock (address count : U32) (inc : Bool)
  | readBlock (address count : U32) (inc : Bool)
  | writeDMA (b : BufId) (args : DmaArguments Time) (progress : ℕ → ℕ) (env : Environment Time)
      (fuel : ℕ)
  | readDMA (b : BufId) (args : DmaArguments Time) (progress : ℕ → ℕ) (env : Environment Time)
      (fuel : ℕ)

namespace BoardProgram

variable (board : BoardClass) (windows : Windows) (program : BoardProgram)

def stores (history : History) : BoardProgram :=
  { program with machine := { program.machine with
      board := memoryAfter history program.machine.board } }

variable {Time : Type} [Zero Time] [LT Time] [DecidableLT Time]

def step : BoardStep Time → Option BoardProgram
  | .buffer call => (program.machine.call memoryBoard call).map fun machine =>
      { program with machine := machine }
  | .set i value => some { program with data := Function.update program.data i value }
  | .write address value => some (program.stores (board.write windows address value []).2)
  | .read address i =>
      some { program with
        data := (Bus.readInto i (board.read windows (memoryDevice program.machine.board) address)
          ⟨program.data, []⟩).2.data }
  | .writeBlock address count inc =>
      some (program.stores (board.writeBlock windows address program.data count inc []).2)
  | .readBlock address count inc =>
      some { program with
        data := (board.readBlock windows (memoryDevice program.machine.board) address count inc
          ⟨program.data, []⟩).2.data }
  | .writeDMA b args progress env fuel =>
      match board.dma windows args .writeDMA with
      | .error _ => some program
      | .ok call => (program.machine.write memoryBoard b call.request progress call.timeout env
          fuel).map fun machine => { program with machine := machine }
  | .readDMA b args progress env fuel =>
      match board.dma windows args .readDMA with
      | .error _ => some program
      | .ok call => (program.machine.read memoryBoard b call.request progress call.timeout env
          fuel).map fun machine => { program with machine := machine }

end BoardProgram

section Programs

variable {Time : Type} [Zero Time] [LT Time] [DecidableLT Time]

variable (Time) in
def boardProgramSystem (board : BoardClass) (windows : Windows) :
    System BoardProgram (BoardStep Time) where
  initial program := (copySystem Time memoryBoard).initial program.machine
  step program step := program.step board windows step

structure BoardView where
  copies : Copies ByteMemory
  data : ℕ → U32

def BoardProgram.view (program : BoardProgram) : BoardView := ⟨program.machine.view, program.data⟩

def BoardView.stored (view : BoardView) (place : BoardPlace) (bytes : List U8) : BoardView :=
  { view with copies := { view.copies with
      board := memoryBoard.store place bytes view.copies.board } }

def BoardView.fetched (view : BoardView) (place : BoardPlace) (count : ℕ) : List U8 :=
  (memoryBoard.fetch place count view.copies.board).1

inductive BoardOperation where
  | buffer (operation : Operation)
  | set (i : ℕ) (value : U32)
  | write (address value : U32)
  | read (address : U32) (i : ℕ)
  | writeBlock (address count : U32) (inc : Bool)
  | readBlock (address count : U32) (inc : Bool)
  | writeDMA (b : BufId) (request : Request)
  | readDMA (b : BufId) (request : Request)

def BoardStep.operation : BoardStep Time → BoardOperation
  | .buffer call => .buffer call.operation
  | .set i value => .set i value
  | .write address value => .write address value
  | .read address i => .read address i
  | .writeBlock address count inc => .writeBlock address count inc
  | .readBlock address count inc => .readBlock address count inc
  | .writeDMA b args _ _ _ => .writeDMA b (args.request dmaMem)
  | .readDMA b args _ _ _ => .readDMA b (args.request dmaMem)

def InArea (windows : Windows) (address count : U32) (inc : Bool) : Prop :=
  address.toNat + (if inc then count.toNat else 0) < windows.memSize.toNat

instance (windows : Windows) (address count : U32) (inc : Bool) :
    Decidable (InArea windows address count inc) := Nat.decLt _ _

def HandedOn (board : BoardClass) (windows : Windows) (request : Request) : Prop :=
  request.addr.toNat < windows.memSize.toNat ∧
    ¬(board = .abb ∧ request.inc = true ∧ 8192 < request.count.toNat)

instance (board : BoardClass) (windows : Windows) (request : Request) :
    Decidable (HandedOn board windows request) := instDecidableAnd

/-- A block of words and a transfer store and fetch the same bytes at the same place. -/
def boardSpec (board : BoardClass) (windows : Windows) (before : BoardView)
    (operation : BoardOperation) (after : BoardView) : Prop :=
  match operation with
  | .buffer operation => copySpec memoryBoard before.copies operation after.copies ∧
      after.data = before.data
  | .set i value => after = { before with data := Function.update before.data i value }
  | .write address value => after =
      if address < windows.memSize then
        before.stored (blockPlace address true) (blockBytes (fun _ => value) 1)
      else before
  | .read address i =>
      if address < windows.memSize then
        ∃ word, blockBytes (fun _ => word) 1 = before.fetched (blockPlace address true) 4 ∧
          after = { before with data := Function.update before.data i word }
      else after = before
  | .writeBlock address count inc => after =
      if InArea windows address count inc then
        before.stored (blockPlace address inc) (blockBytes before.data count.toNat)
      else before
  | .readBlock address count inc =>
      if InArea windows address count inc then
        blockBytes after.data count.toNat =
          before.fetched (blockPlace address inc) (4 * count.toNat) ∧
        (∀ i, count.toNat ≤ i → after.data i = before.data i) ∧ after.copies = before.copies
      else after = before
  | .writeDMA b request =>
      if HandedOn board windows request then
        copySpec memoryBoard before.copies (.write b request) after.copies ∧
          after.data = before.data
      else after = before
  | .readDMA b request =>
      if HandedOn board windows request then
        copySpec memoryBoard before.copies (.read b request) after.copies ∧
          after.data = before.data
      else after = before

omit [Zero Time] [LT Time] [DecidableLT Time] in
/-- A transfer of the memory functions goes where a block of the same address goes. -/
theorem request_place (args : DmaArguments Time) :
    (args.request dmaMem).place = blockPlace args.address args.inc := by
  have bar : dmaMem &&& 7#32 = dmaMem := by decide
  unfold Request.place blockPlace
  rw [request_bar, bar]
  rfl

def CopyCall.Transfers : CopyCall Time → Prop
  | .write _ _ _ _ _ _ => True
  | .read _ _ _ _ _ _ => True
  | _ => False

/-- Blocks end before the last word of the memory or begin behind both areas; transfers wait. -/
def BoardStep.Sound (windows : Windows) (program : BoardProgram) : BoardStep Time → Prop
  | .buffer call => ¬call.Transfers ∧ call.Sound program.machine
  | .writeBlock address count inc => InArea windows address count inc ∨
      (windows.memSize.toNat + windows.fifoSize.toNat ≤ address.toNat)
  | .readBlock address count inc => InArea windows address count inc ∨
      (windows.memSize.toNat + windows.fifoSize.toNat ≤ address.toNat)
  | .writeDMA b args _ env _ => args.lock = true ∧ ∀ buf, program.machine.world.bufs b = some buf →
      Careful buf (args.request dmaMem) env
  | .readDMA b args _ env _ => args.lock = true ∧ ∀ buf, program.machine.world.bufs b = some buf →
      Careful buf (args.request dmaMem) env ∧ TailSafe buf (args.request dmaMem)
  | _ => True

end Programs

section Blocks

variable {board : BoardClass} {windows : Windows} {address count : U32} {inc : Bool}

theorem start_in_area (inside : InArea windows address count inc) :
    blockStart windows address count inc = some address.toNat := by
  have sizeBound := windows.memSize.isLt
  have end_ := addr_end_toNat address count inc
  have below : address < windows.memSize ∧ addrEnd address count inc < windows.memSize := by
    unfold InArea at inside
    rw [BitVec.lt_def, BitVec.lt_def, end_]
    cases inc with
    | false =>
        simp only [Bool.false_eq_true, if_false] at inside ⊢
        omega
    | true =>
        simp only [if_true] at inside ⊢
        rw [Nat.mod_eq_of_lt (by omega)]
        omega
  unfold blockStart
  rw [if_pos below]

theorem start_beyond (beyond : windows.memSize.toNat + windows.fifoSize.toNat ≤ address.toNat) :
    blockStart windows address count inc = none ∧ ¬InArea windows address count inc := by
  have addressBound := address.isLt
  have both : (windows.memSize + windows.fifoSize).toNat =
      windows.memSize.toNat + windows.fifoSize.toNat := by
    rw [BitVec.toNat_add]
    exact Nat.mod_eq_of_lt (by omega)
  constructor
  · unfold blockStart
    rw [if_neg, if_neg]
    · rw [BitVec.lt_def, both]
      omega
    · rw [BitVec.lt_def]
      omega
  · unfold InArea
    omega

end Blocks

section Steps

variable {board : BoardClass} {windows : Windows} {program after : BoardProgram}

theorem Machine.Rested.stores (rested : program.machine.Rested) (history : History) :
    (program.stores history).machine.Rested := ⟨rested.settled, rested.buffers⟩

theorem write_word_means (small : windows.memSize.toNat ≤ 2 ^ 30) (address value : U32) :
    boardSpec board windows program.view (.write address value)
      (program.stores (board.write windows address value []).2).view := by
  have word : board.write windows address value [] =
      storeWord .mem windows.memSize address value [] := by
    cases board <;> rfl
  rw [word]
  dsimp only [boardSpec]
  by_cases inside : address < windows.memSize
  · have low : address.toNat < 2 ^ 30 := by
      have below := BitVec.lt_def.mp inside
      omega
    rw [if_pos inside, store_word_inside .mem inside]
    have one := block_stored (fun _ => value) address 1 true program.machine.board low
    exact congrArg (fun memory => BoardView.mk ⟨program.machine.view.contents, memory⟩
      program.data) one
  · rw [if_neg inside, storeWord, if_pos (BitVec.not_lt.mp inside)]
    rfl

theorem write_block_means (small : windows.memSize.toNat ≤ 2 ^ 30) {address count : U32}
    {inc : Bool} (sound : InArea windows address count inc ∨
      windows.memSize.toNat + windows.fifoSize.toNat ≤ address.toNat) :
    boardSpec board windows program.view (.writeBlock address count inc)
      (program.stores (board.writeBlock windows address program.data count inc []).2).view := by
  dsimp only [boardSpec]
  rw [write_block_eq]
  rcases sound with inside | beyond
  · have low : address.toNat < 2 ^ 30 := by
      unfold InArea at inside
      omega
    rw [start_in_area inside, if_pos inside]
    have block := block_stored program.data address count inc program.machine.board low
    exact congrArg (fun memory => BoardView.mk ⟨program.machine.view.contents, memory⟩
      program.data) block
  · obtain ⟨refused, outside⟩ := start_beyond beyond
    rw [refused, if_neg (outside)]
    rfl

theorem read_word_means (small : windows.memSize.toNat ≤ 2 ^ 30) (address : U32) (i : ℕ) :
    boardSpec board windows program.view (.read address i) (BoardProgram.view { program with
      data := (Bus.readInto i (board.read windows (memoryDevice program.machine.board) address)
        ⟨program.data, []⟩).2.data }) := by
  have word : board.read windows (memoryDevice program.machine.board) address =
      loadWord (memoryDevice program.machine.board) .mem windows.memSize address := by
    cases board <;> rfl
  rw [word]
  dsimp only [boardSpec]
  by_cases inside : address < windows.memSize
  · have low : address.toNat < 2 ^ 30 := by
      have below := BitVec.lt_def.mp inside
      omega
    rw [if_pos inside, read_into_inside _ .mem inside]
    refine ⟨memoryDevice program.machine.board [] ⟨.mem, address.toNat⟩, ?_, rfl⟩
    have one := block_loaded program.data address 1 true program.machine.board low
    refine Eq.trans ?_ one
    apply List.map_congr_left
    intro index member
    have bound := List.mem_range.mp member
    have first : index / 4 = 0 := by omega
    unfold boardByte
    rw [first]
    rfl
  · rw [if_neg inside, Bus.readInto, loadWord, if_pos (BitVec.not_lt.mp inside)]

theorem read_block_means (small : windows.memSize.toNat ≤ 2 ^ 30) {address count : U32}
    {inc : Bool} (sound : InArea windows address count inc ∨
      windows.memSize.toNat + windows.fifoSize.toNat ≤ address.toNat) :
    boardSpec board windows program.view (.readBlock address count inc)
      (BoardProgram.view { program with
        data := (board.readBlock windows (memoryDevice program.machine.board) address count inc
          ⟨program.data, []⟩).2.data }) := by
  dsimp only [boardSpec]
  rw [read_block_eq]
  rcases sound with inside | beyond
  · have low : address.toNat < 2 ^ 30 := by
      unfold InArea at inside
      omega
    rw [start_in_area inside, if_pos inside]
    refine ⟨block_loaded program.data address count inc program.machine.board low, ?_, rfl⟩
    intro i outside
    have loop := load_loop program.machine.board (fun i => ⟨.mem, address.toNat + advance inc i⟩)
      count.toNat 0 ⟨program.data, []⟩ rfl i
    rw [if_neg (by omega)] at loop
    exact loop
  · obtain ⟨refused, outside⟩ := start_beyond beyond
    rw [refused, if_neg outside]

variable {Time : Type} [Zero Time] [LT Time] [DecidableLT Time]

omit [LT Time] [DecidableLT Time] in
/-- The memory functions hand a transfer on unless it begins outside, or is too long for `ABB`. -/
theorem handed_on_iff {function : DmaFunction} (memory : function.bar = dmaMem)
    {args : DmaArguments Time} : HandedOn board windows (args.request dmaMem) ↔
      board.dma windows args function = .ok (function.engineCall args) := by
  rw [dma_ok_iff, memory]
  unfold HandedOn
  simp only [request_addr, request_inc, request_count, windowSize, if_true, true_and, and_true]

/-- Every step keeps the machine at rest and means what the specification says. -/
theorem board_step (small : windows.memSize.toNat ≤ 2 ^ 30) {step : BoardStep Time}
    (rested : program.machine.Rested) (sound : step.Sound windows program)
    (stepped : program.step board windows step = some after) :
    after.machine.Rested ∧ boardSpec board windows program.view step.operation after.view := by
  cases step with
  | buffer call =>
      obtain ⟨machine, called, rfl⟩ := Option.map_eq_some_iff.mp stepped
      obtain ⟨restedAfter, means⟩ := copy_step rested sound.2 called
      exact ⟨restedAfter, means, rfl⟩
  | set i value =>
      cases stepped
      exact ⟨rested, rfl⟩
  | write address value =>
      cases stepped
      exact ⟨rested.stores _, write_word_means small address value⟩
  | read address i =>
      cases stepped
      exact ⟨rested, read_word_means small address i⟩
  | writeBlock address count inc =>
      cases stepped
      exact ⟨rested.stores _, write_block_means small sound⟩
  | readBlock address count inc =>
      cases stepped
      exact ⟨rested, read_block_means small sound⟩
  | writeDMA b args progress env fuel =>
      have handed := @handed_on_iff board windows _ _ .writeDMA rfl args
      dsimp only [BoardProgram.step] at stepped
      dsimp only [boardSpec, BoardStep.operation]
      cases called : board.dma windows args .writeDMA with
      | error exception =>
          rw [called] at handed stepped
          cases stepped
          rw [if_neg (by simp [handed])]
          exact ⟨rested, rfl⟩
      | ok call =>
          have same := (dma_ok_iff.mp called).2.2
          rw [called] at handed stepped
          subst same
          obtain ⟨machine, moves, rfl⟩ := Option.map_eq_some_iff.mp stepped
          obtain ⟨buf, live, -⟩ := Option.bind_eq_some_iff.mp moves
          obtain ⟨restedAfter, means⟩ := write_step rested live (sound.2 buf live) moves
          rw [if_pos (handed.mpr rfl)]
          exact ⟨restedAfter, means, rfl⟩
  | readDMA b args progress env fuel =>
      have handed := @handed_on_iff board windows _ _ .readDMA rfl args
      dsimp only [BoardProgram.step] at stepped
      dsimp only [boardSpec, BoardStep.operation]
      cases called : board.dma windows args .readDMA with
      | error exception =>
          rw [called] at handed stepped
          cases stepped
          rw [if_neg (by simp [handed])]
          exact ⟨rested, rfl⟩
      | ok call =>
          have same := (dma_ok_iff.mp called).2.2
          rw [called] at handed stepped
          subst same
          obtain ⟨machine, moves, rfl⟩ := Option.map_eq_some_iff.mp stepped
          obtain ⟨buf, live, -⟩ := Option.bind_eq_some_iff.mp moves
          obtain ⟨careful, tail⟩ := sound.2 buf live
          obtain ⟨restedAfter, means⟩ := read_step rested live careful tail moves
          rw [if_pos (handed.mpr rfl)]
          exact ⟨restedAfter, means, rfl⟩

theorem rested_start (start : (boardProgramSystem Time board windows).initial program) :
    program.machine.Rested := by
  constructor
  · exact start.1
  · intro b buf live
    rw [start.2 b] at live
    cases live

end Steps

def noProgram : BoardProgram := ⟨noBuffers, fun _ => 0⟩

theorem no_program : (boardProgramSystem ℕ .abb smallWindows).initial noProgram :=
  ⟨fun _ => rfl, fun _ => rfl⟩

def blockAndBuffer : List (BoardStep ℕ) := [
  .set 0 0x04030201#32,
  .set 1 0x08070605#32,
  .writeBlock 2 2 true,
  .buffer (.create 1 (.kernelPieces 0x9000#64 1) 8 [0x200#64] [0, 0, 0, 0, 0, 0, 0, 0]
    [0, 0, 0, 0, 0, 0, 0, 0])]

def twoWords : DmaArguments ℕ := ⟨2, 2, 0, true, true, 0⟩

def readBack : BoardStep ℕ := .readDMA 1 twoWords (fun instant => 8 * instant) (steadyBoard 0) 1

theorem block_and_buffer_sound : (boardProgramSystem ℕ .abb smallWindows).Along
    (fun program step => step.Sound smallWindows program) noProgram blockAndBuffer :=
  ⟨trivial, fun _ _ => ⟨trivial, fun _ _ => ⟨Or.inl (by decide), fun _ _ =>
    ⟨⟨fun transfers => transfers.elim, trivial, by decide, by decide, rfl, rfl⟩,
      fun _ _ => trivial⟩⟩⟩⟩

theorem read_back_sound {program : BoardProgram}
    (run : (boardProgramSystem ℕ .abb smallWindows).runFrom noProgram blockAndBuffer = some program) :
    readBack.Sound smallWindows program ∧
      program.view.copies.contents 1 = some [0, 0, 0, 0, 0, 0, 0, 0] := by
  have buffer : ((boardProgramSystem ℕ .abb smallWindows).runFrom noProgram blockAndBuffer).map
      (fun program => ((program.machine.world.bufs 1).map DMABuffer.size,
        program.view.copies.contents 1)) = some (some 8, some [0, 0, 0, 0, 0, 0, 0, 0]) := by
    decide +kernel
  rw [run, Option.map_some, Option.some.injEq, Prod.mk.injEq] at buffer
  refine ⟨⟨rfl, fun buf live => ⟨⟨by decide, fun _ => rfl, rfl⟩, ?_⟩⟩, buffer.2⟩
  have size := buffer.1
  rw [live, Option.map_some, Option.some.injEq] at size
  exact Or.inr (Or.inr (by rw [size]; decide))

theorem block_and_read_sound : (boardProgramSystem ℕ .abb smallWindows).Along
    (fun program step => step.Sound smallWindows program) noProgram
      (blockAndBuffer ++ [readBack]) := by
  refine ⟨trivial, fun first one => ⟨trivial, fun second two => ⟨Or.inl (by decide),
    fun third three => ⟨⟨fun transfers => transfers.elim, trivial, by decide, by decide, rfl, rfl⟩,
      fun program four => ⟨(read_back_sound ?_).1, fun _ _ => trivial⟩⟩⟩⟩⟩
  simp only [blockAndBuffer, System.runFrom, one, two, three, four]

section Runs

variable {board : BoardClass} {windows : Windows} {program after : BoardProgram}
variable {Time : Type} [Zero Time] [LT Time] [DecidableLT Time]

/-- Every run of a program that reaches the memory of its board both ways is a run of copies
between byte arrays, an array of words and one memory. -/
theorem board_programs_are_copies (small : windows.memSize.toNat ≤ 2 ^ 30)
    {steps : List (BoardStep Time)} (start : (boardProgramSystem Time board windows).initial program)
    (sound : (boardProgramSystem Time board windows).Along
      (fun program step => step.Sound windows program) program steps)
    (run : (boardProgramSystem Time board windows).runFrom program steps = some after) :
    Trace (boardSpec board windows) program.view (steps.map BoardStep.operation) after.view :=
  (run_refines BoardProgram.view BoardStep.operation (fun program => program.machine.Rested)
    (fun _ _ _ rested sound step => board_step small rested sound step) (rested_start start) sound
    run).2

theorem board_programs_are_copies_read_back : ∃ after,
    (boardProgramSystem ℕ .abb smallWindows).runFrom noProgram (blockAndBuffer ++ [readBack]) =
      some after ∧
    Trace (boardSpec .abb smallWindows) noProgram.view
      ((blockAndBuffer ++ [readBack]).map BoardStep.operation) after.view := by
  have ends : ((boardProgramSystem ℕ .abb smallWindows).runFrom noProgram
      (blockAndBuffer ++ [readBack])).isSome = true := by
    decide +kernel
  obtain ⟨after, run⟩ := Option.isSome_iff_exists.mp ends
  exact ⟨after, run, board_programs_are_copies (by decide) no_program block_and_read_sound run⟩

/-- Wherever a program is, a transfer stores what a block of the same words stores, and fetches what
a block of loads fetches. -/
theorem transfers_agree_with_blocks (small : windows.memSize.toNat ≤ 2 ^ 30)
    {first : BoardProgram} {steps : List (BoardStep Time)}
    (start : (boardProgramSystem Time board windows).initial first)
    (sound : (boardProgramSystem Time board windows).Along
      (fun program step => step.Sound windows program) first steps)
    (run : (boardProgramSystem Time board windows).runFrom first steps = some program)
    {b : BufId} {args : DmaArguments Time} {progress : ℕ → ℕ} {fuel : ℕ} {env : Environment Time}
    {bytes : List U8} (live : program.view.copies.contents b = some bytes)
    (accepted : ¬RefusedRequest bytes.length (args.request dmaMem))
    (handed : HandedOn board windows (args.request dmaMem))
    (inside : InArea windows args.address args.count args.inc) :
    (∀ written blockwise, BoardStep.Sound windows program (.writeDMA b args progress env fuel) →
      program.step board windows (.writeDMA b args progress env fuel) = some written →
      program.step board windows (.writeBlock args.address args.count args.inc :
        BoardStep Time) = some blockwise →
      (bytes.drop (4 * args.offset.toNat)).take (4 * args.count.toNat) =
        blockBytes program.data args.count.toNat →
      written.view.copies.board = blockwise.view.copies.board) ∧
    ∀ fetched blockwise, BoardStep.Sound windows program (.readDMA b args progress env fuel) →
      program.step board windows (.readDMA b args progress env fuel) = some fetched →
      program.step board windows (.readBlock args.address args.count args.inc :
        BoardStep Time) = some blockwise →
      ∃ final, fetched.view.copies.contents b = some final ∧
        (final.drop (4 * args.offset.toNat)).take (4 * args.count.toNat) =
          blockBytes blockwise.data args.count.toNat := by
  have rested : program.machine.Rested :=
    (run_refines BoardProgram.view BoardStep.operation (fun program => program.machine.Rested)
      (fun _ _ _ rested sound step => board_step small rested sound step) (rested_start start) sound
      run).1
  constructor
  · intro written blockwise soundDma dma block same
    have means := (board_step small rested soundDma dma).2
    have placed : BoardStep.Sound windows program
        (.writeBlock args.address args.count args.inc : BoardStep Time) := Or.inl inside
    have blocks := (board_step small rested placed block).2
    dsimp only [boardSpec, BoardStep.operation] at means blocks
    rw [if_pos handed] at means
    rw [if_pos inside] at blocks
    obtain ⟨sent, found, after⟩ := means.1
    rw [live, Option.some.injEq] at found
    subst found
    rw [if_neg accepted, request_place, request_offset, request_count, same] at after
    rw [after, blocks]
    rfl
  · intro fetched blockwise soundDma dma block
    have means := (board_step small rested soundDma dma).2
    have placed : BoardStep.Sound windows program
        (.readBlock args.address args.count args.inc : BoardStep Time) := Or.inl inside
    have blocks := (board_step small rested placed block).2
    dsimp only [boardSpec, BoardStep.operation] at means blocks
    rw [if_pos handed] at means
    rw [if_pos inside] at blocks
    obtain ⟨old, found, result⟩ := means.1
    rw [live, Option.some.injEq] at found
    subst found
    rw [if_neg accepted] at result
    have fits : 4 * args.offset.toNat + 4 * args.count.toNat ≤ bytes.length := by
      unfold RefusedRequest at accepted
      rw [request_offset, request_count] at accepted
      omega
    have full : (memoryBoard.fetch (blockPlace args.address args.inc) (4 * args.count.toNat)
        program.view.copies.board).1.length = 4 * args.count.toNat := memoryBoard.fetch_length _ _ _
    have arrived := @Scatter.splice_reads _ bytes _ (4 * args.offset.toNat) (full ▸ fits)
    rw [full] at arrived
    refine ⟨_, ?_, arrived.trans blocks.1.symm⟩
    rw [result, request_place, request_offset, request_count]
    exact Function.update_self _ _ _

theorem transfers_agree_with_blocks_two_words : ∃ program fetched blockwise final,
    (boardProgramSystem ℕ .abb smallWindows).runFrom noProgram blockAndBuffer = some program ∧
      program.step .abb smallWindows readBack = some fetched ∧
      program.step .abb smallWindows (.readBlock 2 2 true : BoardStep ℕ) = some blockwise ∧
      fetched.view.copies.contents 1 = some final ∧
      (final.drop 0).take 8 = blockBytes blockwise.data 2 := by
  have ends : (((boardProgramSystem ℕ .abb smallWindows).runFrom noProgram blockAndBuffer).bind
      fun program => (program.step .abb smallWindows readBack).bind fun _ =>
        program.step .abb smallWindows (.readBlock 2 2 true : BoardStep ℕ)).isSome = true := by
    decide +kernel
  obtain ⟨blockwise, both⟩ := Option.isSome_iff_exists.mp ends
  obtain ⟨program, run, later⟩ := Option.bind_eq_some_iff.mp both
  obtain ⟨fetched, dma, block⟩ := Option.bind_eq_some_iff.mp later
  obtain ⟨sound, live⟩ := read_back_sound run
  obtain ⟨final, found, same⟩ := (transfers_agree_with_blocks (by decide) no_program
    block_and_buffer_sound run live (by decide) (by decide) (by decide)).2 fetched
    blockwise sound dma block
  exact ⟨program, fetched, blockwise, final, run, dma, block, found, same⟩

end Runs

end FpgaPcie.Mprace
