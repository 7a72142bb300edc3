import FpgaPcie.Mprace.CopyRuns

/-!
# Through the board and back

On a board of memory, what one buffer has sent can be read into another one, of any kind and on
any pages, as long as nothing else is written in between. Both ends see the bytes in the order of
the program's arrays.
-/

namespace FpgaPcie.Mprace

open FpgaPcie.Scatter FpgaPcie.Transition FpgaPcie.Refinement

set_option autoImplicit false

/-- Memory: what is fetched was stored there, and fetching changes nothing. -/
structure Mirrors {Board : Type} (side : BoardSide Board) : Prop where
  stored : ∀ place bytes board, place.inc = true →
    (side.fetch place bytes.length (side.store place bytes board)).1 = bytes
  kept : ∀ place count board, (side.fetch place count board).2 = board

theorem memory_board_mirrors : Mirrors memoryBoard := by
  constructor
  · intro place bytes board inc
    let addresses := (List.range bytes.length).map fun index =>
      (place.bar, place.address.toNat + if place.inc then index else index % 4)
    have length : addresses.length = bytes.length := by simp [addresses]
    have distinct : addresses.Nodup := by
      apply List.Nodup.map _ List.nodup_range
      intro left right same
      simpa [inc] using same
    apply List.ext_getElem
    · exact memoryBoard.fetch_length _ _ _
    · intro index bound within
      have paired : index < (addresses.zip bytes).length := by
        rw [List.length_zip, length]
        omega
      have stored := List.getElem_mem paired
      rw [List.getElem_zip] at stored
      have pairs : ((addresses.zip bytes).map Prod.fst).Nodup := by
        rw [List.map_fst_zip length.le]
        exact distinct
      have held := Ram.contents_distinct pairs stored board
      simpa [memoryBoard, addresses] using held
  · intro place count board
    rfl

def Operation.KeepsBoard : Operation → Prop
  | .write _ _ => False
  | _ => True

section RoundTrip

variable {Board Time : Type} [Zero Time] [LT Time] [DecidableLT Time] {side : BoardSide Board}

theorem spec_keeps_board (mirrors : Mirrors side) {before after : Copies Board}
    {operation : Operation} (keeps : operation.KeepsBoard)
    (step : copySpec side before operation after) : after.board = before.board := by
  cases operation with
  | create b bytes => rw [step.2]
  | destroy b => rw [step]
  | poke b position bytes => rw [step]
  | write b request => exact keeps.elim
  | read b request =>
      obtain ⟨bytes, -, result⟩ := step
      rw [result]
      split
      · rfl
      · exact mirrors.kept _ _ _

theorem accepted_of_fits {bytes : List U8} {request : Request} (some_ : 0 < request.count.toNat)
    (fits : 4 * (request.offset.toNat + request.count.toNat) ≤ bytes.length) :
    ¬RefusedRequest bytes.length request := by
  unfold RefusedRequest
  omega

theorem trace_round_trip (mirrors : Mirrors side) {first second third fourth : Copies Board}
    {b c : BufId} {request other : Request} {sent kept : List U8}
    {middle : List Operation} (written : copySpec side first (.write b request) second)
    (between : Trace (copySpec side) second middle third)
    (quiet : ∀ operation ∈ middle, operation.KeepsBoard)
    (read : copySpec side third (.read c other) fourth)
    (source : first.contents b = some sent) (target : third.contents c = some kept)
    (place : other.place = request.place) (counts : other.count = request.count)
    (inc : request.inc = true) (some_ : 0 < request.count.toNat)
    (inside : 4 * (request.offset.toNat + request.count.toNat) ≤ sent.length)
    (insideBack : 4 * (other.offset.toNat + other.count.toNat) ≤ kept.length) :
    fourth.contents = Function.update third.contents c (some (splice kept
      (4 * other.offset.toNat) ((sent.drop (4 * request.offset.toNat)).take
        (4 * request.count.toNat)))) := by
  let stretch := (sent.drop (4 * request.offset.toNat)).take (4 * request.count.toNat)
  have length : stretch.length = 4 * request.count.toNat := by
    rw [List.length_take, List.length_drop]
    omega
  have stored : second.board = side.store request.place stretch first.board := by
    obtain ⟨bytes, found, rfl⟩ := written
    rw [source, Option.some.injEq] at found
    subst found
    rw [if_neg (accepted_of_fits some_ inside)]
  have same : third.board = second.board := by
    let Same := fun state : Copies Board => state.board = second.board
    have step : ∀ state operation next, operation.KeepsBoard → Same state →
        copySpec side state operation next → Same next := by
      intro state operation next keeps holds operates
      exact (spec_keeps_board mirrors keeps operates).trans holds
    exact between.keeps step quiet rfl
  obtain ⟨bytes, found, result⟩ := read
  rw [target, Option.some.injEq] at found
  subst found
  rw [if_neg (accepted_of_fits (by rw [counts]; exact some_) insideBack)] at result
  have mirrored := mirrors.stored request.place stretch first.board inc
  rw [length] at mirrored
  rw [result, place, counts, same, stored]
  simp only [mirrored, stretch]

/-- What one buffer has written to the board arrives in another one as it was when it was sent. -/
theorem board_round_trip (mirrors : Mirrors side) {start sender written holder reader : Machine Board}
    {front middle : List (CopyCall Time)} {b c : BufId} {request other : Request}
    {progress returned : ℕ → ℕ} {timeout later : Time} {env back : Environment Time}
    {fuel fuelBack : ℕ} {sent kept : List U8}
    (initial : (copySystem Time side).initial start)
    (soundFront : (copySystem Time side).Along (fun machine call => call.Sound machine) start front)
    (runFront : (copySystem Time side).runFrom start front = some sender)
    (soundWrite : CopyCall.Sound sender (.write b request progress timeout env fuel))
    (write : sender.write side b request progress timeout env fuel = some written)
    (soundMiddle : (copySystem Time side).Along (fun machine call => call.Sound machine) written
      middle)
    (runMiddle : (copySystem Time side).runFrom written middle = some holder)
    (quiet : ∀ call ∈ middle, call.operation.KeepsBoard)
    (soundRead : CopyCall.Sound holder (.read c other returned later back fuelBack))
    (read : holder.read side c other returned later back fuelBack = some reader)
    (source : sender.view.contents b = some sent) (target : holder.view.contents c = some kept)
    (place : other.place = request.place) (counts : other.count = request.count)
    (inc : request.inc = true) (some_ : 0 < request.count.toNat)
    (inside : 4 * (request.offset.toNat + request.count.toNat) ≤ sent.length)
    (insideBack : 4 * (other.offset.toNat + other.count.toNat) ≤ kept.length) :
    reader.view.contents = Function.update holder.view.contents c (some (splice kept
      (4 * other.offset.toNat) ((sent.drop (4 * request.offset.toNat)).take
        (4 * request.count.toNat)))) := by
  have refines : ∀ (state : Machine Board) (call : CopyCall Time) (after : Machine Board),
      state.Rested → call.Sound state → (copySystem Time side).step state call = some after →
        after.Rested ∧ copySpec side state.view call.operation after.view :=
    fun _ _ _ rested sound step => copy_step rested sound step
  have rested : start.Rested := by
    constructor
    · exact initial.1
    · intro b buf live
      rw [initial.2 b] at live
      cases live
  obtain ⟨restedSender, -⟩ := run_refines Machine.view CopyCall.operation Machine.Rested refines
    rested soundFront runFront
  obtain ⟨restedWritten, wrote⟩ := refines _ _ _ restedSender soundWrite write
  obtain ⟨restedHolder, between⟩ := run_refines Machine.view CopyCall.operation Machine.Rested
    refines restedWritten soundMiddle runMiddle
  obtain ⟨-, fetched⟩ := refines _ _ _ restedHolder soundRead read
  apply trace_round_trip mirrors wrote between _ fetched source target place counts inc some_ inside
    insideBack
  intro operation member
  obtain ⟨call, called, rfl⟩ := List.mem_map.mp member
  exact quiet call called

end RoundTrip

-- The buffer that is sent from is overwritten before the bytes are read back.

def contentsAfter (calls : List (CopyCall ℕ)) (b : BufId) : Option (List U8) :=
  ((copySystem ℕ memoryBoard).runFrom noBuffers calls).bind fun machine => machine.view.contents b

theorem board_round_trip_there_and_back : ∃ reader,
    (copySystem ℕ memoryBoard).runFrom noBuffers thereAndBack = some reader ∧
      reader.view.contents 1 = some [1, 2, 3, 4, 5, 6, 7, 8] := by
  have ends : ((copySystem ℕ memoryBoard).runFrom noBuffers thereAndBack).isSome = true := by
    decide +kernel
  have first : contentsAfter (thereAndBack.take 1) 0 = some [1, 2, 3, 4, 5, 6, 7, 8] := by
    decide +kernel
  have fourth : contentsAfter (thereAndBack.take 4) 1 = some [0, 0, 0, 0, 0, 0, 0, 0] := by
    decide +kernel
  obtain ⟨reader, run⟩ := Option.isSome_iff_exists.mp ends
  refine ⟨reader, run, ?_⟩
  have sound := there_and_back_sound
  obtain ⟨sender, create, later⟩ := System.run_from_cons run
  obtain ⟨written, write, afterWrite⟩ := System.run_from_cons later
  obtain ⟨middle, createToo, afterCreate⟩ := System.run_from_cons afterWrite
  obtain ⟨holder, poke, last⟩ := System.run_from_cons afterCreate
  obtain ⟨final, read, rest⟩ := System.run_from_cons last
  cases rest
  obtain ⟨soundCreate, soundLater⟩ := (System.along_cons create).mp sound
  obtain ⟨soundWrite, soundMiddle⟩ := (System.along_cons write).mp soundLater
  obtain ⟨soundCreateToo, soundPokes⟩ := (System.along_cons createToo).mp soundMiddle
  obtain ⟨soundPoke, soundReads⟩ := (System.along_cons poke).mp soundPokes
  simp only [contentsAfter, thereAndBack, List.take, System.runFrom, create, write, createToo,
    poke, Option.bind_some] at first fourth
  have middleRun : (copySystem ℕ memoryBoard).runFrom written
      ((thereAndBack.drop 2).take 2) = some holder := by
    simp only [thereAndBack, List.drop, List.take, System.runFrom, createToo, poke]
  have middleSound : (copySystem ℕ memoryBoard).Along (fun machine call => call.Sound machine)
      written ((thereAndBack.drop 2).take 2) :=
    (System.along_cons createToo).mpr ⟨soundCreateToo,
      (System.along_cons poke).mpr ⟨soundPoke, trivial⟩⟩
  have frontRun : (copySystem ℕ memoryBoard).runFrom noBuffers (thereAndBack.take 1) =
      some sender := by
    simp only [thereAndBack, List.take, System.runFrom, create]
  have quiet : ∀ call ∈ (thereAndBack.drop 2).take 2, call.operation.KeepsBoard := by
    simp [thereAndBack, CopyCall.operation, Operation.KeepsBoard]
  have frontSound : (copySystem ℕ memoryBoard).Along (fun machine call => call.Sound machine)
      noBuffers (thereAndBack.take 1) := (System.along_cons create).mpr ⟨soundCreate, trivial⟩
  have result := board_round_trip memory_board_mirrors ⟨fun _ => rfl, fun _ => rfl⟩
    frontSound frontRun soundWrite write middleSound
    middleRun quiet soundReads.1 read first fourth rfl rfl rfl (by decide) (by decide) (by decide)
  rw [result, Function.update_self]
  decide

end FpgaPcie.Mprace
