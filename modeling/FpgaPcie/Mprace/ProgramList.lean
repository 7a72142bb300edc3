import FpgaPcie.Mprace.DescriptorChain

/-!
# What programming a list does to it

The searches are described by where they stop: the list is cut at the initial
descriptor and, when the transfer spans several, at the last one. The edited list
is then written down in closed form, once for a transfer inside one descriptor
and once for a transfer over several, and everything later is read off from it.
-/

namespace FpgaPcie.Mprace

open FpgaPcie.Segments DMADescriptorWG

set_option autoImplicit false

section Words

variable {byteCount byteOffset : U32} {room : U64} {d : DMADescriptorWG}

theorem passed_toNat (byteCount : U32) (d : DMADescriptorWG) :
    (byteCount.setWidth 64 + d.getLength).toNat = byteCount.toNat + d.native.length.toNat := by
  have countBound := byteCount.isLt
  have lengthBound := d.native.length.isLt
  rw [BitVec.toNat_add, get_length_toNat, BitVec.toNat_setWidth]
  omega

theorem passed_lt_iff : byteCount.setWidth 64 + d.getLength < byteOffset.setWidth 64 ↔
    byteCount.toNat + d.native.length.toNat < byteOffset.toNat := by
  have offsetBound := byteOffset.isLt
  rw [BitVec.lt_def, passed_toNat, BitVec.toNat_setWidth]
  omega

theorem passed_word (skip : byteCount.toNat + d.native.length.toNat < byteOffset.toNat) :
    ((byteCount.setWidth 64 + d.getLength).setWidth 32).toNat =
      byteCount.toNat + d.native.length.toNat := by
  have offsetBound := byteOffset.isLt
  rw [BitVec.toNat_setWidth, passed_toNat]
  omega

theorem count_le_iff : byteCount.setWidth 64 ≤ room ↔ byteCount.toNat ≤ room.toNat := by
  have countBound := byteCount.isLt
  rw [BitVec.le_def, BitVec.toNat_setWidth]
  omega

theorem count_left (exceeds : ¬byteCount.toNat ≤ room.toNat) :
    ((byteCount.setWidth 64 - room).setWidth 32).toNat = byteCount.toNat - room.toNat := by
  have countBound := byteCount.isLt
  have wide : (byteCount.setWidth 64).toNat = byteCount.toNat := by
    rw [BitVec.toNat_setWidth]
    omega
  have below : room ≤ byteCount.setWidth 64 := by
    rw [BitVec.le_def, wide]
    omega
  rw [BitVec.toNat_setWidth, BitVec.toNat_sub_of_le below, wide]
  omega

/-- Where the count does not fit, all the room is taken from it. -/
theorem count_exceeds {length : ℕ} (holds : room.toNat = length)
    (exceeds : length < byteCount.toNat) :
    ¬byteCount.setWidth 64 ≤ room ∧
      ((byteCount.setWidth 64 - room).setWidth 32).toNat = byteCount.toNat - length := by
  have tooMuch : ¬byteCount.toNat ≤ room.toNat := by omega
  apply And.intro
  · exact fun fits => tooMuch (count_le_iff.mp fits)
  · rw [count_left tooMuch, holds]

theorem room_toNat (d : DMADescriptorWG) (block : U32)
    (inside : block.toNat ≤ d.native.length.toNat) :
    (d.getLength - block.setWidth 64).toNat = d.native.length.toNat - block.toNat := by
  have wide : (block.setWidth 64).toNat = block.toNat := by
    have blockBound := block.isLt
    rw [BitVec.toNat_setWidth]
    omega
  have below : block.setWidth 64 ≤ d.getLength := by
    rw [BitVec.le_def, get_length_toNat, wide]
    exact inside
  rw [BitVec.toNat_sub_of_le below, get_length_toNat, wide]

end Words

/-- `byteOffset` lies `block` bytes into `d`, with `before` skipped. A position on a
boundary belongs to the earlier descriptor, unless it is the very start. -/
theorem find_init_descriptor_spec (byteOffset : U32) (list : List DMADescriptorWG) (init : ℕ)
    (byteCount : U32) (nonempty : list ≠ [])
    (passed : byteCount.toNat ≤ byteOffset.toNat)
    (inside : byteOffset.toNat ≤ byteCount.toNat + totalLength (segments list))
    (bound : byteCount.toNat + totalLength (segments list) < 2 ^ 32) :
    ∃ before d after, list = before ++ d :: after ∧
      findInitDescriptor byteOffset list init byteCount =
        (init + before.length, BitVec.ofNat 32
          (byteOffset.toNat - byteCount.toNat - totalLength (segments before))) ∧
      byteCount.toNat + totalLength (segments before) ≤ byteOffset.toNat ∧
      byteOffset.toNat ≤
        byteCount.toNat + totalLength (segments before) + d.native.length.toNat ∧
      (before ≠ [] → byteCount.toNat + totalLength (segments before) < byteOffset.toNat) := by
  induction list generalizing init byteCount with
  | nil => exact absurd rfl nonempty
  | cons d rest ih =>
      simp only [segments_cons, total_length_cons, segment_length] at inside bound
      by_cases skip : byteCount.toNat + d.native.length.toNat < byteOffset.toNat
      · have nonemptyRest : rest ≠ [] := by
          intro same
          subst same
          simp at inside
          omega
        have advanced := passed_word skip
        obtain ⟨before, found, after, split, result, lower, upper, strict⟩ := ih (init + 1)
          ((byteCount.setWidth 64 + d.getLength).setWidth 32) nonemptyRest
          (by omega) (by omega) (by omega)
        rw [advanced] at lower upper strict
        refine ⟨d :: before, found, after, by simp [split], ?_, ?_, ?_, ?_⟩
        · rw [findInitDescriptor, if_pos (passed_lt_iff.mpr skip), result, advanced]
          simp only [List.length_cons, segments_cons, total_length_cons, segment_length]
          congr 1
          · omega
          · congr 1
            omega
        · simp only [segments_cons, total_length_cons, segment_length]
          omega
        · simp only [segments_cons, total_length_cons, segment_length]
          omega
        · intro _
          simp only [segments_cons, total_length_cons, segment_length]
          by_cases first : before = []
          · subst first
            simpa using skip
          · have := strict first
            omega
      · refine ⟨[], d, rest, rfl, ?_, by simpa using passed, by simpa using Nat.not_lt.mp skip,
          fun some_ => absurd rfl some_⟩
        rw [findInitDescriptor, if_neg (fun less => skip (passed_lt_iff.mp less))]
        congr 1
        apply BitVec.eq_of_toNat_eq
        rw [BitVec.toNat_sub_of_le (BitVec.le_def.mpr passed)]
        have offsetBound := byteOffset.isLt
        simp
        omega

/-- Past the initial descriptor the second loop is a plain search for the
descriptor in which the rest of the count ends. -/
theorem find_last_descriptor_later (init : ℕ) (block : U32) (list : List DMADescriptorWG)
    (last : ℕ) (byteCount : U32) (later : init < last) (nonempty : list ≠ [])
    (inside : byteCount.toNat ≤ totalLength (segments list)) :
    ∃ middle d after, list = middle ++ d :: after ∧
      totalLength (segments middle) ≤ byteCount.toNat ∧
      findLastDescriptor init block list last byteCount =
        ⟨last + middle.length,
          BitVec.ofNat 32 (byteCount.toNat - totalLength (segments middle)), true⟩ ∧
      byteCount.toNat - totalLength (segments middle) ≤ d.native.length.toNat := by
  induction list generalizing last byteCount with
  | nil => exact absurd rfl nonempty
  | cons d rest ih =>
      have other : ¬last = init := by omega
      simp only [segments_cons, total_length_cons, segment_length] at inside
      have test : byteCount.setWidth 64 ≤ d.getLength ↔
          byteCount.toNat ≤ d.native.length.toNat := by
        rw [count_le_iff, get_length_toNat]
      by_cases fits : byteCount.toNat ≤ d.native.length.toNat
      · refine ⟨[], d, rest, rfl, by simp, ?_, by simpa using fits⟩
        simp only [findLastDescriptor, if_neg other, if_pos (test.mpr fits)]
        simp
      · have nonemptyRest : rest ≠ [] := by
          intro same
          subst same
          simp at inside
          omega
        have remaining : ((byteCount.setWidth 64 - d.getLength).setWidth 32).toNat =
            byteCount.toNat - d.native.length.toNat := by
          rw [count_left, get_length_toNat]
          rwa [get_length_toNat]
        obtain ⟨middle, found, after, split, taken, result, upper⟩ := ih (last + 1)
          ((byteCount.setWidth 64 - d.getLength).setWidth 32) (by omega) nonemptyRest (by omega)
        rw [remaining] at taken upper
        refine ⟨d :: middle, found, after, by simp [split], ?_, ?_, ?_⟩
        · simp only [segments_cons, total_length_cons, segment_length]
          omega
        · simp only [findLastDescriptor, if_neg other, if_neg (fun less => fits (test.mp less)),
            result, remaining, segments_cons, total_length_cons, segment_length, List.length_cons]
          congr 1
          · omega
          · congr 1
            omega
        · simp only [segments_cons, total_length_cons, segment_length]
          omega

/-- A count that is not zero ends behind the start of a descriptor. -/
theorem find_last_descriptor_positive (init : ℕ) (block : U32) (list : List DMADescriptorWG)
    (last : ℕ) (byteCount : U32) (some_ : 0 < byteCount.toNat) :
    0 < (findLastDescriptor init block list last byteCount).byteCount.toNat := by
  induction list generalizing last byteCount with
  | nil => exact some_
  | cons d rest ih =>
      simp only [findLastDescriptor]
      generalize (if last = init then d.getLength - block.setWidth 64 else d.getLength) = room
      split
      · exact some_
      · rename_i exceeds
        rw [count_le_iff] at exceeds
        apply ih
        rw [count_left exceeds]
        omega

def movedBy (block : U32) (d : DMADescriptorWG) : DMADescriptorWG :=
  d.setHostAddress (d.getHostAddress + block.setWidth 64)

/-- The initial descriptor of a transfer that goes on in later ones. -/
def shortenedBy (block : U32) (d : DMADescriptorWG) : DMADescriptorWG :=
  (movedBy block d).setLength (d.getLength - block.setWidth 64)

/-- The second descriptor gets the control word the board copies to the others. -/
def markSecond (word : U32) (middle : List DMADescriptorWG) : List DMADescriptorWG :=
  middle.modify 0 (setControl32 word)

@[simp] theorem pa_set_control32 (word : U32) (d : DMADescriptorWG) :
    (setControl32 word d).pa = d.pa := rfl

@[simp] theorem pas_mark_second (word : U32) (middle : List DMADescriptorWG) :
    (markSecond word middle).map DMADescriptorWG.pa = middle.map DMADescriptorWG.pa := by
  cases middle with
  | nil => rfl
  | cons next rest => simp [markSecond]

@[simp] theorem length_mark_second (word : U32) (middle : List DMADescriptorWG) :
    (markSecond word middle).length = middle.length := by
  simp [markSecond]

def savedAt (buf : BufId) (init last : ℕ) (block length : U32) : SavedData where
  savedBuf := buf
  savedInitDescriptor := init
  savedLastDescriptor := last
  savedOffset := block
  savedLength := length

theorem get_length_setWidth (d : DMADescriptorWG) : d.getLength.setWidth 32 = d.native.length := by
  simp [getLength]

/-- All of the transfer lies in `d`. -/
def singleProgram (word : U32) (buf : BufId) (request : Request)
    (before : List DMADescriptorWG) (d : DMADescriptorWG) (after : List DMADescriptorWG)
    (block : U32) : Programmed :=
  let only := movedBy block (closeWith word (request.count * 4) d)
  { list := before ++ only :: after
    temp := registerCopy word request.addr true (unset.assign only)
    saved := some (savedAt buf before.length before.length block d.native.length) }

/-- The transfer starts in `d`, takes `middle` whole and ends `rest` bytes into `last`. -/
def spanningProgram (word : U32) (buf : BufId) (request : Request)
    (before : List DMADescriptorWG) (d : DMADescriptorWG) (middle : List DMADescriptorWG)
    (last : DMADescriptorWG) (after : List DMADescriptorWG) (block rest : U32) : Programmed :=
  let first := shortenedBy block d
  { list := before ++ first :: (markSecond word middle ++ closeWith word rest last :: after)
    temp := registerCopy word request.addr false (unset.assign first)
    saved := some (savedAt buf before.length (before.length + 1 + middle.length) block
      last.native.length) }

theorem program_partial_single (word : U32) (buf : BufId) (request : Request)
    (before after : List DMADescriptorWG) (d : DMADescriptorWG) (block : U32)
    (start : initPosition request (before ++ d :: after) = (before.length, block))
    (fits : (request.count * 4).setWidth 64 ≤ d.getLength - block.setWidth 64) :
    programPartial word buf request (before ++ d :: after) =
      some (singleProgram word buf request before d after block) := by
  have search : findLastDescriptor before.length block (d :: after) before.length
      (request.count * 4) = ⟨before.length, request.count * 4, true⟩ := by
    simp only [findLastDescriptor, if_pos fits, if_true]
  simp only [programPartial, start, List.drop_left, search, if_true, modify_at, getElem?_at,
    Nat.not_lt.mpr (Nat.le_succ before.length), if_false, ne_eq, not_true_eq_false,
    Option.map_some, get_length_setWidth, beq_self_eq_true]
  rfl

theorem program_partial_spanning (word : U32) (buf : BufId) (request : Request)
    (before middle after : List DMADescriptorWG) (d last : DMADescriptorWG) (block rest : U32)
    (start : initPosition request (before ++ d :: (middle ++ last :: after)) =
      (before.length, block))
    (search : findLastDescriptor before.length block (d :: (middle ++ last :: after))
      before.length (request.count * 4) = ⟨before.length + 1 + middle.length, rest, true⟩) :
    programPartial word buf request (before ++ d :: (middle ++ last :: after)) =
      some (spanningProgram word buf request before d middle last after block rest) := by
  have second : (if before.length + 1 < before.length + 1 + middle.length then
        (before ++ d :: (middle ++ closeWith word rest last :: after)).modify (before.length + 1)
          (setControl32 word)
      else before ++ d :: (middle ++ closeWith word rest last :: after)) =
      before ++ d :: (markSecond word middle ++ closeWith word rest last :: after) := by
    cases middle with
    | nil => simp [markSecond]
    | cons next middle =>
        rw [if_pos (by simp)]
        exact modify_past before [] (middle ++ closeWith word rest last :: after) d next _
  have apart : before.length ≠ before.length + 1 + middle.length := by omega
  simp only [programPartial, start, List.drop_left, search, if_true, modify_past, getElem?_past,
    second, modify_at, getElem?_at, if_pos apart, Option.map_some, get_length_setWidth,
    beq_false_of_ne apart]
  rfl

-- The fast path leaves what the partial path would: the last length and the end
-- of the list are written back unchanged.

theorem moved_by_zero (d : DMADescriptorWG) : movedBy 0 d = d := by
  simpa [movedBy] using set_host_address_same d

theorem close_with_own_length (word : U32) (d : DMADescriptorWG)
    (end_ : d.getNextDescriptorAddress = 0) :
    closeWith word d.native.length d = setControl32 (word ||| ctrlLast) d := by
  have unlinked := set_next_descriptor_address_same d
  rw [end_] at unlinked
  rw [closeWith, set_length_same, unlinked]

theorem shortened_by_zero (d : DMADescriptorWG) : shortenedBy 0 d = d := by
  rw [shortenedBy, moved_by_zero]
  simpa [getLength] using set_length_same d

theorem program_whole_single (word : U32) (buf : BufId) (request : Request) (d : DMADescriptorWG)
    (end_ : d.getNextDescriptorAddress = 0) (whole : request.count * 4 = d.native.length) :
    programWhole word buf request [d] = some (singleProgram word buf request [] d [] 0) := by
  simp only [singleProgram, whole, moved_by_zero, close_with_own_length word d end_]
  simp only [programWhole, List.length_singleton, Nat.sub_self, List.modify_zero_cons,
    show ¬2 < 1 by omega, if_false, List.getElem?_cons_zero, get_length_setWidth]
  rfl

theorem program_whole_spanning (word : U32) (buf : BufId) (request : Request)
    (middle : List DMADescriptorWG) (d last : DMADescriptorWG)
    (end_ : last.getNextDescriptorAddress = 0) :
    programWhole word buf request (d :: (middle ++ [last])) =
      some (spanningProgram word buf request [] d middle last [] 0 last.native.length) := by
  have second : (if 2 < (d :: (middle ++ [last])).length then
        (d :: (middle ++ [last])).modify 1 (setControl32 word)
      else d :: (middle ++ [last])) = d :: (markSecond word middle ++ [last]) := by
    cases middle with
    | nil => simp [markSecond]
    | cons next middle =>
        rw [if_pos (by simp)]
        rfl
  have marked : (d :: (markSecond word middle ++ [last])).modify
        ((d :: (middle ++ [last])).length - 1) (setControl32 (word ||| ctrlLast)) =
      d :: (markSecond word middle ++ [setControl32 (word ||| ctrlLast) last]) := by
    have index : (d :: (middle ++ [last])).length - 1 =
        ([] : List DMADescriptorWG).length + 1 + (markSecond word middle).length := by
      simp [markSecond]
      omega
    rw [index]
    exact modify_past [] (markSecond word middle) [] d last _
  have final : (d :: (markSecond word middle ++ [setControl32 (word ||| ctrlLast) last]))[
      (d :: (middle ++ [last])).length - 1]? = some (setControl32 (word ||| ctrlLast) last) := by
    simp [markSecond]
  have apart : ((d :: (middle ++ [last])).length == 1) = false := by simp
  simp only [programWhole, second, marked, final, List.getElem?_cons_zero, apart,
    spanningProgram, shortened_by_zero, close_with_own_length word last end_]
  simp [savedAt, setControl32, getLength, setControl, Nat.add_comm]

/-- The byte position at which the search starts, as the 32-bit product has it. -/
def byteOffset (request : Request) : ℕ := (request.offset * 4).toNat

def byteCount (request : Request) : ℕ := (request.count * 4).toNat

structure SingleCut (request : Request) (list before : List DMADescriptorWG)
    (d : DMADescriptorWG) (after : List DMADescriptorWG) (block : U32) : Prop where
  split : list = before ++ d :: after
  start : totalLength (segments before) + block.toNat = byteOffset request
  fits : block.toNat + byteCount request ≤ d.native.length.toNat

structure SpanningCut (request : Request) (list before : List DMADescriptorWG)
    (d : DMADescriptorWG) (middle : List DMADescriptorWG) (last : DMADescriptorWG)
    (after : List DMADescriptorWG) (block rest : U32) : Prop where
  split : list = before ++ d :: (middle ++ last :: after)
  start : totalLength (segments before) + block.toNat = byteOffset request
  inside : block.toNat ≤ d.native.length.toNat
  ends : d.native.length.toNat - block.toNat + totalLength (segments middle) + rest.toNat =
    byteCount request
  fits : rest.toNat ≤ last.native.length.toNat

theorem init_position_spec (request : Request) (list : List DMADescriptorWG)
    (nonempty : list ≠ []) (inside : byteOffset request ≤ totalLength (segments list))
    (bound : totalLength (segments list) < 2 ^ 32) :
    ∃ before d after block, list = before ++ d :: after ∧
      initPosition request list = (before.length, block) ∧
      totalLength (segments before) + block.toNat = byteOffset request ∧
      block.toNat ≤ d.native.length.toNat ∧ (before ≠ [] → 0 < block.toNat) := by
  by_cases zero : request.offset = 0
  · obtain ⟨d, rest, rfl⟩ := List.exists_cons_of_ne_nil nonempty
    exact ⟨[], d, rest, 0, rfl, by simp [initPosition, zero], by simp [byteOffset, zero], by simp,
      fun some_ => absurd rfl some_⟩
  · obtain ⟨before, d, after, split, result, lower, upper, strict⟩ :=
      find_init_descriptor_spec (request.offset * 4) list 0 0 nonempty (by simp)
        (by simpa [byteOffset] using inside) (by simpa using bound)
    have width := (request.offset * 4).isLt
    have none_ : (0 : U32).toNat = 0 := rfl
    rw [none_] at result lower upper strict
    refine ⟨before, d, after, BitVec.ofNat 32 ((request.offset * 4).toNat -
      totalLength (segments before)), split, ?_, ?_, ?_, ?_⟩
    · rw [initPosition, if_pos zero, result, Nat.zero_add, Nat.sub_zero]
    · simp only [BitVec.toNat_ofNat, byteOffset] at lower ⊢
      omega
    · simp only [BitVec.toNat_ofNat] at lower upper ⊢
      omega
    · intro some_
      have passed := strict some_
      simp only [BitVec.toNat_ofNat]
      omega

theorem find_last_descriptor_spanning (init : ℕ) (block count : U32) (d : DMADescriptorWG)
    (after : List DMADescriptorWG) (inside : block.toNat ≤ d.native.length.toNat)
    (exceeds : d.native.length.toNat - block.toNat < count.toNat)
    (range : count.toNat ≤ d.native.length.toNat - block.toNat + totalLength (segments after)) :
    ∃ middle last later rest, after = middle ++ last :: later ∧
      findLastDescriptor init block (d :: after) init count =
        ⟨init + 1 + middle.length, rest, true⟩ ∧
      d.native.length.toNat - block.toNat + totalLength (segments middle) + rest.toNat =
        count.toNat ∧
      rest.toNat ≤ last.native.length.toNat := by
  obtain ⟨notFits, remaining⟩ := count_exceeds (room_toNat d block inside) exceeds
  have nonempty : after ≠ [] := by
    intro same
    subst same
    simp at range
    omega
  obtain ⟨middle, last, later, split, taken, result, fits⟩ := find_last_descriptor_later init block
    after (init + 1) ((count.setWidth 64 - (d.getLength - block.setWidth 64)).setWidth 32)
    (by omega) nonempty (by rw [remaining]; omega)
  rw [remaining] at taken fits result
  refine ⟨middle, last, later, BitVec.ofNat 32 (count.toNat -
    (d.native.length.toNat - block.toNat) - totalLength (segments middle)), split, ?_, ?_, ?_⟩
  · simp only [findLastDescriptor, if_true, if_neg notFits, result]
  · simp only [BitVec.toNat_ofNat]
    omega
  · simp only [BitVec.toNat_ofNat]
    omega

/-- With where the two searches stop: behind the start of the initial descriptor, unless it
is the first, and behind the start of the last one, unless that is taken whole. -/
theorem program_list_cut (word : U32) (buf : BufId) (size : U32) (request : Request)
    (list : List DMADescriptorWG) (filled : AsFilled list size)
    (range : byteOffset request + byteCount request ≤ size.toNat) :
    (∃ before d after block, SingleCut request list before d after block ∧
      (before ≠ [] → 0 < block.toNat) ∧
      programList word buf size request list =
        some (singleProgram word buf request before d after block)) ∨
    (∃ before d middle last after block rest,
      SpanningCut request list before d middle last after block rest ∧
      (before ≠ [] → 0 < block.toNat) ∧ (rest = last.native.length ∨ 0 < rest.toNat) ∧
      programList word buf size request list =
        some (spanningProgram word buf request before d middle last after block rest)) := by
  have covers := filled.covers
  have sizeBound := size.isLt
  by_cases whole : request.offset = 0 ∧ request.count * 4 = size
  · have zero : byteOffset request = 0 := by simp [byteOffset, whole.1]
    have all : byteCount request = size.toNat := by rw [byteCount, whole.2]
    obtain ⟨d, rest, rfl⟩ := List.exists_cons_of_ne_nil filled.nonempty
    rcases List.eq_nil_or_concat rest with rfl | ⟨middle, last, rfl⟩
    · left
      simp only [segments_cons, segments_nil, total_length_cons, total_length_nil,
        segment_length] at covers
      refine ⟨[], d, [], 0, ⟨rfl, by simp [zero], by simp; omega⟩, fun some_ => absurd rfl some_,
        ?_⟩
      rw [programList, if_pos whole]
      apply program_whole_single word buf request d filled.linked
      rw [whole.2]
      exact BitVec.eq_of_toNat_eq (by omega)
    · right
      simp only [List.concat_eq_append] at filled covers ⊢
      simp only [segments_cons, segments_append, segments_nil, total_length_cons,
        total_length_append, total_length_nil, segment_length] at covers
      have end_ : Linked [last] := by
        apply Linked.suffix
        rw [List.cons_append]
        exact filled.linked
      refine ⟨[], d, middle, last, [], 0, last.native.length,
        ⟨rfl, by simp [zero], by simp, ?_, le_rfl⟩, fun some_ => absurd rfl some_, Or.inl rfl, ?_⟩
      · simp
        omega
      · rw [programList, if_pos whole]
        exact program_whole_spanning word buf request middle d last end_
  · obtain ⟨before, d, after, block, rfl, start, position, inside, strict⟩ :=
      init_position_spec request list filled.nonempty (by omega) (by omega)
    simp only [segments_cons, segments_append, total_length_cons, total_length_append,
      segment_length] at covers
    by_cases fits : byteCount request ≤ d.native.length.toNat - block.toNat
    · left
      have countBound := (request.count * 4).isLt
      refine ⟨before, d, after, block, ⟨rfl, position, by omega⟩, strict, ?_⟩
      rw [programList, if_neg whole]
      apply program_partial_single word buf request before after d block start
      rw [BitVec.le_def, room_toNat d block inside, BitVec.toNat_setWidth]
      simp only [byteCount] at fits
      omega
    · right
      obtain ⟨middle, last, later, rest, rfl, search, ends, upper⟩ :=
        find_last_descriptor_spanning before.length block (request.count * 4) d after inside
          (by simp only [byteCount] at fits; omega)
          (by simp only [byteCount] at range; omega)
      have positive := find_last_descriptor_positive before.length block
        (d :: (middle ++ last :: later)) before.length (request.count * 4)
        (by simp only [byteCount] at fits; omega)
      rw [search] at positive
      refine ⟨before, d, middle, last, later, block, rest,
        ⟨rfl, position, inside, ends, upper⟩, strict, Or.inr positive, ?_⟩
      rw [programList, if_neg whole]
      exact program_partial_spanning word buf request before middle later d last block rest start
        search

theorem program_list_shape (word : U32) (buf : BufId) (size : U32) (request : Request)
    (list : List DMADescriptorWG) (filled : AsFilled list size)
    (range : byteOffset request + byteCount request ≤ size.toNat) :
    (∃ before d after block, SingleCut request list before d after block ∧
      programList word buf size request list =
        some (singleProgram word buf request before d after block)) ∨
    (∃ before d middle last after block rest,
      SpanningCut request list before d middle last after block rest ∧
      programList word buf size request list =
        some (spanningProgram word buf request before d middle last after block rest)) := by
  rcases program_list_cut word buf size request list filled range with
    ⟨before, d, after, block, cut, -, programmed⟩ |
    ⟨before, d, middle, last, after, block, rest, cut, -, -, programmed⟩
  · exact Or.inl ⟨before, d, after, block, cut, programmed⟩
  · exact Or.inr ⟨before, d, middle, last, after, block, rest, cut, programmed⟩

theorem map_modify_same {α β : Type*} (view : α → β) (list : List α) (index : ℕ) (edit : α → α)
    (same : ∀ item, view (edit item) = view item) :
    (list.modify index edit).map view = list.map view := by
  apply List.ext_getElem?
  intro position
  rw [List.getElem?_map, List.getElem?_map, modify_getElem?]
  cases list[position]? with
  | none => rfl
  | some item => simp only [Option.map_some, apply_ite view, same, ite_self]

/-- The bus addresses of the descriptors are those of the list memory. -/
theorem program_list_pas (word : U32) (buf : BufId) (size : U32) (request : Request)
    (list : List DMADescriptorWG) {programmed : Programmed}
    (result : programList word buf size request list = some programmed) :
    programmed.list.map DMADescriptorWG.pa = list.map DMADescriptorWG.pa := by
  have control : ∀ list index word, (List.modify list index (setControl32 word)).map
      DMADescriptorWG.pa = list.map DMADescriptorWG.pa :=
    fun list index _ => map_modify_same _ list index _ fun _ => rfl
  have close : ∀ list index word count, (List.modify list index (closeWith word count)).map
      DMADescriptorWG.pa = list.map DMADescriptorWG.pa :=
    fun list index _ _ => map_modify_same _ list index _ fun _ => rfl
  have host : ∀ list index address, (List.modify list index fun d => d.setHostAddress address).map
      DMADescriptorWG.pa = list.map DMADescriptorWG.pa :=
    fun list index _ => map_modify_same _ list index _ fun _ => rfl
  have length : ∀ list index value, (List.modify list index fun d => d.setLength value).map
      DMADescriptorWG.pa = list.map DMADescriptorWG.pa :=
    fun list index _ => map_modify_same _ list index _ fun _ => rfl
  unfold programList at result
  split at result
  · simp only [programWhole] at result
    split at result
    · cases result
      simp only [apply_ite (List.map DMADescriptorWG.pa), control, ite_self]
    · cases result
  · unfold programPartial at result
    simp only at result
    split at result
    · cases result
    · cases result
      simp only [apply_ite (List.map DMADescriptorWG.pa), control, close, host, length, ite_self]

theorem program_list_length (word : U32) (buf : BufId) (size : U32) (request : Request)
    (list : List DMADescriptorWG) {programmed : Programmed}
    (result : programList word buf size request list = some programmed) :
    programmed.list.length = list.length := by
  have same := congrArg List.length (program_list_pas word buf size request list result)
  rwa [List.length_map, List.length_map] at same

theorem program_list_temp (word : U32) (buf : BufId) (size : U32) (request : Request)
    (list : List DMADescriptorWG) {programmed : Programmed}
    (result : programList word buf size request list = some programmed) :
    ∃ (alone : Bool) (d : DMADescriptorWG),
      programmed.temp = registerCopy word request.addr alone d := by
  unfold programList at result
  split at result
  · simp only [programWhole] at result
    split at result
    · cases result
      exact ⟨_, _, rfl⟩
    · cases result
  · unfold programPartial at result
    simp only at result
    split at result
    · cases result
    · cases result
      exact ⟨_, _, rfl⟩

theorem program_list_control (word : U32) (buf : BufId) (size : U32) (request : Request)
    (list : List DMADescriptorWG) {programmed : Programmed}
    (result : programList word buf size request list = some programmed) :
    ∃ alone : Bool, programmed.temp.native.control =
      (word ||| ctrlUpa) ||| (if alone then ctrlLast else 0) := by
  obtain ⟨alone, d, copied⟩ := program_list_temp word buf size request list result
  rw [copied]
  exact ⟨alone, by simp [registerCopy, setControl32]⟩

/-- A record is only made of indices that were just used on the list. -/
theorem program_list_saved (word : U32) (buf : BufId) (size : U32) (request : Request)
    (list : List DMADescriptorWG) {programmed : Programmed}
    (result : programList word buf size request list = some programmed) {data : SavedData}
    (saved : programmed.saved = some data) :
    data.savedBuf = buf ∧ data.savedInitDescriptor < list.length ∧
      data.savedLastDescriptor < list.length := by
  unfold programList at result
  split at result
  · simp only [programWhole] at result
    split at result
    · rename_i last first lastFound firstFound
      cases result
      cases saved
      have lastBound := (List.getElem?_eq_some_iff.mp lastFound).1
      have firstBound := (List.getElem?_eq_some_iff.mp firstFound).1
      simp only [apply_ite List.length, List.length_modify, ite_self] at lastBound firstBound
      exact ⟨rfl, firstBound, lastBound⟩
    · cases result
  · simp only [programPartial] at result
    generalize initPosition request list = position at result
    generalize findLastDescriptor position.1 position.2 (list.drop position.1) position.1
      (request.count * 4) = search at result
    split at result
    · cases result
    · rename_i first firstFound
      cases result
      have firstBound := (List.getElem?_eq_some_iff.mp firstFound).1
      simp only [apply_ite List.length, List.length_modify, ite_self] at firstBound
      simp only at saved
      split at saved
      · obtain ⟨last, lastFound, rfl⟩ := Option.map_eq_some_iff.mp saved
        exact ⟨rfl, firstBound, (List.getElem?_eq_some_iff.mp lastFound).1⟩
      · cases saved

end FpgaPcie.Mprace
