import FpgaPcie.Mprace.FillDescriptorList
import FpgaPcie.Mprace.ProgramList

/-!
# A programmed chain names exactly the requested bytes

Walking from the channel registers through the edited list visits the cut-down
initial descriptor, the descriptors between and the cut-down last one. Their bus
addresses are then the requested stretch of the buffer's, by the two laws about
cutting segment lists.
-/

namespace FpgaPcie.Mprace

open FpgaPcie.Segments DMADescriptorWG

set_option autoImplicit false

theorem has_last_marked (word : U32) : hasLast (word ||| ctrlLast) = true := by
  have kept : (word ||| ctrlLast) &&& ctrlLast = ctrlLast := by
    ext bit
    simp only [BitVec.getElem_and, BitVec.getElem_or]
    cases ctrlLast[bit] <;> simp
  rw [hasLast, kept]
  decide

theorem has_last_or (left right : U32) (plainLeft : hasLast left = false)
    (plainRight : hasLast right = false) : hasLast (left ||| right) = false := by
  simp only [hasLast, bne_eq_false_iff_eq] at plainLeft plainRight ⊢
  exact flag_or left right ctrlLast plainLeft plainRight

theorem control_word_plain (oldRegisters useInterrupts : Bool) (request : Request) :
    hasLast (controlWord oldRegisters useInterrupts request) = false := by
  have bar : hasLast (ctrlBar request.bar) = false := by
    simp [hasLast, ctrl_bar_outside request.bar ctrlLast (by decide)]
  apply has_last_or
  · apply has_last_or
    · exact has_last_or _ _ (by decide) bar
    · cases request.inc <;> decide
  · cases oldRegisters && useInterrupts <;> decide

@[simp] theorem control_set_control32 (word : U32) (d : DMADescriptorWG) :
    (setControl32 word d).native.control = word := by
  simp [setControl32]

@[simp] theorem segment_set_control32 (word : U32) (d : DMADescriptorWG) :
    (setControl32 word d).native.segment = d.native.segment := rfl

@[simp] theorem next_set_control32 (word : U32) (d : DMADescriptorWG) :
    (setControl32 word d).getNextDescriptorAddress = d.getNextDescriptorAddress := rfl

theorem segment_eq (d : DMADescriptorWG) :
    d.native.segment = ⟨d.getHostAddress, d.native.length.toNat⟩ := rfl

theorem cast_block (block : U32) : ((block.toNat : ℕ) : U64) = block.setWidth 64 := by
  apply BitVec.eq_of_toNat_eq
  have bound := block.isLt
  simp only [BitVec.natCast_eq_ofNat, BitVec.toNat_ofNat, BitVec.toNat_setWidth]

theorem segment_moved (block : U32) (d : DMADescriptorWG) :
    (movedBy block d).native.segment =
      ⟨d.native.segment.address + (block.toNat : U64), d.native.length.toNat⟩ := by
  rw [segment_eq, movedBy, host_address_set, cast_block]
  rfl

theorem segment_closed (word count : U32) (d : DMADescriptorWG) :
    (closeWith word count d).native.segment = ⟨d.native.segment.address, count.toNat⟩ := by
  have length : (closeWith word count d).native.length = count := by
    simp [closeWith, setControl32]
  rw [segment_eq, length]
  rfl

theorem segment_shortened (block : U32) (d : DMADescriptorWG)
    (inside : block.toNat ≤ d.native.length.toNat) :
    (shortenedBy block d).native.segment =
      ⟨d.native.segment.address + (block.toNat : U64),
        d.native.length.toNat - block.toNat⟩ := by
  have room := room_toNat d block inside
  have bound := d.native.length.isLt
  have length : (shortenedBy block d).native.length.toNat =
      d.native.length.toNat - block.toNat := by
    simp only [shortenedBy, length_set_length, BitVec.toNat_setWidth, room]
    omega
  have address : (shortenedBy block d).getHostAddress =
      d.native.segment.address + (block.toNat : U64) := by
    rw [cast_block, shortenedBy, host_address_set_length, movedBy, host_address_set]
    rfl
  rw [segment_eq, length, address]

@[simp] theorem segments_mark_second (word : U32) (middle : List DMADescriptorWG) :
    segments (markSecond word middle) = segments middle := by
  cases middle with
  | nil => rfl
  | cons next rest => simp [markSecond]

theorem linked_mark_second (word : U32) (d : DMADescriptorWG) (middle after : List DMADescriptorWG)
    (linked : Linked (d :: (middle ++ after))) : Linked (d :: (markSecond word middle ++ after)) := by
  cases middle with
  | nil => exact linked
  | cons next rest =>
      simp only [markSecond, List.modify_zero_cons, List.cons_append] at linked ⊢
      constructor
      · exact linked.1
      · cases tail : rest ++ after with
        | nil => simpa [tail, Linked] using linked.2
        | cons other later =>
            have rest_ := linked.2
            rw [tail] at rest_
            exact rest_

theorem mark_second_plain (word : U32) (middle : List DMADescriptorWG)
    (plain : hasLast word = false) (cleared : ∀ d ∈ middle, d.native.control = 0) :
    ∀ d ∈ markSecond word middle, hasLast d.native.control = false := by
  intro d member
  have none_ : hasLast 0 = false := by decide
  cases middle with
  | nil => simp [markSecond] at member
  | cons next rest =>
      simp only [markSecond, List.modify_zero_cons, List.mem_cons] at member
      rcases member with rfl | later
      · simpa using plain
      · rw [cleared d (by simp [later])]
        exact none_

theorem register_copy_segment (word addr : U32) (alone : Bool) (d : DMADescriptorWG) :
    (registerCopy word addr alone (unset.assign d)).native.segment = d.native.segment := rfl

theorem register_copy_last (word addr : U32) (alone : Bool) (d : DMADescriptorWG)
    (plain : hasLast word = false) :
    hasLast (registerCopy word addr alone d).native.control = alone := by
  rw [registerCopy, control_set_control32]
  cases alone with
  | true => exact has_last_marked _
  | false => exact has_last_or _ _ (has_last_or _ _ plain (by decide)) (by decide)

theorem single_program_walk (word : U32) (buf : BufId) (request : Request)
    (before after : List DMADescriptorWG) (d : DMADescriptorWG) (block : U32)
    (plain : hasLast word = false) (list : List DMADescriptorWG) (fuel : ℕ) (enough : 0 < fuel) :
    walkChain list fuel (singleProgram word buf request before d after block).temp.native =
      some [⟨d.native.segment.address + (block.toNat : U64), byteCount request⟩] := by
  obtain ⟨fuel, rfl⟩ : ∃ smaller, fuel = smaller + 1 := ⟨fuel - 1, by omega⟩
  have last := register_copy_last word request.addr true
    (unset.assign (movedBy block (closeWith word (request.count * 4) d))) plain
  have segment : (movedBy block (closeWith word (request.count * 4) d)).native.segment =
      ⟨d.native.segment.address + (block.toNat : U64), byteCount request⟩ := by
    rw [segment_moved, ← segment_length, segment_closed]
    rfl
  simp only [singleProgram, walkChain, last, if_true, register_copy_segment, segment]

theorem spanning_program_walk (word : U32) (buf : BufId) (request : Request)
    (list before middle after : List DMADescriptorWG) (d last : DMADescriptorWG) (block rest : U32)
    (cut : SpanningCut request list before d middle last after block rest)
    (plain : hasLast word = false) (linked : Linked list)
    (cleared : ∀ d ∈ list, d.native.control = 0)
    (distinct : (list.map DMADescriptorWG.pa).Nodup) (fuel : ℕ) (enough : list.length ≤ fuel) :
    let programmed := spanningProgram word buf request before d middle last after block rest
    walkChain programmed.list fuel programmed.temp.native =
      some (⟨d.native.segment.address + (block.toNat : U64),
          d.native.length.toNat - block.toNat⟩ ::
        (segments middle ++ [⟨last.native.segment.address, rest.toNat⟩])) := by
  intro programmed
  have split := cut.split
  subst split
  have fromFirst : Linked (d :: (middle ++ last :: after)) := linked.suffix
  have chained : Chained programmed.temp.native
      (markSecond word middle ++ [closeWith word rest last]) := by
    apply chained_of_linked (markSecond word middle) after last (closeWith word rest last) d
      (linked_mark_second word d middle (last :: after) fromFirst)
    · rfl
    · exact register_copy_last word request.addr false _ plain
    · exact mark_second_plain word middle plain fun other member => cleared other (by simp [member])
    · rfl
    · rw [closeWith, control_set_control32]
      exact has_last_marked word
  have sameAddresses : (programmed.list.map DMADescriptorWG.pa).Nodup := by
    have same : programmed.list.map DMADescriptorWG.pa =
        (before ++ d :: (middle ++ last :: after)).map DMADescriptorWG.pa := by
      simp only [programmed, spanningProgram, List.map_append, List.map_cons, pas_mark_second]
      rfl
    rw [same]
    exact distinct
  have visited := walk_chain_visits programmed.list
    (markSecond word middle ++ [closeWith word rest last]) sameAddresses (by
      intro other member
      simp only [programmed, spanningProgram, List.mem_append, List.mem_cons,
        List.not_mem_nil, or_false] at member ⊢
      tauto) programmed.temp.native chained fuel (by
      simp only [List.length_append, List.length_cons, length_mark_second,
        List.length_nil] at enough ⊢
      omega)
  rw [visited]
  have first : programmed.temp.native.segment = ⟨d.native.segment.address + (block.toNat : U64),
      d.native.length.toNat - block.toNat⟩ := segment_shortened block d cut.inside
  rw [first, segments_append, segments_mark_second]
  simp only [segments_cons, segments_nil, segment_closed]

/-- The bus addresses of the bytes of the buffer a list describes, in order. -/
def busAddresses (list : List DMADescriptorWG) : List U64 := expandAll (segments list)

theorem single_cut_bytes (request : Request) (list before after : List DMADescriptorWG)
    (d : DMADescriptorWG) (block : U32) (cut : SingleCut request list before d after block) :
    expandAll [⟨d.native.segment.address + (block.toNat : U64), byteCount request⟩] =
      ((busAddresses list).drop (byteOffset request)).take (byteCount request) := by
  have fits := cut.fits
  have skipped := expand_all_drop (segments before) (segments after) d.native.segment block.toNat
    (by rw [segment_length]; omega)
  have inside : byteCount request ≤ d.native.segment.length - block.toNat := by
    rw [segment_length]
    omega
  rw [busAddresses, cut.split, segments_append, segments_cons, ← cut.start, skipped,
    List.take_append_of_le_length (by rw [expand_length]; exact inside), expand_take _ _ inside]
  simp

theorem spanning_cut_bytes (request : Request) (list before middle after : List DMADescriptorWG)
    (d last : DMADescriptorWG) (block rest : U32)
    (cut : SpanningCut request list before d middle last after block rest) :
    expandAll (⟨d.native.segment.address + (block.toNat : U64),
        d.native.length.toNat - block.toNat⟩ ::
      (segments middle ++ [⟨last.native.segment.address, rest.toNat⟩])) =
      ((busAddresses list).drop (byteOffset request)).take (byteCount request) := by
  let first : Segment U64 := ⟨d.native.segment.address + (block.toNat : U64),
    d.native.length.toNat - block.toNat⟩
  have count : byteCount request = totalLength (first :: segments middle) + rest.toNat := by
    rw [← cut.ends, total_length_cons]
  have skipped := expand_all_drop (segments before) (segments (middle ++ last :: after))
    d.native.segment block.toNat (by rw [segment_length]; exact cut.inside)
  have kept := expand_all_take (first :: segments middle) (segments after) last.native.segment
    rest.toNat (by rw [segment_length]; exact cut.fits)
  rw [List.cons_append] at kept
  rw [busAddresses, cut.split, segments_append, segments_cons, ← cut.start, skipped,
    segment_length, ← expand_all_cons, segments_append, segments_cons, count]
  rw [kept]
  simp [first]

theorem program_list_exact (word : U32) (buf : BufId) (size : U32) (request : Request)
    (list : List DMADescriptorWG) (filled : AsFilled list size)
    (distinct : (list.map DMADescriptorWG.pa).Nodup) (plain : hasLast word = false)
    (range : byteOffset request + byteCount request ≤ size.toNat) :
    ∃ programmed visited, programList word buf size request list = some programmed ∧
      (∀ fuel, list.length ≤ fuel →
        walkChain programmed.list fuel programmed.temp.native = some visited) ∧
      expandAll visited =
        ((busAddresses list).drop (byteOffset request)).take (byteCount request) := by
  rcases program_list_shape word buf size request list filled range with
    ⟨before, d, after, block, cut, programmed⟩ |
    ⟨before, d, middle, last, after, block, rest, cut, programmed⟩
  · refine ⟨_, _, programmed, ?_, single_cut_bytes request list before after d block cut⟩
    intro fuel enough
    have some_ : 0 < fuel := Nat.lt_of_lt_of_le (List.length_pos_iff.mpr filled.nonempty) enough
    exact single_program_walk word buf request before after d block plain _ fuel some_
  · refine ⟨_, _, programmed, ?_,
      spanning_cut_bytes request list before middle after d last block rest cut⟩
    intro fuel enough
    exact spanning_program_walk word buf request list before middle after d last block rest cut
      plain filled.linked filled.cleared distinct fuel enough

-- The range check lets wrapping sums through, so such requests reach the searches.
-- Past the end of the list nothing is sent; an end past it leaves a chain without
-- `CTRL_LAST`.

theorem modify_all {α : Type*} (holds : α → Prop) (list : List α) (index : ℕ) (edit : α → α)
    (before : ∀ item ∈ list, holds item) (kept : ∀ item, holds item → holds (edit item)) :
    ∀ item ∈ list.modify index edit, holds item := by
  intro item member
  obtain ⟨position, bound, rfl⟩ := List.mem_iff_getElem.mp member
  rw [List.getElem_modify]
  have old := before _ (List.getElem_mem (by simpa using bound))
  split
  · exact kept _ old
  · exact old

theorem walk_chain_open (list : List DMADescriptorWG) (fuel : ℕ) (current : Descriptor)
    (plain : hasLast current.control = false)
    (open_ : ∀ d ∈ list, hasLast d.native.control = false) :
    walkChain list fuel current = none := by
  induction fuel generalizing current with
  | zero => rfl
  | succ fuel ih =>
      simp only [walkChain, plain, Bool.false_eq_true, if_false]
      cases found : list.find? fun d => d.pa == current.nextBda with
      | none => rfl
      | some next => simp [ih next.native (open_ next (List.mem_of_find?_eq_some found))]

theorem find_init_descriptor_past (byteOffset : U32) (list : List DMADescriptorWG) (init : ℕ)
    (byteCount : U32) (past : byteCount.toNat + totalLength (segments list) < byteOffset.toNat) :
    findInitDescriptor byteOffset list init byteCount = (init + list.length, 0) := by
  induction list generalizing init byteCount with
  | nil => rfl
  | cons d rest ih =>
      simp only [segments_cons, total_length_cons, segment_length] at past
      have skip : byteCount.toNat + d.native.length.toNat < byteOffset.toNat := by omega
      have advanced := passed_word skip
      rw [findInitDescriptor, if_pos (passed_lt_iff.mpr skip), ih (init + 1) _ (by omega),
        List.length_cons]
      congr 1
      omega

theorem find_last_descriptor_past (init : ℕ) (block : U32) (list : List DMADescriptorWG)
    (last : ℕ) (byteCount : U32) (later : init < last)
    (past : totalLength (segments list) < byteCount.toNat) :
    ∃ rest, findLastDescriptor init block list last byteCount = ⟨last + list.length, rest, false⟩ := by
  induction list generalizing last byteCount with
  | nil => exact ⟨byteCount, rfl⟩
  | cons d rest ih =>
      have other : ¬last = init := by omega
      simp only [segments_cons, total_length_cons, segment_length] at past
      have exceeds : d.native.length.toNat < byteCount.toNat := by omega
      obtain ⟨notFits, remaining⟩ := count_exceeds (get_length_toNat d) exceeds
      obtain ⟨left, result⟩ := ih (last + 1) ((byteCount.setWidth 64 - d.getLength).setWidth 32)
        (by omega) (by omega)
      refine ⟨left, ?_⟩
      simp only [findLastDescriptor, if_neg other, if_neg notFits, result, List.length_cons]
      congr 1
      omega

theorem find_last_descriptor_over (init : ℕ) (block count : U32) (d : DMADescriptorWG)
    (after : List DMADescriptorWG) (inside : block.toNat ≤ d.native.length.toNat)
    (exceeds : d.native.length.toNat - block.toNat + totalLength (segments after) < count.toNat) :
    ∃ rest, findLastDescriptor init block (d :: after) init count =
      ⟨init + 1 + after.length, rest, false⟩ := by
  have short : d.native.length.toNat - block.toNat < count.toNat := by omega
  obtain ⟨notFits, remaining⟩ := count_exceeds (room_toNat d block inside) short
  obtain ⟨rest, result⟩ := find_last_descriptor_past init block after (init + 1)
    ((count.setWidth 64 - (d.getLength - block.setWidth 64)).setWidth 32) (by omega) (by omega)
  refine ⟨rest, ?_⟩
  simp only [findLastDescriptor, if_true, if_neg notFits, result]

/-- A chain that ends was programmed for a range inside the buffer. -/
theorem walkable_range (word : U32) (buf : BufId) (size : U32) (request : Request)
    (list : List DMADescriptorWG) (filled : AsFilled list size) (plain : hasLast word = false)
    {programmed : Programmed} (result : programList word buf size request list = some programmed)
    {fuel : ℕ} {visited : List (Segment U64)}
    (walk : walkChain programmed.list fuel programmed.temp.native = some visited) :
    byteOffset request + byteCount request ≤ size.toNat := by
  have covers := filled.covers
  have sizeBound := size.isLt
  by_contra exceeds
  have notWhole : ¬(request.offset = 0 ∧ request.count * 4 = size) := by
    intro both
    rcases both with ⟨start, all⟩
    have zero : byteOffset request = 0 := by simp [byteOffset, start]
    have count : byteCount request = size.toNat := by rw [byteCount, all]
    omega
  rw [programList, if_neg notWhole] at result
  by_cases inside : byteOffset request ≤ totalLength (segments list)
  · obtain ⟨before, d, after, block, rfl, start, position, within, -⟩ :=
      init_position_spec request list filled.nonempty inside (by omega)
    simp only [segments_cons, segments_append, total_length_cons, total_length_append,
      segment_length] at covers
    obtain ⟨rest, search⟩ := find_last_descriptor_over before.length block (request.count * 4) d
      after within (by simp only [byteCount] at exceeds; omega)
    have apart : before.length ≠ before.length + 1 + after.length := by omega
    simp only [programPartial, start, List.drop_left, search, Bool.false_eq_true, if_false,
      if_pos apart, beq_false_of_ne apart] at result
    split at result
    · cases result
    · cases result
      have open_ : ∀ other ∈ before ++ d :: after, hasLast other.native.control = false := by
        intro other member
        rw [filled.cleared other member]
        decide
      rw [walk_chain_open] at walk
      · cases walk
      · exact register_copy_last word request.addr false _ plain
      · let Open := fun other : DMADescriptorWG => hasLast other.native.control = false
        dsimp only
        refine modify_all Open _ _ _ ?_ fun _ holds => holds
        refine modify_all Open _ _ _ ?_ fun _ holds => holds
        split
        · apply modify_all Open _ _ _ open_
          intro other _
          simpa [Open] using plain
        · exact open_
  · have moved : request.offset ≠ 0 := by
      intro start
      simp [byteOffset, start] at inside
    have past : initPosition request list = (list.length, 0) := by
      rw [initPosition, if_pos moved, find_init_descriptor_past _ _ _ _ (by
        simp only [byteOffset] at inside
        simpa using inside), Nat.zero_add]
    simp only [programPartial, past, List.drop_length, findLastDescriptor, Bool.false_eq_true,
      if_false, Nat.not_lt.mpr (Nat.le_succ list.length), List.getElem?_length] at result
    cases result

/-- In exact arithmetic inside the buffer, the 32-bit products do not wrap. -/
theorem exact_range (request : Request) (size : U32)
    (range : 4 * (request.offset.toNat + request.count.toNat) ≤ size.toNat) :
    byteOffset request = 4 * request.offset.toNat ∧ byteCount request = 4 * request.count.toNat := by
  have bound := size.isLt
  have four : (4 : U32).toNat = 4 := rfl
  simp only [byteOffset, byteCount, BitVec.toNat_mul, four]
  omega

/-- The chain in the channel registers and in memory names the requested bytes, on
the fast path and on the partial path, whatever was in the registers before. -/
theorem send_descriptor_list_exact (engine : DMAEngineWG) (b : BufId) (buf : DMABuffer)
    (request : Request) (ch : Channel) (filled : AsFilled buf.descriptors buf.size)
    (distinct : (buf.descriptors.map DMADescriptorWG.pa).Nodup)
    (range : 4 * (request.offset.toNat + request.count.toNat) ≤ buf.size.toNat) :
    ∃ sent edited visited, engine.sendDescriptorList b buf request ch = some (sent, edited) ∧
      (∀ fuel, edited.descriptors.length ≤ fuel →
        walkChain edited.descriptors fuel (sent.channel ch) = some visited) ∧
      expandAll visited = ((busAddresses buf.descriptors).drop (4 * request.offset.toNat)).take
        (4 * request.count.toNat) := by
  obtain ⟨offset, count⟩ := exact_range request buf.size range
  obtain ⟨programmed, visited, result, walk, bytes⟩ :=
    program_list_exact (controlWord engine.oldRegisters engine.useInterrupts request) b buf.size
      request buf.descriptors filled distinct (control_word_plain _ _ _)
      (by rw [offset, count]; omega)
  have lengths : programmed.list.length = buf.descriptors.length :=
    program_list_length _ _ _ _ _ result
  refine ⟨_, _, visited, by rw [DMAEngineWG.sendDescriptorList, result], ?_, ?_⟩
  · intro fuel enough
    simp only [DMAEngineWG.write, Function.update_self]
    exact walk fuel (by simpa [lengths] using enough)
  · rw [bytes, offset, count]

def threePieces : DMABuffer where
  memory := .kernelPieces 0x10000#64 3
  size := 40
  descriptors := fillDescriptorList (.kernelPieces 0x10000#64 3) 40 [0x100#64, 0x140#64, 0x180#64]
  host := []
  bounce := []

theorem send_descriptor_list_exact_three_pieces :
    ∃ sent edited visited,
      (DMAEngineWG.construct false (fun _ => unset.native) 0).sendDescriptorList 7 threePieces
        ⟨1, 0x20, 5, 2, true⟩ 0 = some (sent, edited) ∧
      (∀ fuel, edited.descriptors.length ≤ fuel →
        walkChain edited.descriptors fuel (sent.channel 0) = some visited) ∧
      expandAll visited = ((busAddresses threePieces.descriptors).drop 8).take 20 :=
  send_descriptor_list_exact _ 7 threePieces ⟨1, 0x20, 5, 2, true⟩ 0
    (fill_descriptor_list_filled (.kernelPieces 0x10000#64 3) 40 [0x100#64, 0x140#64, 0x180#64]
      (show 0 < (3 : U32).toNat by decide) rfl)
    (by decide) (by decide)

end FpgaPcie.Mprace
