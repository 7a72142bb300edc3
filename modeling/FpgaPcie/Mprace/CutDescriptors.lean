import FpgaPcie.Lib.LinkReader
import FpgaPcie.Mprace.PendingEdits
import FpgaPcie.Mprace.SendExact

/-!
# List edits as the engine reads them

The engine looks at three things in a descriptor: the host range, `CTRL_LAST`, and the
link to the next one. On any list, programming a transfer cuts ranges and sets ends, so
that an engine on its way through the list finds at most less than before, with one
exception: the control word for the second descriptor takes `CTRL_LAST` away if it was
there. Restoring widens ranges and takes ends away, in the descriptors its record names.
-/

namespace FpgaPcie.Mprace

open FpgaPcie.Segments FpgaPcie.LinkReader DMADescriptorWG

set_option autoImplicit false

def engineFormat : Format Descriptor U64 where
  stops d := hasLast d.control
  next := Descriptor.nextBda

/-- All that the range of a descriptor touches is among the given addresses. -/
def Within (requested : List U64) (d : Descriptor) : Prop :=
  ∀ address ∈ expand d.segment, address ∈ requested

/-- The engine finds at most less in `after` than in `before`. -/
structure CutFrom (before after : Descriptor) : Prop where
  inside : ∀ address ∈ expand after.segment, address ∈ expand before.segment
  leads : hasLast after.control = true ∨
    (hasLast before.control = false ∧ hasLast after.control = false ∧
      after.nextBda = before.nextBda)

theorem CutFrom.cuts {before after : Descriptor} (cut : CutFrom before after)
    (requested : List U64) : Cuts engineFormat (Within requested) before after where
  good := fun own address member => own address (cut.inside address member)
  leads := cut.leads

theorem cut_of_same {before after : Descriptor} (segment : after.segment = before.segment)
    (last : hasLast after.control = hasLast before.control)
    (next : after.nextBda = before.nextBda) : CutFrom before after where
  inside := by
    rw [segment]
    exact fun address member => member
  leads := by
    cases stops : hasLast before.control with
    | true => exact Or.inl (last.trans stops)
    | false => exact Or.inr ⟨rfl, last.trans stops, next⟩

/-- The offset never reaches past the descriptor the first loop stops at. -/
theorem find_init_descriptor_inside (byteOffset : U32) (list : List DMADescriptorWG) (init : ℕ)
    (byteCount : U32) (passed : byteCount.toNat ≤ byteOffset.toNat) :
    let found := findInitDescriptor byteOffset list init byteCount
    init ≤ found.1 ∧
      ∀ d, list[found.1 - init]? = some d → found.2.toNat ≤ d.native.length.toNat := by
  induction list generalizing init byteCount with
  | nil => simp [findInitDescriptor]
  | cons d rest ih =>
      by_cases skip : byteCount.setWidth 64 + d.getLength < byteOffset.setWidth 64
      · have less := passed_lt_iff.mp skip
        have advanced := passed_word less
        obtain ⟨later, inside⟩ := ih (init + 1)
          ((byteCount.setWidth 64 + d.getLength).setWidth 32) (by omega)
        simp only [findInitDescriptor, if_pos skip]
        refine ⟨by omega, fun other found => inside other ?_⟩
        rw [← found, ← List.getElem?_cons_succ]
        congr 1
        omega
      · have reached := Nat.not_lt.mp fun less => skip (passed_lt_iff.mpr less)
        simp only [findInitDescriptor, if_neg skip, Nat.sub_self, List.getElem?_cons_zero]
        refine ⟨le_rfl, fun other found => ?_⟩
        cases found
        rw [BitVec.toNat_sub_of_le (BitVec.le_def.mpr passed)]
        omega

theorem init_position_inside (request : Request) (list : List DMADescriptorWG)
    {d : DMADescriptorWG} (found : list[(initPosition request list).1]? = some d) :
    (initPosition request list).2.toNat ≤ d.native.length.toNat := by
  unfold initPosition at found ⊢
  split
  · rename_i moved
    rw [if_pos moved] at found
    exact (find_init_descriptor_inside (request.offset * 4) list 0 0 (Nat.zero_le _)).2 d found
  · exact Nat.zero_le _

/-- The second loop stops at a descriptor with room for the rest, or at the end. -/
theorem find_last_descriptor_stops (init : ℕ) (block : U32) (list : List DMADescriptorWG)
    (last : ℕ) (count : U32) :
    let search := findLastDescriptor init block list last count
    (search.fitsInDescriptor = true → last ≤ search.lastDescriptor ∧
      ∃ d, list[search.lastDescriptor - last]? = some d ∧
        search.byteCount.setWidth 64 ≤ if search.lastDescriptor = init then
          d.getLength - block.setWidth 64 else d.getLength) ∧
    (search.fitsInDescriptor = false → search.lastDescriptor = last + list.length) := by
  induction list generalizing last count with
  | nil => simp [findLastDescriptor]
  | cons d rest ih =>
      by_cases fits : count.setWidth 64 ≤
          if last = init then d.getLength - block.setWidth 64 else d.getLength
      · simp only [findLastDescriptor, if_pos fits]
        exact ⟨fun _ => ⟨le_rfl, d, by simp, fits⟩, fun unfit => by simp at unfit⟩
      · simp only [findLastDescriptor, if_neg fits]
        obtain ⟨fitting, past⟩ := ih (last + 1) _
        generalize findLastDescriptor init block rest (last + 1) _ = search at fitting past ⊢
        refine ⟨fun found => ?_, fun unfit => ?_⟩
        · obtain ⟨later, other, present, enough⟩ := fitting found
          have position : search.lastDescriptor - last =
              search.lastDescriptor - (last + 1) + 1 := by omega
          refine ⟨by omega, other, ?_, enough⟩
          rw [position, List.getElem?_cons_succ]
          exact present
        · rw [past unfit, List.length_cons]
          omega

theorem cut_closed (word count : U32) (d : DMADescriptorWG)
    (fits : count.toNat ≤ d.native.length.toNat) :
    CutFrom d.native (closeWith word count d).native where
  inside := by
    rw [segment_closed]
    have inside := @expand_inside _ _ d.native.segment.address 0 count.toNat _ (by simpa using fits)
    rw [Nat.cast_zero, add_zero] at inside
    exact inside
  leads := by
    rw [closeWith, control_set_control32]
    exact Or.inl (has_last_marked word)

theorem cut_closed_moved (word count block : U32) (d : DMADescriptorWG)
    (fits : block.toNat + count.toNat ≤ d.native.length.toNat) :
    CutFrom d.native (movedBy block (closeWith word count d)).native where
  inside := by
    have length : (closeWith word count d).native.length.toNat = count.toNat := by
      rw [← segment_length, segment_closed]
    rw [segment_moved, length, segment_closed]
    exact expand_inside d.native.segment.address fits
  leads := by
    rw [movedBy, control_set_host_address, closeWith, control_set_control32]
    exact Or.inl (has_last_marked word)

theorem cut_shortened (block : U32) (d : DMADescriptorWG)
    (inside : block.toNat ≤ d.native.length.toNat) :
    CutFrom d.native (shortenedBy block d).native where
  inside := by
    rw [segment_shortened block d inside]
    exact expand_inside d.native.segment.address (by omega)
  leads := by
    have control : (shortenedBy block d).native.control = d.native.control := rfl
    cases stops : hasLast d.native.control with
    | true => exact Or.inl (control ▸ stops)
    | false => exact Or.inr ⟨rfl, control ▸ stops, rfl⟩

theorem cut_marked (word : U32) (d : DMADescriptorWG) (plain : hasLast word = false)
    (goesOn : hasLast d.native.control = false) :
    CutFrom d.native (setControl32 word d).native := by
  apply cut_of_same (segment_set_control32 word d)
  · rw [control_set_control32, plain, goesOn]
  · rfl

/-- The descriptor that gets the control word the board copies to the others, when a
transfer goes on past it. -/
def secondDescriptor (request : Request) (size : U32) (list : List DMADescriptorWG) : Option ℕ :=
  if request.offset = 0 ∧ request.count * 4 = size then
    if 2 < list.length then some 1 else none
  else
    let (initDescriptor, blockOffset) := initPosition request list
    let search := findLastDescriptor initDescriptor blockOffset (list.drop initDescriptor)
      initDescriptor (request.count * 4)
    if initDescriptor + 1 < search.lastDescriptor then some (initDescriptor + 1) else none

theorem program_whole_cuts (word : U32) (buf : BufId) (request : Request)
    (list : List DMADescriptorWG) (plain : hasLast word = false) {programmed : Programmed}
    (result : programWhole word buf request list = some programmed) {index : ℕ}
    {d : DMADescriptorWG} (found : list[index]? = some d)
    (goesOn : 2 < list.length ∧ index = 1 → hasLast d.native.control = false) :
    ∃ e, programmed.list[index]? = some e ∧ e.pa = d.pa ∧ CutFrom d.native e.native := by
  have bound := (List.getElem?_eq_some_iff.mp found).1
  have last := List.getElem?_eq_getElem (show list.length - 1 < list.length by omega)
  obtain ⟨again, same, pointwise, -⟩ := program_whole_eq word buf request list _ last
  rw [same, Option.some.injEq] at result
  subst result
  refine ⟨markedAt word list.length index d, by rw [pointwise, found]; rfl,
    marked_at_pa word list.length index d, ?_⟩
  unfold markedAt
  by_cases final : index + 1 = list.length
  · have unmarked_ : ¬(2 < list.length ∧ index = 1) := by omega
    simp only [if_pos final, if_neg unmarked_]
    exact ⟨fun address member => member, Or.inl (by
      rw [control_set_control32]; exact has_last_marked word)⟩
  · simp only [if_neg final]
    split
    · rename_i second
      exact cut_marked word d plain (goesOn second)
    · exact cut_of_same rfl rfl rfl

/-- Behind the initial descriptor, one at most is closed and one at most marked. -/
theorem cut_closed_or_marked (word count : U32) (d : DMADescriptorWG) (plain : hasLast word = false)
    {closing marking : Prop} [Decidable closing] [Decidable marking]
    (room : closing → count.toNat ≤ d.native.length.toNat)
    (goesOn : marking → ¬closing ∧ hasLast d.native.control = false) :
    let closed := if closing then closeWith word count d else d
    let marked := if marking then setControl32 word closed else closed
    marked.pa = d.pa ∧ CutFrom d.native marked.native := by
  by_cases marks : marking
  · obtain ⟨unclosed, open_⟩ := goesOn marks
    simp only [if_pos marks, if_neg unclosed]
    exact ⟨rfl, cut_marked word d plain open_⟩
  · by_cases closes : closing
    · simp only [if_neg marks, if_pos closes]
      exact ⟨rfl, cut_closed word count d (room closes)⟩
    · simp only [if_neg marks, if_neg closes]
      exact ⟨trivial, cut_of_same rfl rfl rfl⟩

def lastSearch (request : Request) (list : List DMADescriptorWG) : LastSearch :=
  let (initDescriptor, blockOffset) := initPosition request list
  findLastDescriptor initDescriptor blockOffset (list.drop initDescriptor) initDescriptor
    (request.count * 4)

/-- What the partial path does to the descriptor at `index`. -/
def partialAt (word : U32) (init : ℕ) (block : U32) (search : LastSearch) (index : ℕ)
    (d : DMADescriptorWG) : DMADescriptorWG :=
  let closed := if search.fitsInDescriptor = true ∧ index = search.lastDescriptor then
      closeWith word search.byteCount d
    else d
  let second := if init + 1 < search.lastDescriptor ∧ index = init + 1 then
      setControl32 word closed
    else closed
  if index = init then
    if init = search.lastDescriptor then movedBy block second else shortenedBy block second
  else second

theorem program_partial_pointwise (word : U32) (buf : BufId) (request : Request)
    (list : List DMADescriptorWG) {programmed : Programmed}
    (result : programPartial word buf request list = some programmed) (index : ℕ) :
    programmed.list[index]? = list[index]?.map (partialAt word (initPosition request list).1
      (initPosition request list).2 (lastSearch request list) index) := by
  simp only [programPartial] at result
  simp only [lastSearch]
  generalize initPosition request list = position at result ⊢
  obtain ⟨init, block⟩ := position
  generalize findLastDescriptor init block (list.drop init) init (request.count * 4) = search
    at result ⊢
  obtain ⟨last, count, fits⟩ := search
  simp only at result ⊢
  -- the list as it is when the initial descriptor is read
  have edited : ∀ place, (if init + 1 < last then
        (if fits = true then list.modify last (closeWith word count) else list).modify (init + 1)
          (setControl32 word)
      else if fits = true then list.modify last (closeWith word count) else list)[place]? =
      list[place]?.map fun item =>
        let closed := if fits = true ∧ place = last then closeWith word count item else item
        if init + 1 < last ∧ place = init + 1 then setControl32 word closed else closed := by
    intro place
    rw [modify_if_getElem?, modify_if_getElem?, Option.map_map]
    rfl
  generalize (if init + 1 < last then
      (if fits = true then list.modify last (closeWith word count) else list).modify (init + 1)
        (setControl32 word)
    else if fits = true then list.modify last (closeWith word count) else list) = second
    at result edited
  cases begins : second[init]? with
  | none => simp [begins] at result
  | some first =>
      simp only [begins, Option.some.injEq] at result
      subst result
      by_cases here : index = init
      · subst here
        obtain ⟨d, found, own⟩ := Option.map_eq_some_iff.mp ((edited index).symm.trans begins)
        simp only [partialAt, found, Option.map_some, if_true, own]
        by_cases alone : index = last
        · simp only [ne_eq, not_true_eq_false, if_false, alone, modify_getElem?, if_true]
          rw [← alone, begins, Option.map_some]
          rfl
        · simp only [ne_eq, alone, not_false_eq_true, if_true, if_false, modify_getElem?, begins,
            Option.map_some]
          rfl
      · have untouched : ∀ (list : List DMADescriptorWG) (edit : DMADescriptorWG → DMADescriptorWG),
            (list.modify init edit)[index]? = list[index]? := by
          intro list edit
          simp [modify_getElem?, here]
        have later : partialAt word init block ⟨last, count, fits⟩ index = fun item =>
            let closed := if fits = true ∧ index = last then closeWith word count item else item
            if init + 1 < last ∧ index = init + 1 then setControl32 word closed else closed := by
          funext item
          simp only [partialAt, if_neg here]
        rw [later, ← edited index]
        simp only [apply_ite (fun edited : List DMADescriptorWG => edited[index]?), untouched,
          ite_self]

theorem last_search_room (request : Request) (list : List DMADescriptorWG) {index : ℕ}
    {d : DMADescriptorWG} (found : list[index]? = some d)
    (last : index = (lastSearch request list).lastDescriptor) :
    if index = (initPosition request list).1 then
      (lastSearch request list).fitsInDescriptor = true ∧
        (initPosition request list).2.toNat + (lastSearch request list).byteCount.toNat ≤
          d.native.length.toNat
    else (lastSearch request list).fitsInDescriptor = true →
      (lastSearch request list).byteCount.toNat ≤ d.native.length.toNat := by
  have bound := (List.getElem?_eq_some_iff.mp found).1
  have blockInside := @init_position_inside request list
  simp only [lastSearch] at last ⊢
  generalize initPosition request list = position at last blockInside ⊢
  obtain ⟨init, block⟩ := position
  simp only at last blockInside ⊢
  obtain ⟨fitting, past⟩ :=
    find_last_descriptor_stops init block (list.drop init) init (request.count * 4)
  generalize findLastDescriptor init block (list.drop init) init (request.count * 4) = search
    at last fitting past ⊢
  subst last
  have countBound := search.byteCount.isLt
  by_cases here : search.lastDescriptor = init
  · rw [if_pos here]
    cases fits : search.fitsInDescriptor with
    | false =>
        have ends := past fits
        rw [List.length_drop] at ends
        omega
    | true =>
        obtain ⟨later, other, present, room⟩ := fitting fits
        rw [List.getElem?_drop, Nat.add_sub_cancel' later, found, Option.some.injEq] at present
        subst present
        have inside := blockInside (here ▸ found)
        rw [if_pos here, count_le_iff, room_toNat d block inside] at room
        exact ⟨rfl, by omega⟩
  · rw [if_neg here]
    intro fits
    obtain ⟨later, other, present, room⟩ := fitting fits
    rw [List.getElem?_drop, Nat.add_sub_cancel' later, found, Option.some.injEq] at present
    subst present
    rw [if_neg here, count_le_iff, get_length_toNat] at room
    exact room

theorem program_partial_cuts (word : U32) (buf : BufId) (request : Request)
    (list : List DMADescriptorWG) (plain : hasLast word = false) {programmed : Programmed}
    (result : programPartial word buf request list = some programmed) {index : ℕ}
    {d : DMADescriptorWG} (found : list[index]? = some d)
    (goesOn : (initPosition request list).1 + 1 < (lastSearch request list).lastDescriptor ∧
      index = (initPosition request list).1 + 1 → hasLast d.native.control = false) :
    ∃ e, programmed.list[index]? = some e ∧ e.pa = d.pa ∧ CutFrom d.native e.native := by
  have room := last_search_room request list found
  have blockInside := @init_position_inside request list
  refine ⟨_, by rw [program_partial_pointwise word buf request list result, found]; rfl, ?_⟩
  generalize (initPosition request list).1 = init at *
  generalize (initPosition request list).2 = block at *
  generalize lastSearch request list = search at *
  unfold partialAt
  by_cases here : index = init
  · subst here
    have unmarked_ : ¬(index + 1 < search.lastDescriptor ∧ index = index + 1) := by omega
    simp only [if_true, if_neg unmarked_]
    by_cases alone : index = search.lastDescriptor
    · have fit := room alone
      rw [if_pos rfl] at fit
      simp only [← alone, if_true, fit.1, and_self]
      exact ⟨rfl, cut_closed_moved word search.byteCount block d fit.2⟩
    · simp only [alone, and_false, if_false]
      exact ⟨rfl, cut_shortened block d (blockInside found)⟩
  · simp only [if_neg here]
    apply cut_closed_or_marked word search.byteCount d plain
    · intro both
      rcases both with ⟨fits, last⟩
      have fit := room last
      rw [if_neg here] at fit
      exact fit fits
    · exact fun marks => ⟨by omega, goesOn marks⟩

theorem program_list_cuts (word : U32) (buf : BufId) (size : U32) (request : Request)
    (list : List DMADescriptorWG) (plain : hasLast word = false) {programmed : Programmed}
    (result : programList word buf size request list = some programmed) {index : ℕ}
    {d : DMADescriptorWG} (found : list[index]? = some d)
    (goesOn : secondDescriptor request size list = some index →
      hasLast d.native.control = false) :
    ∃ e, programmed.list[index]? = some e ∧ e.pa = d.pa ∧ CutFrom d.native e.native := by
  unfold secondDescriptor at goesOn
  unfold programList at result
  split at result
  · rename_i whole
    rw [if_pos whole] at goesOn
    apply program_whole_cuts word buf request list plain result found
    intro both
    rcases both with ⟨many, rfl⟩
    exact goesOn (if_pos many)
  · rename_i partial_
    rw [if_neg partial_] at goesOn
    apply program_partial_cuts word buf request list plain result found
    intro both
    rcases both with ⟨spans, rfl⟩
    exact goesOn (if_pos spans)

/-- The descriptors in which restoring changes what the engine reads: the first one of
the transfer if it was moved, the next one if its mark ends a chain, and the last one. -/
def Rewrites (data : SavedData) (index : ℕ) (d : Descriptor) : Prop :=
  (index = data.savedInitDescriptor ∧ data.savedOffset ≠ 0) ∨
    (index = data.savedInitDescriptor + 1 ∧ hasLast d.control = true) ∨
      index = data.savedLastDescriptor

instance (data : SavedData) (index : ℕ) (d : Descriptor) : Decidable (Rewrites data index d) :=
  instDecidableOr

theorem restore_list_cuts {data : SavedData} {list target : List DMADescriptorWG}
    (result : restoreList data list = some target) {index : ℕ} {d : DMADescriptorWG}
    (found : list[index]? = some d) (kept : ¬Rewrites data index d.native) :
    ∃ e, target[index]? = some e ∧ e.pa = d.pa ∧ CutFrom d.native e.native := by
  obtain ⟨-, -, pointwise⟩ := (restore_list_eq_some_iff data list target).mp result
  simp only [Rewrites, not_or] at kept
  obtain ⟨unmoved, unmarked_, inner⟩ := kept
  have own := pointwise index
  rw [found, Option.map_some] at own
  simp only [restoredAt, if_neg unmoved, if_neg inner] at own
  refine ⟨_, own, by split <;> rfl, ?_⟩
  split
  · rename_i second
    have goesOn : hasLast d.native.control = false := by simpa [second] using unmarked_
    exact cut_marked 0 d (by decide) goesOn
  · exact cut_of_same rfl rfl rfl

/-- A chain that was walked to its end is one a reader stays on. -/
theorem stays_of_walk_chain {list : List DMADescriptorWG} {memory : U64 → Option Descriptor}
    (present : ∀ address d, list.find? (fun d => d.pa == address) = some d →
      memory address = some d.native)
    {fuel : ℕ} {current : Descriptor} {visited : List (Segment U64)}
    (walk : walkChain list fuel current = some visited) :
    Stays engineFormat memory (Within (expandAll visited)) current := by
  induction fuel generalizing current visited with
  | zero => cases walk
  | succ fuel ih =>
      unfold walkChain at walk
      split at walk
      · rename_i stops
        cases walk
        exact .last stops fun address member => by simpa [expandAll] using member
      · rename_i goesOn
        split at walk
        · cases walk
        · rename_i next found
          obtain ⟨rest, later, rfl⟩ := Option.map_eq_some_iff.mp walk
          have own : Within (expandAll (current.segment :: rest)) current := by
            intro address member
            rw [expand_all_cons]
            exact List.mem_append_left _ member
          have ahead : Stays engineFormat memory (Within (expandAll (current.segment :: rest)))
              next.native := by
            apply (ih later).mono
            intro node within address member
            rw [expand_all_cons]
            exact List.mem_append_right _ (within address member)
          exact .more (by simpa [engineFormat] using goesOn) own (present _ next found) ahead

end FpgaPcie.Mprace
