import FpgaPcie.Mprace.FillDescriptorList
import FpgaPcie.Mprace.ProgramList

/-!
# Restoring undoes programming

For a list as it was filled, the record made while programming is enough to put
every descriptor back: the initial one by its offset, the last one by its saved
length, the controls because they were zero, and the link because the list was
linked. For records of whole-buffer transfers more is true: they undo themselves
over any list that still has its lengths and links.
-/

namespace FpgaPcie.Mprace

open FpgaPcie.Segments DMADescriptorWG

set_option autoImplicit false

def shiftBack (block : U32) (d : DMADescriptorWG) : DMADescriptorWG :=
  (d.setHostAddress (d.getHostAddress - block.setWidth 64)).setLength
    (d.getLength + block.setWidth 64)

def reopen (length : U32) (next : U64) (d : DMADescriptorWG) : DMADescriptorWG :=
  ((d.setLength (length.setWidth 64)).setControl 0).setNextDescriptorAddress next

theorem clear_control (word : U32) (d : DMADescriptorWG) (cleared : d.native.control = 0) :
    setControl32 0 (setControl32 word d) = d := by
  have same : setControl32 0 (setControl32 word d) =
      { d with native := { d.native with control := d.native.control } } := by
    rw [cleared]
    rfl
  exact same

theorem clear_cleared (d : DMADescriptorWG) (cleared : d.native.control = 0) :
    setControl32 0 d = d := by
  have same : setControl32 0 d =
      { d with native := { d.native with control := d.native.control } } := by
    rw [cleared]
    rfl
  exact same

theorem reopen_of_next (word count : U32) (d : DMADescriptorWG) (next : U64)
    (cleared : d.native.control = 0) (link : next = d.getNextDescriptorAddress) :
    reopen d.native.length next (closeWith word count d) = d := by
  have same : reopen d.native.length next (closeWith word count d) =
      ((d.setLength (d.native.length.setWidth 64)).setControl
        (d.native.control.setWidth 64)).setNextDescriptorAddress d.getNextDescriptorAddress := by
    rw [cleared, link]
    rfl
  rw [same]
  simp only [setNextDescriptorAddress, getNextDescriptorAddress, setControl, setLength, high_join,
    low_join]
  simp

theorem move_back (block : U32) (d : DMADescriptorWG) :
    (movedBy block d).getHostAddress - block.setWidth 64 = d.getHostAddress := by
  rw [movedBy, host_address_set]
  exact add_sub_cancel_right _ _

theorem shift_back_shortened (block : U32) (d : DMADescriptorWG) :
    shiftBack block (shortenedBy block d) = d := by
  have host : (shortenedBy block d).getHostAddress - block.setWidth 64 = d.getHostAddress :=
    move_back block d
  have length : ((shortenedBy block d).getLength + block.setWidth 64).setWidth 32 =
      d.native.length := by
    simp only [shortenedBy, getLength, length_set_length]
    apply BitVec.eq_of_toNat_eq
    have lengthBound := d.native.length.isLt
    have blockBound := block.isLt
    simp only [BitVec.toNat_setWidth, BitVec.toNat_add, BitVec.toNat_sub]
    omega
  rw [shiftBack, host, setLength, length]
  simp only [setHostAddress, getHostAddress, high_join, low_join]
  rfl

theorem reopen_moved (word count block : U32) (d : DMADescriptorWG) (next : U64)
    (cleared : d.native.control = 0) (link : next = d.getNextDescriptorAddress) :
    reopen d.native.length next (if block ≠ 0 then
        shiftBack block (movedBy block (closeWith word count d))
      else movedBy block (closeWith word count d)) = d := by
  have undone : reopen d.native.length next
      (closeWith word count (d.setHostAddress d.getHostAddress)) = d := by
    rw [set_host_address_same]
    exact reopen_of_next word count d next cleared link
  split
  · have host : (movedBy block (closeWith word count d)).getHostAddress - block.setWidth 64 =
        d.getHostAddress := move_back block _
    rw [shiftBack, host]
    exact undone
  · rename_i zero
    have none_ : block = 0 := by simpa using zero
    rw [none_, moved_by_zero]
    exact reopen_of_next word count d next cleared link

/-- The three edits of `restoreList`, in its order. -/
def shifted (init : ℕ) (block : U32) (list : List DMADescriptorWG) : List DMADescriptorWG :=
  if block ≠ 0 then list.modify init (shiftBack block) else list

def unmarked (init : ℕ) (list : List DMADescriptorWG) : List DMADescriptorWG :=
  if init ≠ list.length - 1 then list.modify (init + 1) (setControl32 0) else list

def linkBack (last : ℕ) (list : List DMADescriptorWG) : U64 :=
  if last = list.length - 1 then 0
  else match list[last + 1]? with
    | some successor => successor.pa
    | none => 0

theorem length_shifted (init : ℕ) (block : U32) (list : List DMADescriptorWG) :
    (shifted init block list).length = list.length := by
  unfold shifted
  split <;> simp

theorem restore_list_edits (data : SavedData) (list : List DMADescriptorWG)
    (initBound : data.savedInitDescriptor < list.length)
    (lastBound : data.savedLastDescriptor < list.length) :
    restoreList data list =
      some ((unmarked data.savedInitDescriptor
        (shifted data.savedInitDescriptor data.savedOffset list)).modify data.savedLastDescriptor
          (reopen data.savedLength (linkBack data.savedLastDescriptor list))) := by
  simp only [restoreList, List.getElem?_eq_getElem initBound, List.getElem?_eq_getElem lastBound,
    unmarked, length_shifted]
  rfl

theorem restore_list_eq (buf : BufId) (init last : ℕ) (block length : U32)
    (list : List DMADescriptorWG) (initBound : init < list.length) (lastBound : last < list.length) :
    restoreList (savedAt buf init last block length) list =
      some ((unmarked init (shifted init block list)).modify last
        (reopen length (linkBack last list))) :=
  restore_list_edits (savedAt buf init last block length) list initBound lastBound

theorem shifted_at (before after : List DMADescriptorWG) (block : U32) (d : DMADescriptorWG) :
    shifted before.length block (before ++ d :: after) =
      before ++ (if block ≠ 0 then shiftBack block d else d) :: after := by
  unfold shifted
  split
  · exact modify_at before after d _
  · rfl

theorem unmarked_end (before : List DMADescriptorWG) (d : DMADescriptorWG) :
    unmarked before.length (before ++ [d]) = before ++ [d] := by
  simp [unmarked]

theorem unmarked_next (before after : List DMADescriptorWG) (d next : DMADescriptorWG) :
    unmarked before.length (before ++ d :: next :: after) =
      before ++ d :: setControl32 0 next :: after := by
  rw [unmarked, if_pos (by simp)]
  exact modify_past before [] after d next _

theorem link_back_at (front after : List DMADescriptorWG) (d edited : DMADescriptorWG)
    (linked : Linked (d :: after)) :
    linkBack front.length (front ++ edited :: after) = d.getNextDescriptorAddress := by
  cases after with
  | nil =>
      rw [linkBack, if_pos (by simp)]
      exact linked.symm
  | cons next rest =>
      have found : (front ++ edited :: next :: rest)[front.length + 1]? = some next :=
        getElem?_past front [] rest edited next
      rw [linkBack, if_neg (by simp), found]
      exact linked.1.symm

theorem restore_single (buf : BufId) (word count block : U32) (before after : List DMADescriptorWG)
    (d : DMADescriptorWG) (linked : Linked (before ++ d :: after))
    (cleared : ∀ other ∈ before ++ d :: after, other.native.control = 0) :
    restoreList (savedAt buf before.length before.length block d.native.length)
      (before ++ movedBy block (closeWith word count d) :: after) = some (before ++ d :: after) := by
  have link := link_back_at before after d (movedBy block (closeWith word count d)) linked.suffix
  have undone := reopen_moved word count block d _ (cleared d (by simp)) link
  rw [restore_list_eq _ _ _ _ _ _ (by simp) (by simp), shifted_at]
  cases after with
  | nil => rw [unmarked_end, modify_at, undone]
  | cons next rest =>
      rw [unmarked_next, clear_cleared next (cleared next (by simp)), modify_at, undone]

theorem restore_spanning (buf : BufId) (word rest block : U32)
    (before middle after : List DMADescriptorWG) (d last : DMADescriptorWG)
    (linked : Linked (before ++ d :: (middle ++ last :: after)))
    (cleared : ∀ other ∈ before ++ d :: (middle ++ last :: after), other.native.control = 0) :
    restoreList (savedAt buf before.length (before.length + 1 + middle.length) block
        last.native.length)
      (before ++ shortenedBy block d ::
        (markSecond word middle ++ closeWith word rest last :: after)) =
      some (before ++ d :: (middle ++ last :: after)) := by
  have first : (if block ≠ 0 then shiftBack block (shortenedBy block d) else shortenedBy block d) =
      d := by
    split
    · exact shift_back_shortened block d
    · rename_i zero
      have none_ : block = 0 := by simpa using zero
      rw [none_, shortened_by_zero]
  have lastLinked : Linked (last :: after) := by
    apply Linked.suffix
    rw [List.append_cons before, ← List.append_assoc] at linked
    exact linked
  have link : linkBack (before.length + 1 + middle.length)
      (before ++ shortenedBy block d ::
        (markSecond word middle ++ closeWith word rest last :: after)) =
      last.getNextDescriptorAddress := by
    have index : before.length + 1 + middle.length =
        (before ++ shortenedBy block d :: markSecond word middle).length := by
      simp only [List.length_append, List.length_cons, length_mark_second]
      omega
    have regroup : before ++ shortenedBy block d ::
          (markSecond word middle ++ closeWith word rest last :: after) =
        (before ++ shortenedBy block d :: markSecond word middle) ++
          closeWith word rest last :: after := by simp
    rw [index, regroup]
    exact link_back_at _ after last _ lastLinked
  have undone := reopen_of_next word rest last _ (cleared last (by simp)) link
  rw [restore_list_eq _ _ _ _ _ _ (by simp) (by simp; omega), shifted_at, first]
  cases middle with
  | nil =>
      have same : reopen last.native.length
            (linkBack (before.length + 1) (before ++ shortenedBy block d ::
              (closeWith word rest last :: after)))
            (setControl32 0 (closeWith word rest last)) = last := undone
      have past := modify_past before [] after d (setControl32 0 (closeWith word rest last))
        (reopen last.native.length (linkBack (before.length + 1) (before ++ shortenedBy block d ::
          (closeWith word rest last :: after))))
      simp only [markSecond, List.modify_nil, List.nil_append, List.length_nil,
        Nat.add_zero] at past ⊢
      rw [unmarked_next, past, same]
  | cons second middle =>
      have mark : markSecond word (second :: middle) = setControl32 word second :: middle := rfl
      rw [mark] at undone ⊢
      rw [List.cons_append, unmarked_next, clear_control word second (cleared second (by simp)),
        ← List.cons_append, modify_past]
      rw [List.cons_append] at undone
      rw [List.cons_append, undone]
      rfl

/-- What restoring does to the descriptor at `index`. -/
def restoredAt (data : SavedData) (next : U64) (index : ℕ) (d : DMADescriptorWG) :
    DMADescriptorWG :=
  let moved := if index = data.savedInitDescriptor ∧ data.savedOffset ≠ 0 then
      shiftBack data.savedOffset d
    else d
  let cleared := if index = data.savedInitDescriptor + 1 then setControl32 0 moved else moved
  if index = data.savedLastDescriptor then reopen data.savedLength next cleared else cleared

theorem shifted_getElem? (init : ℕ) (block : U32) (list : List DMADescriptorWG) (index : ℕ) :
    (shifted init block list)[index]? =
      list[index]?.map fun d => if index = init ∧ block ≠ 0 then shiftBack block d else d := by
  simp only [shifted, modify_if_getElem?, and_comm]

theorem unmarked_getElem? (init : ℕ) (list : List DMADescriptorWG) (index : ℕ) :
    (unmarked init list)[index]? =
      list[index]?.map fun d => if index = init + 1 then setControl32 0 d else d := by
  rw [unmarked, modify_if_getElem?]
  by_cases inner : init ≠ list.length - 1
  · simp only [ne_eq, inner, not_false_eq_true, true_and]
  · by_cases here : index = init + 1
    · have outside : list.length ≤ index := by omega
      simp [List.getElem?_eq_none outside]
    · simp only [here, and_false]

theorem restore_list_eq_some_iff (data : SavedData) (list target : List DMADescriptorWG) :
    restoreList data list = some target ↔
      data.savedInitDescriptor < list.length ∧ data.savedLastDescriptor < list.length ∧
        ∀ index, target[index]? = list[index]?.map
          (restoredAt data (linkBack data.savedLastDescriptor list) index) := by
  have pointwise : ∀ index, ((unmarked data.savedInitDescriptor
      (shifted data.savedInitDescriptor data.savedOffset list)).modify data.savedLastDescriptor
        (reopen data.savedLength (linkBack data.savedLastDescriptor list)))[index]? =
      list[index]?.map (restoredAt data (linkBack data.savedLastDescriptor list) index) := by
    intro index
    rw [modify_getElem?, unmarked_getElem?, shifted_getElem?, Option.map_map, Option.map_map]
    rfl
  constructor
  · intro result
    by_cases bounds : data.savedInitDescriptor < list.length ∧
        data.savedLastDescriptor < list.length
    · rw [restore_list_edits data list bounds.1 bounds.2, Option.some.injEq] at result
      subst result
      exact ⟨bounds.1, bounds.2, pointwise⟩
    · have missing : list[data.savedInitDescriptor]? = none ∨
          list[data.savedLastDescriptor]? = none := by
        simp only [List.getElem?_eq_none_iff]
        omega
      rcases missing with none_ | none_
      · simp [restoreList, none_] at result
      · simp only [restoreList, none_] at result
        split at result <;> simp_all
  · intro facts
    rcases facts with ⟨initBound, lastBound, same⟩
    rw [restore_list_edits data list initBound lastBound, Option.some.injEq]
    exact List.ext_getElem? fun index => (pointwise index).trans (same index).symm

end FpgaPcie.Mprace
