import FpgaPcie.Lib.Keyed
import FpgaPcie.Mprace.RestoreList

/-!
# A list and the records that account for its edits

`Accounted` relates one descriptor list to what it was filled with and to the
records the two channels hold for it. One record undoes everything. Of two, one
does so and the other is of a whole-buffer transfer, which assigns end values only
and so neither needs the edits it undoes nor disturbs the other.
-/

namespace FpgaPcie.Mprace

open FpgaPcie.Segments FpgaPcie.Keyed DMADescriptorWG

set_option autoImplicit false

def flip (ch : Channel) : Channel := 1 - ch

theorem flip_flip (ch : Channel) : flip (flip ch) = ch := by
  revert ch
  decide

theorem flip_ne (ch : Channel) : flip ch ≠ ch := by
  revert ch
  decide

theorem eq_flip {ch other : Channel} (differ : other ≠ ch) : other = flip ch := by
  revert ch other
  decide

def SavedData.Whole (data : SavedData) (count : ℕ) : Prop :=
  data.savedInitDescriptor = 0 ∧ data.savedOffset = 0 ∧ data.savedLastDescriptor + 1 = count

instance (data : SavedData) (count : ℕ) : Decidable (data.Whole count) := instDecidableAnd

structure Described (data : SavedData) (filled : List DMADescriptorWG) : Prop where
  ordered : data.savedInitDescriptor ≤ data.savedLastDescriptor
  length : ∃ d, filled[data.savedLastDescriptor]? = some d ∧ d.native.length = data.savedLength

structure Accounted (filled list : List DMADescriptorWG) (pending : Channel → Option SavedData) :
    Prop where
  pas : list.map DMADescriptorWG.pa = filled.map DMADescriptorWG.pa
  clean : (∀ ch, pending ch = none) → list = filled
  described : ∀ ch data, pending ch = some data → Described data filled
  alone : ∀ ch data, pending ch = some data → pending (flip ch) = none →
    restoreList data list = some filled
  both : ∀ ch data other, pending ch = some data → pending (flip ch) = some other →
    (data.Whole filled.length ∧ restoreList other list = some filled) ∨
      (other.Whole filled.length ∧ restoreList data list = some filled)

section Descriptor

variable (length other : U32) (next later : U64) (word block : U32) (d : DMADescriptorWG)

theorem reopen_control : reopen length next (setControl32 word d) = reopen length next d := rfl

theorem reopen_shift_reopen : reopen length next (shiftBack block (reopen other later d)) =
    reopen length next (shiftBack block d) := rfl

theorem reopen_reopen : reopen length next (reopen other later d) = reopen length next d := rfl

theorem clear_marked : setControl32 0 (setControl32 word d) = setControl32 0 d := rfl

theorem reopen_own : reopen d.native.length d.getNextDescriptorAddress d = setControl32 0 d := by
  simp only [reopen, set_length_same]
  exact set_next_descriptor_address_same (d.setControl 0)

end Descriptor

theorem linked_last {list : List DMADescriptorWG} (linked : Linked list) {d : DMADescriptorWG}
    (last : list[list.length - 1]? = some d) : d.getNextDescriptorAddress = 0 := by
  rcases List.eq_nil_or_concat list with rfl | ⟨before, final, rfl⟩
  · simp at last
  · simp only [List.concat_eq_append] at linked last
    have same : final = d := by simpa using last
    rw [← same]
    exact linked.suffix

theorem link_back_congr (last : ℕ) {left right : List DMADescriptorWG}
    (pas : left.map DMADescriptorWG.pa = right.map DMADescriptorWG.pa) :
    linkBack last left = linkBack last right := by
  have length : left.length = right.length := by simpa using congrArg List.length pas
  have address : (left[last + 1]?).map DMADescriptorWG.pa =
      (right[last + 1]?).map DMADescriptorWG.pa := by
    rw [← List.getElem?_map, ← List.getElem?_map, pas]
  unfold linkBack
  rw [length]
  cases leftItem : left[last + 1]? <;> cases rightItem : right[last + 1]? <;>
    simp_all

theorem restored_at_pa (data : SavedData) (next : U64) (index : ℕ) (d : DMADescriptorWG) :
    (restoredAt data next index d).pa = d.pa := by
  simp only [restoredAt]
  split <;> split <;> split <;> rfl

theorem restore_list_pas {data : SavedData} {list target : List DMADescriptorWG}
    (result : restoreList data list = some target) :
    target.map DMADescriptorWG.pa = list.map DMADescriptorWG.pa := by
  obtain ⟨-, -, same⟩ := (restore_list_eq_some_iff data list target).mp result
  apply List.ext_getElem?
  intro index
  rw [List.getElem?_map, List.getElem?_map, same index, Option.map_map]
  cases list[index]? with
  | none => rfl
  | some d => simp [restored_at_pa]

theorem restore_list_length {data : SavedData} {list target : List DMADescriptorWG}
    (result : restoreList data list = some target) : target.length = list.length := by
  simpa using congrArg List.length (restore_list_pas result)

/-- What restoring such a record does: the last descriptor is closed again as it
was, the second one cleared. -/
theorem restored_at_whole {data : SavedData} {count : ℕ} (whole : data.Whole count) (next : U64)
    (index : ℕ) (d : DMADescriptorWG) :
    restoredAt data next index d =
      if index + 1 = count then reopen data.savedLength next d
      else if index = 1 then setControl32 0 d else d := by
  obtain ⟨first, zero, last⟩ := whole
  have position : index = data.savedLastDescriptor ↔ index + 1 = count := by omega
  simp only [restoredAt, first, zero, position, ne_eq, not_true_eq_false, and_false, if_false,
    Nat.zero_add]
  split
  · split <;> rfl
  · rfl

theorem whole_link_back {data : SavedData} {list : List DMADescriptorWG}
    (whole : data.Whole list.length) : linkBack data.savedLastDescriptor list = 0 := by
  rw [linkBack, if_pos (by have := whole.2.2; omega)]

theorem whole_in_bounds {data : SavedData} {list : List DMADescriptorWG}
    (whole : data.Whole list.length) :
    data.savedInitDescriptor < list.length ∧ data.savedLastDescriptor < list.length := by
  obtain ⟨first, -, last⟩ := whole
  omega

section Filled

variable {filled list : List DMADescriptorWG} {size : U32}

/-- A filled descriptor is what reopening makes of anything that agrees with it
elsewhere. -/
theorem reopen_filled_last {data : SavedData} (described : Described data filled)
    (whole : data.Whole filled.length) (asFilled : AsFilled filled size) {index : ℕ}
    {d : DMADescriptorWG} (found : filled[index]? = some d) (last : index + 1 = filled.length) :
    reopen data.savedLength 0 d = d := by
  have position : index = data.savedLastDescriptor := by
    have := whole.2.2
    omega
  obtain ⟨final, finalFound, length⟩ := described.length
  rw [← position, found, Option.some.injEq] at finalFound
  subst finalFound
  have next : d.getNextDescriptorAddress = 0 :=
    linked_last asFilled.linked (by rw [← found]; congr 1; omega)
  have own := reopen_own d
  rw [next, length] at own
  rw [own]
  exact clear_cleared d (asFilled.cleared d (List.mem_of_getElem? found))

theorem whole_restores_filled {data : SavedData} (described : Described data filled)
    (whole : data.Whole filled.length) (asFilled : AsFilled filled size) :
    restoreList data filled = some filled := by
  obtain ⟨init, last⟩ := whole_in_bounds whole
  refine (restore_list_eq_some_iff data filled filled).mpr ⟨init, last, fun index => ?_⟩
  rw [whole_link_back whole]
  cases found : filled[index]? with
  | none => rfl
  | some d =>
      have cleared := asFilled.cleared d (List.mem_of_getElem? found)
      simp only [Option.map_some, restored_at_whole whole]
      split
      · rename_i final
        rw [reopen_filled_last described whole asFilled found final]
      · split
        · rw [clear_cleared d cleared]
        · rfl

/-- Restoring a whole-buffer record first does not disturb what another record
undoes. -/
theorem restore_after_whole {whole other : SavedData} {between : List DMADescriptorWG}
    (asFilled : AsFilled filled size) (form : whole.Whole filled.length)
    (described : Described whole filled)
    (ordered : other.savedInitDescriptor ≤ other.savedLastDescriptor)
    (undone : restoreList other list = some filled)
    (first : restoreList whole list = some between) : restoreList other between = some filled := by
  have listPas := restore_list_pas undone
  have betweenPas := restore_list_pas first
  have lengths := restore_list_length undone
  have betweenLength := restore_list_length first
  have formList : whole.Whole list.length := by rwa [← lengths]
  obtain ⟨init, last, same⟩ := (restore_list_eq_some_iff other list filled).mp undone
  obtain ⟨-, -, step⟩ := (restore_list_eq_some_iff whole list between).mp first
  refine (restore_list_eq_some_iff other between filled).mpr ⟨by omega, by omega, fun index => ?_⟩
  rw [link_back_congr _ betweenPas, same index, step index, whole_link_back formList]
  cases found : list[index]? with
  | none => rfl
  | some d =>
      have target := same index
      rw [found, Option.map_some] at target
      have cleared := asFilled.cleared _ (List.mem_of_getElem? target)
      simp only [Option.map_some, Option.some.injEq, restored_at_whole formList]
      generalize linkBack other.savedLastDescriptor list = next at target cleared ⊢
      by_cases final : index + 1 = list.length
      · rw [if_pos final]
        by_cases own : index = other.savedLastDescriptor
        · simp only [restoredAt, if_pos own, reopen_control, reopen_shift_reopen, reopen_reopen,
            apply_ite (reopen other.savedLength next), ite_self]
        · -- behind both indices of the other record, so only its second mark can reach here
          have notInit : ¬(index = other.savedInitDescriptor ∧ other.savedOffset ≠ 0) := by omega
          have reopened := reopen_filled_last described form asFilled target (by omega)
          simp only [restoredAt, if_neg own, if_neg notInit] at target cleared reopened ⊢
          split at reopened
          · rename_i second
            simp only [if_pos second, reopen_control] at reopened cleared ⊢
            rw [reopened]
            exact (clear_cleared _ cleared).symm
          · rename_i later
            simp only [if_neg later]
            exact reopened.symm
      · rw [if_neg final]
        by_cases second : index = 1
        · rw [if_pos second]
          have passes : restoredAt other next index (setControl32 0 d) =
              setControl32 0 (restoredAt other next index d) := by
            simp only [restoredAt]
            split <;> split <;> split <;> rfl
          rw [passes, clear_cleared _ cleared]
        · rw [if_neg second]

variable {pending : Channel → Option SavedData} {ch : Channel} {data : SavedData}

theorem update_flip (entry : Option SavedData) :
    Function.update pending ch entry (flip ch) = pending (flip ch) :=
  Function.update_of_ne (flip_ne ch) _ _

theorem accounted_without (samePas : list.map DMADescriptorWG.pa = filled.map DMADescriptorWG.pa)
    (described : ∀ other, pending (flip ch) = some other → Described other filled)
    (clean : pending (flip ch) = none → list = filled)
    (undoes : ∀ other, pending (flip ch) = some other → restoreList other list = some filled) :
    Accounted filled list (Function.update pending ch none) := by
  have left : ∀ {kept : Channel} {other : SavedData},
      Function.update pending ch none kept = some other →
        kept = flip ch ∧ pending (flip ch) = some other := by
    intro kept other found
    obtain ⟨differ, old⟩ := update_none_cases found
    rw [eq_flip differ] at old
    exact ⟨eq_flip differ, old⟩
  exact {
    pas := samePas
    clean := fun none_ => clean (by simpa [update_flip] using none_ (flip ch))
    described := fun kept other found => described other (left found).2
    alone := fun kept other found _ => undoes other (left found).2
    both := by
      intro kept other another found foundOther
      obtain ⟨keptFlip, -⟩ := left found
      obtain ⟨again, -⟩ := left foundOther
      exact absurd (again.trans keptFlip.symm) (flip_ne kept) }

/-- An account with a new record that undoes everything, next to one of a whole
transfer at most. -/
theorem accounted_with (samePas : list.map DMADescriptorWG.pa = filled.map DMADescriptorWG.pa)
    (own : Described data filled) (undone : restoreList data list = some filled)
    (others : ∀ other, pending (flip ch) = some other →
      Described other filled ∧ other.Whole filled.length) :
    Accounted filled list (Function.update pending ch (some data)) := by
  have entries : ∀ {kept : Channel} {record : SavedData},
      Function.update pending ch (some data) kept = some record →
        (kept = ch ∧ record = data) ∨ (kept = flip ch ∧ pending (flip ch) = some record) := by
    intro kept record found
    rcases update_some_cases found with own | ⟨differ, old⟩
    · exact Or.inl own
    · rw [eq_flip differ] at old
      exact Or.inr ⟨eq_flip differ, old⟩
  exact {
    pas := samePas
    clean := by
      intro none_
      have missing := none_ ch
      simp at missing
    described := by
      intro kept record found
      rcases entries found with ⟨-, rfl⟩ | ⟨-, old⟩
      · exact own
      · exact (others record old).1
    alone := by
      intro kept record found none_
      rcases entries found with ⟨-, rfl⟩ | ⟨rfl, -⟩
      · exact undone
      · rw [flip_flip, Function.update_self] at none_
        cases none_
    both := by
      intro kept record other found foundOther
      rcases entries found with ⟨rfl, rfl⟩ | ⟨rfl, old⟩
      · rw [update_flip] at foundOther
        exact Or.inr ⟨(others other foundOther).2, undone⟩
      · rw [flip_flip, Function.update_self, Option.some.injEq] at foundOther
        subst foundOther
        exact Or.inl ⟨(others record old).2, undone⟩ }

theorem Accounted.restored (account : Accounted filled list pending)
    (asFilled : AsFilled filled size) (record : pending ch = some data)
    {after : List DMADescriptorWG} (result : restoreList data list = some after) :
    Accounted filled after (Function.update pending ch none) := by
  refine accounted_without ((restore_list_pas result).trans account.pas)
    (fun other found => account.described _ other found) ?_ ?_
  · intro none_
    have alone := account.alone ch data record none_
    rw [alone, Option.some.injEq] at result
    exact result.symm
  · intro other found
    rcases account.both ch data other record found with ⟨whole, undone⟩ | ⟨whole, undone⟩
    · exact restore_after_whole asFilled whole (account.described ch data record)
        (account.described _ other found).ordered undone result
    · rw [undone, Option.some.injEq] at result
      subst result
      exact whole_restores_filled (account.described _ other found) whole asFilled

/-- Two whole-buffer records of one list agree in everything restoring looks at. -/
theorem whole_restores_alike {left right : SavedData} (describedLeft : Described left filled)
    (describedRight : Described right filled) (wholeLeft : left.Whole filled.length)
    (wholeRight : right.Whole filled.length) : restoreList left list = restoreList right list := by
  obtain ⟨leftFirst, leftZero, leftLast⟩ := wholeLeft
  obtain ⟨rightFirst, rightZero, rightLast⟩ := wholeRight
  have last : left.savedLastDescriptor = right.savedLastDescriptor := by omega
  obtain ⟨d, found, length⟩ := describedLeft.length
  obtain ⟨other, foundOther, lengthOther⟩ := describedRight.length
  rw [← last, found, Option.some.injEq] at foundOther
  subst foundOther
  have length : left.savedLength = right.savedLength := length.symm.trans lengthOther
  simp only [restoreList, leftFirst, rightFirst, leftZero, rightZero, last, length]

/-- A record that is not needed can be lost: the list is as it was filled, or the
record is of a whole transfer and the other channel has one too. -/
theorem Accounted.dropped (account : Accounted filled list pending)
    (asFilled : AsFilled filled size)
    (spare : ∀ data, pending ch = some data →
      list = filled ∨ (data.Whole filled.length ∧ pending (flip ch) ≠ none)) :
    Accounted filled list (Function.update pending ch none) := by
  cases record : pending ch with
  | none =>
      rw [← record, Function.update_eq_self]
      exact account
  | some data =>
      refine accounted_without account.pas (fun other found => account.described _ other found)
        ?_ ?_
      · intro none_
        rcases spare data record with same | ⟨-, some_⟩
        · exact same
        · exact absurd none_ some_
      · intro other found
        rcases account.both ch data other record found with ⟨-, undone⟩ | ⟨whole, undone⟩
        · exact undone
        · rcases spare data record with same | ⟨wholeOwn, -⟩
          · rw [same]
            exact whole_restores_filled (account.described _ other found) whole asFilled
          · rw [← whole_restores_alike (account.described ch data record)
              (account.described _ other found) wholeOwn whole]
            exact undone

/-- A send on a list as it was filled makes a record that undoes it. -/
theorem program_clean_undone (word : U32) (buf : BufId) (request : Request)
    (asFilled : AsFilled filled size)
    (range : byteOffset request + byteCount request ≤ size.toNat) :
    ∃ programmed data, programList word buf size request filled = some programmed ∧
      programmed.list.map DMADescriptorWG.pa = filled.map DMADescriptorWG.pa ∧
      programmed.saved = some data ∧ data.savedBuf = buf ∧ Described data filled ∧
      restoreList data programmed.list = some filled := by
  rcases program_list_shape word buf size request filled asFilled range with
    ⟨before, d, after, block, cut, programmed⟩ |
    ⟨before, d, middle, last, after, block, rest, cut, programmed⟩
  · have split := cut.split
    subst split
    refine ⟨_, _, programmed, ?_, rfl, rfl, ⟨le_rfl, d, getElem?_at before after d, rfl⟩,
      restore_single buf word _ block before after d asFilled.linked asFilled.cleared⟩
    simp only [singleProgram, List.map_append, List.map_cons]
    rfl
  · have split := cut.split
    subst split
    refine ⟨_, _, programmed, ?_, rfl, rfl,
      ⟨?_, last, getElem?_past before middle after d last, rfl⟩,
      restore_spanning buf word rest block before middle after d last asFilled.linked
        asFilled.cleared⟩
    · simp only [spanningProgram, List.map_append, List.map_cons, pas_mark_second]
      rfl
    · simp only [savedAt]
      omega

/-- The record is of a whole transfer, and nothing has cut the list since. -/
def WholePending (data : SavedData) (list : List DMADescriptorWG) : Prop :=
  data.Whole list.length ∧ ∃ d ∈ list[data.savedLastDescriptor]?,
    d.native.length = data.savedLength ∧ d.getNextDescriptorAddress = 0

theorem Accounted.whole_undone (account : Accounted filled list pending)
    (whole : ∀ ch data, pending ch = some data → WholePending data list)
    (record : pending ch = some data) : restoreList data list = some filled := by
  have length : list.length = filled.length := by simpa using congrArg List.length account.pas
  cases found : pending (flip ch) with
  | none => exact account.alone ch data record found
  | some other =>
      rcases account.both ch data other record found with ⟨-, undone⟩ | ⟨-, undone⟩
      · rw [whole_restores_alike (account.described ch data record)
          (account.described _ other found) (length ▸ (whole ch data record).1)
          (length ▸ (whole _ other found).1)]
        exact undone
      · exact undone

/-- Under such records the list differs from the filled one in control words only. -/
theorem Accounted.geometry (account : Accounted filled list pending)
    (asFilled : AsFilled filled size)
    (whole : ∀ ch data, pending ch = some data → WholePending data list) :
    list.map (setControl32 0) = filled := by
  by_cases none_ : ∀ ch, pending ch = none
  · rw [account.clean none_]
    have same : filled.map (setControl32 0) = filled.map id :=
      List.map_congr_left fun d member => clear_cleared d (asFilled.cleared d member)
    rw [same, List.map_id]
  · obtain ⟨ch, some_⟩ := not_forall.mp none_
    obtain ⟨data, record⟩ := Option.ne_none_iff_exists'.mp some_
    obtain ⟨form, last, lastFound, lastLength, lastNext⟩ := whole ch data record
    obtain ⟨-, -, same⟩ := (restore_list_eq_some_iff data list filled).mp
      (account.whole_undone whole record)
    apply List.ext_getElem?
    intro index
    rw [List.getElem?_map, same index, whole_link_back form]
    cases found : list[index]? with
    | none => rfl
    | some d =>
        have target := same index
        rw [found, Option.map_some, whole_link_back form] at target
        have cleared := asFilled.cleared _ (List.mem_of_getElem? target)
        simp only [restored_at_whole form] at cleared
        simp only [Option.map_some, restored_at_whole form, Option.some.injEq]
        split
        · rename_i final
          have position : index = data.savedLastDescriptor := by
            have := form.2.2
            omega
          rw [← position, found, Option.mem_def, Option.some.injEq] at lastFound
          subst lastFound
          rw [← lastLength, ← lastNext]
          exact (reopen_own d).symm
        · rename_i inner
          rw [if_neg inner] at cleared
          split at cleared
          · rename_i second
            rw [if_pos second]
          · rename_i later
            rw [if_neg later]
            exact clear_cleared d cleared

/-- What sending the whole buffer does to the descriptor at `index`. -/
def markedAt (word : U32) (count index : ℕ) (d : DMADescriptorWG) : DMADescriptorWG :=
  let second := if 2 < count ∧ index = 1 then setControl32 word d else d
  if index + 1 = count then setControl32 (word ||| ctrlLast) second else second

theorem marked_at_pa (word : U32) (count index : ℕ) (d : DMADescriptorWG) :
    (markedAt word count index d).pa = d.pa := by
  simp only [markedAt]
  split <;> split <;> rfl

theorem marked_at_length (word : U32) (count index : ℕ) (d : DMADescriptorWG) :
    (markedAt word count index d).native.length = d.native.length := by
  simp only [markedAt]
  split <;> split <;> rfl

theorem program_whole_eq (word : U32) (buf : BufId) (request : Request)
    (list : List DMADescriptorWG) (last : DMADescriptorWG)
    (found : list[list.length - 1]? = some last) :
    ∃ programmed, programWhole word buf request list = some programmed ∧
      (∀ index, programmed.list[index]? = list[index]?.map (markedAt word list.length index)) ∧
      programmed.saved = some (savedAt buf 0 (list.length - 1) 0 last.native.length) := by
  have some_ : 0 < list.length := by
    have := (List.getElem?_eq_some_iff.mp found).1
    omega
  have pointwise : ∀ index, ((if 2 < list.length then list.modify 1 (setControl32 word)
      else list).modify (list.length - 1) (setControl32 (word ||| ctrlLast)))[index]? =
      list[index]?.map (markedAt word list.length index) := by
    intro index
    have last_ : index = list.length - 1 ↔ index + 1 = list.length := by omega
    rw [modify_getElem?, modify_if_getElem?, Option.map_map]
    simp only [last_]
    rfl
  have first : list[0]? = some list[0] := List.getElem?_eq_getElem some_
  simp only [programWhole, pointwise, found, first, Option.map_some]
  refine ⟨_, rfl, pointwise, ?_⟩
  simp only [get_length_setWidth, marked_at_length]
  rfl

/-- Sending the whole buffer again leaves a list that the same record undoes. -/
theorem program_whole_undone (word : U32) (buf : BufId) (request : Request)
    (form : data.Whole list.length)
    (length : ∃ d ∈ list[data.savedLastDescriptor]?, d.native.length = data.savedLength)
    (undone : restoreList data list = some filled) :
    ∃ programmed, programWhole word buf request list = some programmed ∧
      programmed.list.map DMADescriptorWG.pa = list.map DMADescriptorWG.pa ∧
      programmed.saved = some { data with savedBuf := buf } ∧
      restoreList { data with savedBuf := buf } programmed.list = some filled := by
  obtain ⟨last, lastFound, lastLength⟩ := length
  have final : data.savedLastDescriptor = list.length - 1 := by
    have := form.2.2
    omega
  rw [final] at lastFound
  obtain ⟨programmed, result, pointwise, saved⟩ :=
    program_whole_eq word buf request list last lastFound
  have pas : programmed.list.map DMADescriptorWG.pa = list.map DMADescriptorWG.pa := by
    apply List.ext_getElem?
    intro index
    rw [List.getElem?_map, List.getElem?_map, pointwise index]
    cases list[index]? with
    | none => rfl
    | some d => simp [marked_at_pa]
  have sameLength : programmed.list.length = list.length := by
    simpa using congrArg List.length pas
  obtain ⟨-, -, same⟩ := (restore_list_eq_some_iff data list filled).mp undone
  have formAfter : SavedData.Whole { data with savedBuf := buf } programmed.list.length := by
    rw [sameLength]
    exact form
  obtain ⟨initBound, lastBound⟩ := whole_in_bounds formAfter
  refine ⟨programmed, result, pas, ?_, ?_⟩
  · rw [saved, lastLength, ← final, ← form.1, ← form.2.1]
    rfl
  · refine (restore_list_eq_some_iff _ _ _).mpr ⟨initBound, lastBound, fun index => ?_⟩
    rw [whole_link_back formAfter, same index, pointwise index, whole_link_back form]
    cases list[index]? with
    | none => rfl
    | some d =>
        simp only [Option.map_some, Option.some.injEq, restored_at_whole form,
          restored_at_whole formAfter, sameLength, markedAt]
        by_cases last : index + 1 = list.length
        · simp only [if_pos last, reopen_control, apply_ite (reopen data.savedLength 0), ite_self]
        · simp only [if_neg last]
          by_cases second : index = 1
          · simp only [if_pos second, apply_ite (setControl32 0), clear_marked, ite_self]
          · simp [second]

/-- A send over a list that is as it was filled, or again of the whole buffer over
records of whole transfers, keeps the account. -/
theorem Accounted.sent (account : Accounted filled list pending) (asFilled : AsFilled filled size)
    (word : U32) (buf : BufId) (request : Request)
    (range : byteOffset request + byteCount request ≤ size.toNat)
    (ready : ∀ other data, pending other = some data → WholePending data list ∧
      ((request.offset = 0 ∧ request.count * 4 = size) ∨ list = filled))
    {programmed : Programmed} (result : programList word buf size request list = some programmed) :
    ∃ data, programmed.saved = some data ∧ data.savedBuf = buf ∧
      Accounted filled programmed.list (Function.update pending ch (some data)) := by
  have length : list.length = filled.length := by simpa using congrArg List.length account.pas
  have others : ∀ other, pending (flip ch) = some other →
      Described other filled ∧ other.Whole filled.length := fun other found =>
    ⟨account.described _ other found, length ▸ (ready _ other found).1.1⟩
  by_cases clean : list = filled
  · obtain ⟨sent, data, sends, pas, saved, named, described, undone⟩ :=
      program_clean_undone word buf request asFilled range
    rw [clean, sends, Option.some.injEq] at result
    subst result
    exact ⟨data, saved, named, accounted_with pas described undone others⟩
  · obtain ⟨other, some_⟩ := not_forall.mp fun none_ => clean (account.clean none_)
    obtain ⟨data, record⟩ := Option.ne_none_iff_exists'.mp some_
    obtain ⟨⟨form, last, lastFound, lastLength, -⟩, whole⟩ := ready other data record
    have undone := account.whole_undone (fun ch data found => (ready ch data found).1) record
    obtain ⟨sent, sends, pas, saved, restored⟩ := program_whole_undone word buf request form
      ⟨last, lastFound, lastLength⟩ undone
    rw [programList, if_pos (whole.resolve_right clean), sends, Option.some.injEq] at result
    subst result
    obtain ⟨ordered, itsLength⟩ := account.described other data record
    exact ⟨_, saved, rfl, accounted_with (pas.trans account.pas) ⟨ordered, itsLength⟩ restored
      others⟩

end Filled

end FpgaPcie.Mprace
