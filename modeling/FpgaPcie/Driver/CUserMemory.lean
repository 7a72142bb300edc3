import FpgaPcie.Driver.SgList

/-!
# User memory in the C library

`pd_mapUserMemory` does what the constructor of `UserMemory` does, always for a merged
list, and asks for one entry less. What it fills in is later passed to the driver by
`pd_syncUserMemory` and `pd_unmapUserMemory`.
-/

namespace FpgaPcie.Driver.Umem

open FpgaPcie.Segments

set_option autoImplicit false

structure PdDevice where
  handle : ℕ
  deriving DecidableEq, Repr

structure PdUmem where
  vma : U64
  size : U64
  handleId : U32
  sg : List UmemSgEntry
  pciHandle : Option PdDevice
  deriving DecidableEq, Repr

structure UmemHandle where
  vma : U64
  size : U64
  handleId : U32
  deriving DecidableEq, Repr

/-- What `pd_syncUserMemory` and `pd_unmapUserMemory` pass to the driver. -/
def PdUmem.passes (umem : PdUmem) : UmemHandle := ⟨umem.vma, umem.size, umem.handleId⟩

def pdError : U32 := -1

theorem pd_error_ne : pdError ≠ 0#32 := by decide

def pdRequestedNents (size : U32) : U32 := size / BitVec.ofNat 32 pageSize + 1#32

structure PdMapped where
  privdata : Privdata
  umem : Option PdUmem
  ret : U32

/-- `pd_mapUserMemory`. Of the caller's structure `vma` and `size` are not set. -/
def pdMapUserMemory (kernel : Kernel) (sgmap : SgmapOutcome) (sgget : SggetOutcome)
    (privdata : Privdata) (pciHandle : Option PdDevice) (mem : U64) (size : U32)
    (umemHandle : Option PdUmem) : PdMapped :=
  match pciHandle, umemHandle with
  | none, _ => ⟨privdata, umemHandle, pdError⟩
  | some _, none => ⟨privdata, none, pdError⟩
  | some device, some umem =>
      match ioctlUmemSgmap kernel sgmap privdata mem (size.setWidth 64) with
      | (after, .error _) => ⟨after, some umem, pdError⟩
      | (after, .ok handleId) =>
          let named := { umem with pciHandle := some device, handleId := handleId }
          match ioctlUmemSgget sgget after ⟨handleId, true, pdRequestedNents size⟩ with
          | .error _ => ⟨after.umemSgunmap handleId, some named, pdError⟩
          | .ok sg => ⟨after, some { named with sg := sg }, 0#32⟩

def Separate (previous next : Segment U64) : Prop :=
  next.length ≠ 0 ∧ next.address ≠ previous.address + BitVec.ofNat 64 previous.length

/-- The entries that are copied when no merging was asked for. -/
def keptSg (sg : List (Segment U64)) (nonempty : sg ≠ []) : List (Segment U64) :=
  if (sg.getLast nonempty).length = 0 then sg.dropLast else sg

def InMergedForm (sg : List (Segment U64)) (nonempty : sg ≠ []) : Prop :=
  keptSg sg nonempty ≠ [] ∧ (keptSg sg nonempty).IsChain Separate

section Merging

theorem copy_kept (sg : List (Segment U64)) (nonempty : sg ≠ []) :
    copySg sg nonempty = (keptSg sg nonempty).map sgEntry := by
  rw [copySg, keptSg]
  split <;> rfl

theorem merge_separate_iff (front : List UmemSgEntry) (last : Segment U64)
    (rest : List (Segment U64)) :
    mergeSg front (sgEntry last) rest = front ++ (last :: rest).map sgEntry ↔
      (last :: rest).IsChain Separate := by
  induction rest generalizing front last with
  | nil => simp [mergeSg]
  | cons entry rest ih =>
      -- an entry that is merged or left out is missing at the end
      have shorter : ∀ other, mergeSg front other rest ≠
          front ++ (last :: entry :: rest).map sgEntry := by
        intro other same
        have lengths := congrArg List.length same
        have bound := (merge_sg_length front other rest).2
        rw [List.length_append, List.length_map, List.length_cons, List.length_cons] at lengths
        omega
      rw [mergeSg, List.isChain_cons_cons]
      by_cases adjoining : entry.address = (sgEntry last).addr + (sgEntry last).size
      · rw [if_pos adjoining]
        constructor
        · intro same
          exact absurd same (shorter _)
        · intro chain
          exact absurd adjoining chain.1.2
      · rw [if_neg adjoining]
        by_cases empty : entry.length = 0
        · rw [if_pos empty]
          constructor
          · intro same
            exact absurd same (shorter _)
          · intro chain
            exact absurd empty chain.1.1
        · rw [if_neg empty]
          have later := ih (front ++ [sgEntry last]) entry
          rw [List.append_assoc, List.singleton_append] at later
          rw [List.map_cons, later]
          constructor
          · intro chain
            exact ⟨⟨empty, adjoining⟩, chain⟩
          · intro chain
            exact chain.2

theorem merge_empty_last (front : List UmemSgEntry) (last : UmemSgEntry)
    (rest : List (Segment U64)) {entry : Segment U64} (empty : entry.length = 0) :
    mergeSg front last (rest ++ [entry]) = mergeSg front last rest := by
  induction rest generalizing front last with
  | nil => simp [mergeSg, empty]
  | cons first rest ih =>
      rw [List.cons_append, mergeSg, mergeSg]
      split
      · exact ih _ _
      · split
        · exact ih _ _
        · exact ih _ _

/-- Merging and copying give one list when there is nothing to merge. -/
theorem merge_copy_iff (sg : List (Segment U64)) (nonempty : sg ≠ []) :
    mergeSg [] (sgEntry (sg.head nonempty)) sg.tail = copySg sg nonempty ↔
      InMergedForm sg nonempty := by
  rw [copy_kept, InMergedForm, keptSg]
  split
  · rename_i empty
    have split := List.dropLast_append_getLast nonempty
    cases kept : sg.dropLast with
    | nil =>
        constructor
        · intro same
          have atLeast := (merge_sg_length [] (sgEntry (sg.head nonempty)) sg.tail).1
          rw [same] at atLeast
          exact absurd atLeast (by simp)
        · intro some_
          exact absurd rfl some_.1
    | cons first rest =>
        rw [kept, List.cons_append] at split
        have head : sg.head nonempty = first := by
          apply Option.some.inj
          rw [← List.head?_eq_some_head nonempty, ← split]
          rfl
        have tail : sg.tail = rest ++ [sg.getLast nonempty] := by
          conv_lhs => rw [← split]
          rfl
        rw [head, tail, merge_empty_last _ _ _ empty]
        have loop := merge_separate_iff [] first rest
        rw [List.nil_append] at loop
        rw [loop]
        simp
  · have split := List.cons_head_tail nonempty
    have loop := merge_separate_iff [] (sg.head nonempty) sg.tail
    rw [List.nil_append, split] at loop
    rw [loop]
    simp [nonempty]

end Merging

section Libraries

variable {kernel : Kernel} {sgmap : SgmapOutcome} {sgget : SggetOutcome} {privdata after : Privdata}
  {mem : U64} {size handleId : U32}

/-- `SGGET` of this entry goes through for an array of so many entries. -/
def Fetched (sgget : SggetOutcome) (entry : UmemEntry) (capacity : U32) : Prop :=
  sgget.Granted ∧ BitVec.ofNat 32 entry.sg.length ≤ capacity

def fetchedSg (entry : UmemEntry) (merged : Bool) : List UmemSgEntry :=
  if merged then mergeSg [] (sgEntry (entry.sg.head entry.mapped)) entry.sg.tail
  else copySg entry.sg entry.mapped

theorem umem_sgget_found {list : UmemSgList} {entry : UmemEntry}
    (found : after.umemFindEntryId list.handleId = some entry)
    (enough : BitVec.ofNat 32 entry.sg.length ≤ list.nents) :
    umemSgget after list = .ok (fetchedSg entry list.merged) := by
  simp only [umemSgget, found, if_neg (BitVec.not_lt.mpr enough), fetchedSg]
  split <;> rfl

theorem sgget_fetched {list : UmemSgList} {entry : UmemEntry}
    (found : after.umemFindEntryId list.handleId = some entry)
    (fetched : Fetched sgget entry list.nents) :
    ioctlUmemSgget sgget after list = .ok (fetchedSg entry list.merged) := by
  rcases fetched with ⟨⟨readList, vmallocSg, readEntries, writeEntries, writeList⟩, enough⟩
  simp [ioctlUmemSgget, readList, vmallocSg, readEntries, umem_sgget_found found enough,
    writeEntries, writeList]

theorem sgget_not_fetched {list : UmemSgList} {entry : UmemEntry}
    (found : after.umemFindEntryId list.handleId = some entry)
    (fails : ¬Fetched sgget entry list.nents) :
    ∃ errno, ioctlUmemSgget sgget after list = .error errno := by
  rw [ioctlUmemSgget]
  split
  · exact ⟨_, rfl⟩
  rename_i readList
  split
  · exact ⟨_, rfl⟩
  rename_i vmallocSg
  split
  · exact ⟨_, rfl⟩
  rename_i readEntries
  by_cases enough : BitVec.ofNat 32 entry.sg.length ≤ list.nents
  · rw [umem_sgget_found found enough]
    dsimp only
    split
    · rename_i written
      exact absurd ⟨⟨not_not.mp readList, not_not.mp vmallocSg, not_not.mp readEntries,
        written.1, written.2⟩, enough⟩ fails
    · exact ⟨_, rfl⟩
  · simp only [umemSgget, found, if_pos (BitVec.not_le.mp enough)]
    exact ⟨_, rfl⟩

/-- Nothing is mapped that was not before the call, and nothing under the handle. -/
def LeavesNothing (before after : Privdata) (handleId : U32) : Prop :=
  after.umemList = before.umemList ∧ after.umemFindEntryId handleId = none

/-- What a caller may expect of the two libraries on the same buffer, when `SGMAP` gave out
the handle. -/
structure MappingsAgree (privdata : Privdata) (mem : U64) (size handleId : U32) (c : PdMapped)
    (cpp : Privdata × Except Exception UserMemory) : Prop where
  succeed : c.ret = 0#32 ↔ ∃ object, cpp.2 = .ok object
  same : ∀ object, c.ret = 0#32 → cpp.2 = .ok object → ∃ umem, c.umem = some umem ∧
    umem.sg = object.sg ∧ umem.passes = ⟨mem, size.setWidth 64, handleId⟩
  leavesC : c.ret ≠ 0#32 → LeavesNothing privdata c.privdata handleId
  leavesCpp : ∀ exception, cpp.2 = .error exception → LeavesNothing privdata cpp.1 handleId

def Unused (privdata : Privdata) (handleId : U32) : Prop :=
  ∀ entry ∈ privdata.umemList, entry.id ≠ handleId

theorem leaves_nothing_iff {entry : UmemEntry} (id : entry.id = handleId)
    (added : after.umemList = privdata.umemList ++ [entry]) :
    LeavesNothing privdata (after.umemSgunmap handleId) handleId ↔ Unused privdata handleId := by
  constructor
  · intro nothing other member same
    have none_ := List.find?_eq_none.mp nothing.2
    rw [nothing.1] at none_
    exact none_ other member (by simpa using same)
  · intro unused
    have kept : (after.umemSgunmap handleId).umemList = privdata.umemList := by
      show after.umemList.eraseP _ = _
      rw [added, List.eraseP_append_right]
      · simp [id]
      · intro other member
        simpa using unused other member
    constructor
    · exact kept
    · rw [Privdata.umemFindEntryId, kept, List.find?_eq_none]
      intro other member
      simpa using unused other member

theorem more_nents (size : U32) {nents : U32} (enough : nents ≤ pdRequestedNents size) :
    nents ≤ requestedNents size := by
  have small := size.isLt
  have page : (BitVec.ofNat 32 pageSize).toNat = 4096 := by decide
  have one : (1#32).toNat = 1 := rfl
  have two : (2#32).toNat = 2 := rfl
  rw [BitVec.le_def, pdRequestedNents, BitVec.toNat_add, BitVec.toNat_udiv, page, one] at enough
  rw [BitVec.le_def, requestedNents, BitVec.toNat_add, BitVec.toNat_udiv, page, two]
  omega

variable {entry : UmemEntry}
  (mapped : ioctlUmemSgmap kernel sgmap privdata mem (size.setWidth 64) = (after, .ok handleId))
  (found : after.umemFindEntryId handleId = some entry)

include mapped found

theorem pd_map_fetched (fetched : Fetched sgget entry (pdRequestedNents size)) (device : PdDevice)
    (umem : PdUmem) :
    pdMapUserMemory kernel sgmap sgget privdata (some device) mem size (some umem) =
      ⟨after, some ⟨umem.vma, umem.size, handleId, fetchedSg entry true, some device⟩, 0#32⟩ := by
  have list := @sgget_fetched sgget after ⟨handleId, true, pdRequestedNents size⟩ _ found fetched
  simp only [pdMapUserMemory, mapped, list]

theorem pd_map_not_fetched (fails : ¬Fetched sgget entry (pdRequestedNents size))
    (device : PdDevice) (umem : PdUmem) : ∃ named,
    pdMapUserMemory kernel sgmap sgget privdata (some device) mem size (some umem) =
      ⟨after.umemSgunmap handleId, named, pdError⟩ := by
  rcases @sgget_not_fetched sgget after ⟨handleId, true, pdRequestedNents size⟩ _ found fails
    with ⟨errno, failed⟩
  simp only [pdMapUserMemory, mapped, failed]
  exact ⟨_, rfl⟩

theorem construct_fetched (fetched : Fetched sgget entry (requestedNents size)) (merged : Bool) :
    UserMemory.construct kernel sgmap sgget privdata mem size merged =
      (after, .ok ⟨mem, size, handleId, fetchedSg entry merged⟩) := by
  have list := @sgget_fetched sgget after ⟨handleId, merged, requestedNents size⟩ _ found fetched
  simp only [UserMemory.construct, mapped, list]

theorem construct_not_fetched (fails : ¬Fetched sgget entry (requestedNents size))
    (merged : Bool) :
    UserMemory.construct kernel sgmap sgget privdata mem size merged =
      (after.umemSgunmap handleId, .error .sgmapFailed) := by
  rcases @sgget_not_fetched sgget after ⟨handleId, merged, requestedNents size⟩ _ found fails
    with ⟨errno, failed⟩
  simp only [UserMemory.construct, mapped, failed]

end Libraries

theorem fetched_agree_iff {privdata after : Privdata} {mem : U64} {size handleId : U32}
    (entry : UmemEntry) (device : PdDevice) (umem : PdUmem) (merged : Bool) :
    MappingsAgree privdata mem size handleId
        ⟨after, some ⟨umem.vma, umem.size, handleId, fetchedSg entry true, some device⟩, 0#32⟩
        (after, .ok ⟨mem, size, handleId, fetchedSg entry merged⟩) ↔
      (umem.vma = mem ∧ umem.size = size.setWidth 64) ∧
        (merged = true ∨ InMergedForm entry.sg entry.mapped) := by
  have lists : fetchedSg entry true = fetchedSg entry merged ↔
      (merged = true ∨ InMergedForm entry.sg entry.mapped) := by
    rw [← merge_copy_iff]
    cases merged <;> simp [fetchedSg]
  rw [← lists]
  constructor
  · intro agree
    rcases agree.same _ rfl rfl with ⟨filled, is, sameList, passes⟩
    cases is
    have fields := UmemHandle.mk.inj passes
    exact ⟨⟨fields.1, fields.2.1⟩, sameList⟩
  · intro facts
    rcases facts with ⟨⟨vma, size⟩, sameList⟩
    constructor
    · exact ⟨fun _ => ⟨_, rfl⟩, fun _ => rfl⟩
    · intro object _ is
      cases is
      refine ⟨_, rfl, sameList, ?_⟩
      rw [PdUmem.passes, vma, size]
    · intro failed
      exact absurd rfl failed
    · intro exception is
      cases is

/-- The C library fails where it asks for too little, and never sets what it passes on. -/
theorem user_mappings_agree_iff {kernel : Kernel} {sgmap : SgmapOutcome} {privdata after : Privdata}
    {mem : U64} {size handleId : U32} (sgget : SggetOutcome) (merged : Bool) (device : PdDevice)
    (umem : PdUmem)
    (mapped : ioctlUmemSgmap kernel sgmap privdata mem (size.setWidth 64) =
      (after, .ok handleId)) :
    ∃ entry, after.umemFindEntryId handleId = some entry ∧
      (MappingsAgree privdata mem size handleId
          (pdMapUserMemory kernel sgmap sgget privdata (some device) mem size (some umem))
          (UserMemory.construct kernel sgmap sgget privdata mem size merged) ↔
        (Fetched sgget entry (pdRequestedNents size) ∧
          (umem.vma = mem ∧ umem.size = size.setWidth 64) ∧
          (merged = true ∨ InMergedForm entry.sg entry.mapped)) ∨
        (¬Fetched sgget entry (requestedNents size) ∧ Unused privdata handleId)) := by
  rcases sgmap_adds mapped with ⟨_, _, _, nonempty, added⟩
  have listed : (after.umemFindEntryId handleId).isSome := by
    rw [Privdata.umemFindEntryId, added, List.find?_isSome]
    exact ⟨_, List.mem_append_right _ List.mem_cons_self, by simp⟩
  rcases Option.isSome_iff_exists.mp listed with ⟨entry, found⟩
  apply Exists.intro entry
  apply And.intro found
  by_cases less : Fetched sgget entry (pdRequestedNents size)
  · have more : Fetched sgget entry (requestedNents size) := ⟨less.1, more_nents size less.2⟩
    rw [pd_map_fetched mapped found less device umem, construct_fetched mapped found more merged,
      fetched_agree_iff entry device umem merged]
    simp [less, more]
  · rcases pd_map_not_fetched mapped found less device umem with ⟨named, c⟩
    rw [c]
    by_cases more : Fetched sgget entry (requestedNents size)
    · rw [construct_fetched mapped found more merged]
      constructor
      · intro agree
        exact absurd (agree.succeed.mpr ⟨_, rfl⟩) pd_error_ne
      · intro either
        rcases either with ⟨fetched, _⟩ | ⟨fails, _⟩
        · exact absurd fetched less
        · exact absurd more fails
    · rw [construct_not_fetched mapped found more merged]
      have unmapped := leaves_nothing_iff rfl added
      constructor
      · intro agree
        exact Or.inr ⟨more, unmapped.mp (agree.leavesC pd_error_ne)⟩
      · intro either
        rcases either with ⟨fetched, _⟩ | ⟨_, unused⟩
        · exact absurd fetched less
        · have nothing := unmapped.mpr unused
          constructor
          · constructor
            · intro is
              exact absurd is pd_error_ne
            · intro succeeds
              rcases succeeds with ⟨object, is⟩
              cases is
          · intro object is
            exact absurd is pd_error_ne
          · intro _
            exact nothing
          · intro _ _
            exact nothing

def uninitialised : PdUmem := ⟨0#64, 0#64, 0#32, [], none⟩

theorem user_mappings_agree_iff_two_pages :
    ∃ entry, (ioctlUmemSgmap plainKernel sgmapGranted noMappings 0x7ff0#64 32#64).1.umemFindEntryId
        0#32 = some entry ∧
      (MappingsAgree noMappings 0x7ff0#64 32#32 0#32
          (pdMapUserMemory plainKernel sgmapGranted sggetGranted noMappings (some ⟨3⟩) 0x7ff0#64
            32#32 (some uninitialised))
          (UserMemory.construct plainKernel sgmapGranted sggetGranted noMappings 0x7ff0#64 32#32
            true) ↔
        (Fetched sggetGranted entry (pdRequestedNents 32#32) ∧
          (uninitialised.vma = 0x7ff0#64 ∧ uninitialised.size = 32#64) ∧
          (true = true ∨ InMergedForm entry.sg entry.mapped)) ∨
        (¬Fetched sggetGranted entry (requestedNents 32#32) ∧ Unused noMappings 0#32)) :=
  user_mappings_agree_iff sggetGranted true ⟨3⟩ uninitialised rfl

/-- The buffer lies across the end of a page: the C library asks for one entry, and fails.
Where it succeeds, `vma` and `size` stay what they were. -/
theorem c_library_differs :
    (pdMapUserMemory plainKernel sgmapGranted sggetGranted noMappings (some ⟨3⟩) 0x7ff0#64 32#32
        (some uninitialised)).ret = pdError ∧
      ¬MappingsAgree noMappings 0x7ff0#64 32#32 0#32
        (pdMapUserMemory plainKernel sgmapGranted sggetGranted noMappings (some ⟨3⟩) 0x7ff0#64 32#32
          (some uninitialised))
        (UserMemory.construct plainKernel sgmapGranted sggetGranted noMappings 0x7ff0#64 32#32
          true) ∧
      ¬MappingsAgree noMappings 0x7000#64 32#32 0#32
        (pdMapUserMemory plainKernel sgmapGranted sggetGranted noMappings (some ⟨3⟩) 0x7000#64 32#32
          (some uninitialised))
        (UserMemory.construct plainKernel sgmapGranted sggetGranted noMappings 0x7000#64 32#32
          true) := by
  constructor
  · rfl
  constructor
  · intro agree
    exact absurd (agree.succeed.mpr ⟨_, rfl⟩) pd_error_ne
  · intro agree
    rcases agree.same _ rfl rfl with ⟨umem, is, _, passes⟩
    cases is
    exact absurd passes (by decide)

end FpgaPcie.Driver.Umem
