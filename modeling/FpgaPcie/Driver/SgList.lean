import FpgaPcie.Driver.UserMemoryExact
import Mathlib.Data.List.Chain

/-!
# The scatter/gather list in the caller's array

`pcidriver_umem_sgget` with the array it writes to, entry by entry. Of an array that has
room it writes no more than the mapping has entries, and what `nents` counts then names the
bytes of the mapping, merged or not.
-/

namespace FpgaPcie.Driver.Umem

open FpgaPcie.Segments

set_option autoImplicit false

/-- A write to the caller's array; `none` is a write outside of it. -/
def store (sg : List UmemSgEntry) (index : ℕ) (entry : UmemSgEntry) : Option (List UmemSgEntry) :=
  if index < sg.length then some (sg.set index entry) else none

/-- `sg_dma_address` and `sg_dma_len`, which is an `unsigned int`. -/
def dmaEntry (entry : Segment U64) : UmemSgEntry :=
  ⟨entry.address, (BitVec.ofNat 32 entry.length).setWidth 64⟩

/-- The loop behind the first entry, for `PCIDRIVER_SG_MERGED`. -/
def mergeInto : List (Segment U64) → List UmemSgEntry → ℕ → Option (List UmemSgEntry × ℕ)
  | [], sg, idx => some (sg, idx)
  | entry :: rest, sg, idx =>
      let cur := dmaEntry entry
      match sg[idx]? with
      | none => none
      | some last =>
          if cur.addr = last.addr + last.size then
            (store sg idx { last with size := last.size + cur.size }).bind fun sg =>
              mergeInto rest sg idx
          else if cur.size = 0#64 then mergeInto rest sg idx
          else (store sg (idx + 1) cur).bind fun sg => mergeInto rest sg (idx + 1)

def copyInto : List (Segment U64) → List UmemSgEntry → ℕ → Option (List UmemSgEntry)
  | [], sg, _ => some sg
  | entry :: rest, sg, i => (store sg i (dmaEntry entry)).bind fun sg => copyInto rest sg (i + 1)

structure SgGot where
  result : Except Errno Unit
  sg : List UmemSgEntry
  nents : U32

/-- `pcidriver_umem_sgget` on the array `sg`; `none` where it leaves the array. -/
def pcidriverUmemSgget (privdata : Privdata) (list : UmemSgList) (sg : List UmemSgEntry) :
    Option SgGot :=
  match privdata.umemFindEntryId list.handleId with
  | none => some ⟨.error .einval, sg, list.nents⟩
  | some entry =>
      let nents := BitVec.ofNat 32 entry.sg.length
      if list.nents < nents then some ⟨.error .einval, sg, list.nents⟩
      else if list.merged then
        (store sg 0 (dmaEntry (entry.sg.head entry.mapped))).bind fun sg =>
          (mergeInto entry.sg.tail sg 0).map fun (sg, idx) =>
            ⟨.ok (), sg, BitVec.ofNat 32 (idx + 1)⟩
      else
        (copyInto entry.sg sg 0).bind fun sg =>
          sg[(nents - 1#32).toNat]?.map fun last =>
            ⟨.ok (), sg, if last.size = 0#64 then nents - 1#32 else nents⟩

/-- The widths of the driver's own fields: `nents` and each length are `unsigned int`. -/
structure InWords (sg : List (Segment U64)) : Prop where
  nents : sg.length < 2 ^ 32
  lengths : ∀ entry ∈ sg, entry.length < 2 ^ 32

section Words

variable {sg : List (Segment U64)} {entry : Segment U64}

theorem dma_entry_eq (short : entry.length < 2 ^ 32) : dmaEntry entry = sgEntry entry := by
  rw [dmaEntry, sgEntry, UmemSgEntry.mk.injEq]
  refine ⟨rfl, BitVec.eq_of_toNat_eq ?_⟩
  simp only [BitVec.toNat_setWidth, BitVec.toNat_ofNat]
  omega

theorem sg_entry_empty_iff (short : entry.length < 2 ^ 32) :
    (sgEntry entry).size = 0#64 ↔ entry.length = 0 := by
  rw [sgEntry, ← BitVec.toNat_inj, size_toNat (by omega)]
  rfl

theorem total_length_le (lengths : ∀ entry ∈ sg, entry.length < 2 ^ 32) :
    totalLength sg ≤ sg.length * (2 ^ 32 - 1) := by
  induction sg with
  | nil => exact Nat.le_refl 0
  | cons first rest ih =>
      have own := lengths first List.mem_cons_self
      have later := ih fun other member => lengths other (List.mem_cons_of_mem first member)
      rw [total_length_cons, List.length_cons]
      omega

/-- As many bytes as the words can count are less than the addresses there are. -/
theorem InWords.total (words : InWords sg) : totalLength sg < 2 ^ 64 := by
  have nents := words.nents
  have bound := total_length_le words.lengths
  omega

end Words

section Loops

variable {front spare : List UmemSgEntry} {last : UmemSgEntry} {rest : List (Segment U64)}

theorem store_at (front spare : List UmemSgEntry) (last entry : UmemSgEntry) :
    store (front ++ last :: spare) front.length entry = some (front ++ entry :: spare) := by
  rw [store, if_pos (by simp)]
  simp

theorem merge_sg_length (front : List UmemSgEntry) (last : UmemSgEntry)
    (rest : List (Segment U64)) : front.length + 1 ≤ (mergeSg front last rest).length ∧
      (mergeSg front last rest).length ≤ front.length + 1 + rest.length := by
  induction rest generalizing front last with
  | nil => simp [mergeSg]
  | cons entry rest ih =>
      simp only [mergeSg, List.length_cons]
      split
      · have := ih front { last with size := last.size + BitVec.ofNat 64 entry.length }
        omega
      · split
        · have := ih front last
          omega
        · have := ih (front ++ [last]) (sgEntry entry)
          rw [List.length_append, List.length_singleton] at this
          omega

/-- The loop leaves the merged list, and behind it what was there. -/
theorem merge_into_writes (lengths : ∀ entry ∈ rest, entry.length < 2 ^ 32)
    (room : rest.length ≤ spare.length) : ∃ left,
      mergeInto rest (front ++ last :: spare) front.length =
        some (mergeSg front last rest ++ left, (mergeSg front last rest).length - 1) ∧
      left <:+ spare ∧
      (mergeSg front last rest).length + left.length = front.length + 1 + spare.length := by
  induction rest generalizing front last spare with
  | nil => exact ⟨spare, by simp [mergeInto, mergeSg], List.suffix_rfl, by simp [mergeSg]⟩
  | cons entry rest ih =>
      have short := lengths entry List.mem_cons_self
      have later : ∀ other ∈ rest, other.length < 2 ^ 32 := fun other member =>
        lengths other (List.mem_cons_of_mem entry member)
      rw [List.length_cons] at room
      have current : (front ++ last :: spare)[front.length]? = some last := by simp
      simp only [mergeInto, current, dma_entry_eq short, sg_entry_empty_iff short, mergeSg]
      by_cases adjoining : entry.address = last.addr + last.size
      · rw [if_pos adjoining, if_pos (show (sgEntry entry).addr = _ from adjoining), store_at]
        exact ih later (by omega)
      · rw [if_neg adjoining, if_neg (show ¬(sgEntry entry).addr = _ from adjoining)]
        by_cases empty : entry.length = 0
        · rw [if_pos empty, if_pos empty]
          exact ih later (by omega)
        · rw [if_neg empty, if_neg empty]
          cases spare with
          | nil => simp at room
          | cons next spare =>
              have stored : store (front ++ last :: next :: spare) (front.length + 1)
                  (sgEntry entry) = some (front ++ [last] ++ sgEntry entry :: spare) := by
                have at_ := store_at (front ++ [last]) spare next (sgEntry entry)
                rwa [List.length_append, List.length_singleton, List.append_assoc,
                  List.singleton_append] at at_
              obtain ⟨left, written, suffix, lengths_⟩ :=
                @ih (front ++ [last]) spare (sgEntry entry) later (by simpa using room)
              rw [List.length_append, List.length_singleton] at written lengths_
              refine ⟨left, ?_, suffix.trans (List.suffix_cons next spare), ?_⟩
              · rw [stored, Option.bind_some, written]
              · rw [List.length_cons]
                omega

theorem copy_into_writes {sg : List (Segment U64)}
    (lengths : ∀ entry ∈ sg, entry.length < 2 ^ 32) (room : sg.length ≤ spare.length) :
    copyInto sg (front ++ spare) front.length =
      some (front ++ (sg.map sgEntry ++ spare.drop sg.length)) := by
  induction sg generalizing front spare with
  | nil => simp [copyInto]
  | cons entry rest ih =>
      cases spare with
      | nil => simp at room
      | cons next spare =>
          have later := @ih (front ++ [sgEntry entry]) spare
            (fun other member => lengths other (List.mem_cons_of_mem entry member))
            (by simpa using room)
          rw [List.append_assoc, List.singleton_append, List.length_append, List.length_singleton]
            at later
          rw [copyInto, dma_entry_eq (lengths entry List.mem_cons_self), store_at, Option.bind_some,
            later]
          simp

end Loops

/-- An entry is not empty and does not start where the one before it ends. -/
def Apart (previous next : UmemSgEntry) : Prop :=
  next.size ≠ 0#64 ∧ next.addr ≠ previous.addr + previous.size

def Canonical (entries : List UmemSgEntry) : Prop := entries.IsChain Apart

section Canonical

variable {front : List UmemSgEntry} {last : UmemSgEntry}

theorem Canonical.grown (canonical : Canonical (front ++ [last])) {size : U64}
    (larger : last.size ≠ 0#64 → size ≠ 0#64) :
    Canonical (front ++ [{ last with size := size }]) := by
  rw [Canonical, List.isChain_append] at canonical ⊢
  refine ⟨canonical.1, List.isChain_singleton _, ?_⟩
  intro previous member next single
  have apart := canonical.2.2 previous member last (by simp)
  have same : next = { last with size := size } := by simpa using single.symm
  rw [same]
  exact ⟨larger apart.1, apart.2⟩

theorem Canonical.opened (canonical : Canonical (front ++ [last])) {next : UmemSgEntry}
    (apart : Apart last next) : Canonical (front ++ [last] ++ [next]) := by
  rw [List.append_assoc, List.singleton_append]
  exact List.isChain_append_cons_cons.mpr ⟨canonical, apart, List.isChain_singleton next⟩

theorem merge_sg_canonical {rest : List (Segment U64)} (canonical : Canonical (front ++ [last]))
    (small : last.size.toNat + totalLength rest < 2 ^ 64) :
    Canonical (mergeSg front last rest) := by
  induction rest generalizing front last with
  | nil => exact canonical
  | cons entry rest ih =>
      rw [total_length_cons] at small
      have length : (BitVec.ofNat 64 entry.length).toNat = entry.length := size_toNat (by omega)
      rw [mergeSg]
      split
      · have size : (last.size + BitVec.ofNat 64 entry.length).toNat =
            last.size.toNat + entry.length := by
          rw [BitVec.toNat_add, length, Nat.mod_eq_of_lt (by omega)]
        apply ih
        · apply canonical.grown
          intro some_ none_
          have zero := congrArg BitVec.toNat none_
          rw [size] at zero
          exact some_ (BitVec.eq_of_toNat_eq (by simp at zero; simp [zero.1]))
        · show (last.size + BitVec.ofNat 64 entry.length).toNat + totalLength rest < 2 ^ 64
          rw [size]
          omega
      · rename_i apart
        split
        · exact ih canonical (by omega)
        · rename_i some_
          apply ih
          · refine canonical.opened ⟨?_, apart⟩
            intro none_
            exact some_ (length.symm.trans (congrArg BitVec.toNat none_))
          · show (BitVec.ofNat 64 entry.length).toNat + totalLength rest < 2 ^ 64
            rw [length]
            omega

end Canonical

/-- The answer to a caller with room: `entries` at the front of the array, with nothing
touched behind as many entries as the mapping has. -/
structure Writes (entries : List UmemSgEntry) (mapping : List (Segment U64))
    (sg : List UmemSgEntry) (got : SgGot) : Prop where
  succeeds : got.result = .ok ()
  length : got.sg.length = sg.length
  untouched : got.sg.drop mapping.length = sg.drop mapping.length
  counted : got.nents.toNat = entries.length
  taken : got.sg.take entries.length = entries

section Written

variable {mapping : List (Segment U64)} {sg : List UmemSgEntry}

theorem ofNat_32 {count : ℕ} (small : count < 2 ^ 32) : (BitVec.ofNat 32 count).toNat = count := by
  rw [BitVec.toNat_ofNat, Nat.mod_eq_of_lt small]

theorem merged_writes (words : InWords mapping) (nonempty : mapping ≠ [])
    (room : mapping.length ≤ sg.length) : ∃ got,
      (store sg 0 (dmaEntry (mapping.head nonempty))).bind (fun sg =>
        (mergeInto mapping.tail sg 0).map fun (sg, idx) =>
          SgGot.mk (.ok ()) sg (BitVec.ofNat 32 (idx + 1))) = some got ∧
      Writes (mergeSg [] (sgEntry (mapping.head nonempty)) mapping.tail) mapping sg got := by
  obtain ⟨first, rest, rfl⟩ := List.exists_cons_of_ne_nil nonempty
  obtain ⟨old, spare, rfl⟩ := List.exists_cons_of_ne_nil
    (List.ne_nil_of_length_pos (by rw [List.length_cons] at room; omega) : sg ≠ [])
  rw [List.length_cons, List.length_cons] at room
  have short := words.lengths first List.mem_cons_self
  have nents := words.nents
  rw [List.length_cons] at nents
  obtain ⟨left, written, suffix, lengths⟩ := @merge_into_writes [] spare (sgEntry first) rest
    (fun entry member => words.lengths entry (List.mem_cons_of_mem first member)) (by omega)
  obtain ⟨atLeast, atMost⟩ := merge_sg_length [] (sgEntry first) rest
  rw [List.head_cons, List.tail_cons]
  generalize mergeSg [] (sgEntry first) rest = merged at *
  rw [List.nil_append, List.length_nil] at written
  rw [List.length_nil] at atLeast atMost lengths
  have stored : store (old :: spare) 0 (dmaEntry first) = some (sgEntry first :: spare) := by
    rw [dma_entry_eq short]
    exact store_at [] spare old (sgEntry first)
  refine ⟨⟨.ok (), merged ++ left, BitVec.ofNat 32 (merged.length - 1 + 1)⟩, ?_, ?_⟩
  · simp only [stored, Option.bind_some, written, Option.map_some]
  · obtain ⟨used, split⟩ := suffix
    constructor
    · rfl
    · rw [List.length_append, List.length_cons]
      omega
    · -- what is left of the array lies behind the entries the loop wrote
      have behind : (old :: spare).drop merged.length = left := by
        rw [← split, ← List.cons_append]
        apply List.drop_left'
        rw [← split, List.length_append] at lengths
        rw [List.length_cons]
        omega
      obtain ⟨more, total⟩ := Nat.exists_eq_add_of_le atMost
      rw [List.length_cons, show rest.length + 1 = merged.length + more by omega, ← List.drop_drop,
        ← List.drop_drop, behind, List.drop_left]
    · rw [Nat.sub_add_cancel atLeast, ofNat_32 (by omega)]
    · exact List.take_left

theorem copied_writes (words : InWords mapping) (nonempty : mapping ≠ [])
    (room : mapping.length ≤ sg.length) : ∃ got,
      (copyInto mapping sg 0).bind (fun sg =>
        sg[(BitVec.ofNat 32 mapping.length - 1#32).toNat]?.map fun last =>
          SgGot.mk (.ok ()) sg (if last.size = 0#64 then BitVec.ofNat 32 mapping.length - 1#32
            else BitVec.ofNat 32 mapping.length)) = some got ∧
      Writes (copySg mapping nonempty) mapping sg got := by
  have atLeast : 0 < mapping.length := List.length_pos_iff.mpr nonempty
  have counted := ofNat_32 words.nents
  have one : (1#32).toNat = 1 := rfl
  have fewer : (BitVec.ofNat 32 mapping.length - 1#32).toNat = mapping.length - 1 := by
    rw [BitVec.toNat_sub_of_le (by rw [BitVec.le_def, counted, one]; omega), counted, one]
  have written := @copy_into_writes [] sg mapping words.lengths room
  rw [List.nil_append, List.length_nil, List.nil_append] at written
  have lastWritten : (mapping.map sgEntry ++ sg.drop mapping.length)[mapping.length - 1]? =
      some (sgEntry (mapping.getLast nonempty)) := by
    rw [List.getElem?_append_left (by rw [List.length_map]; omega), List.getElem?_map,
      ← List.getLast?_eq_getElem?, List.getLast?_eq_some_getLast nonempty, Option.map_some]
  have short := words.lengths _ (List.getLast_mem nonempty)
  refine ⟨_, by rw [written, Option.bind_some, fewer, lastWritten, Option.map_some], ?_⟩
  constructor
  · rfl
  · rw [List.length_append, List.length_map, List.length_drop]
    omega
  · exact List.drop_left' (List.length_map _)
  · simp only [sg_entry_empty_iff short, copySg]
    split
    · rw [fewer, List.length_map, List.length_dropLast]
    · rw [counted, List.length_map]
  · rw [copySg]
    split
    · rw [List.length_map, List.length_dropLast,
        List.take_append_of_le_length (by rw [List.length_map]; omega), ← List.map_take,
        ← List.dropLast_eq_take]
    · exact List.take_left

end Written

theorem umem_sgget_writes (privdata : Privdata) (list : UmemSgList) {sg : List UmemSgEntry}
    {entry : UmemEntry} (found : privdata.umemFindEntryId list.handleId = some entry)
    (words : InWords entry.sg) (enough : entry.sg.length ≤ list.nents.toNat)
    (room : entry.sg.length ≤ sg.length) : ∃ got entries,
      pcidriverUmemSgget privdata list sg = some got ∧ umemSgget privdata list = .ok entries ∧
        Writes entries entry.sg sg got := by
  have accepted : ¬list.nents < BitVec.ofNat 32 entry.sg.length := by
    rw [BitVec.lt_def, ofNat_32 words.nents]
    exact Nat.not_lt.mpr enough
  simp only [pcidriverUmemSgget, umemSgget, found, if_neg accepted]
  cases list.merged with
  | true =>
      obtain ⟨got, call, writes⟩ := merged_writes words entry.mapped room
      exact ⟨got, _, call, rfl, writes⟩
  | false =>
      obtain ⟨got, call, writes⟩ := copied_writes words entry.mapped room
      exact ⟨got, _, call, rfl, writes⟩

/-- What the caller of a successful call finds: the bytes of the mapping, in entries that are
not more than those of the mapping, and merged where that was asked for. -/
structure Describes (mapping : List (Segment U64)) (merged : Bool) (sg : List UmemSgEntry)
    (got : SgGot) : Prop where
  succeeds : got.result = .ok ()
  length : got.sg.length = sg.length
  untouched : got.sg.drop mapping.length = sg.drop mapping.length
  some_ : 1 ≤ got.nents.toNat
  atMost : got.nents.toNat ≤ mapping.length
  bytes : expandAll (segmentsOf (got.sg.take got.nents.toNat)) = expandAll mapping
  canonical : merged = true → Canonical (got.sg.take got.nents.toNat)

section Entries

variable {privdata : Privdata} {list : UmemSgList} {entry : UmemEntry} {entries : List UmemSgEntry}

theorem sgget_length (found : privdata.umemFindEntryId list.handleId = some entry)
    (result : umemSgget privdata list = .ok entries) : entries.length ≤ entry.sg.length := by
  have positive : 0 < entry.sg.length := List.length_pos_iff.mpr entry.mapped
  simp only [umemSgget, found] at result
  split at result
  · cases result
  · split at result
    · cases result
      have bounds := merge_sg_length [] (sgEntry (entry.sg.head entry.mapped)) entry.sg.tail
      rw [List.length_tail, List.length_nil] at bounds
      omega
    · cases result
      rw [copySg]
      split
      · rw [List.length_map, List.length_dropLast]
        omega
      · rw [List.length_map]

theorem sgget_canonical (found : privdata.umemFindEntryId list.handleId = some entry)
    (result : umemSgget privdata list = .ok entries) (merged : list.merged = true)
    (small : totalLength entry.sg < 2 ^ 64) : Canonical entries := by
  simp only [umemSgget, found, if_pos merged] at result
  split at result
  · cases result
  · cases result
    have split := List.cons_head_tail entry.mapped
    rw [← split, total_length_cons] at small
    apply merge_sg_canonical
    · exact List.isChain_singleton _
    · rw [sgEntry, size_toNat (by omega)]
      exact small

end Entries

/-- A caller without room gets an error and its array as it was; one with room gets the
mapping, whatever was in its array. -/
theorem sg_list_describes_mapping (privdata : Privdata) (list : UmemSgList)
    (sg : List UmemSgEntry) (capacity : sg.length = list.nents.toNat) (entry : UmemEntry)
    (found : privdata.umemFindEntryId list.handleId = some entry) (words : InWords entry.sg)
    (positive : 0 < totalLength entry.sg) :
    (list.nents.toNat < entry.sg.length →
      pcidriverUmemSgget privdata list sg = some ⟨.error .einval, sg, list.nents⟩) ∧
    (entry.sg.length ≤ list.nents.toNat → ∃ got,
      pcidriverUmemSgget privdata list sg = some got ∧
        Describes entry.sg list.merged sg got) := by
  constructor
  · intro short
    have refused : list.nents < BitVec.ofNat 32 entry.sg.length := by
      rwa [BitVec.lt_def, ofNat_32 words.nents]
    simp only [pcidriverUmemSgget, found, if_pos refused]
  · intro enough
    obtain ⟨got, entries, call, result, writes⟩ :=
      umem_sgget_writes privdata list found words enough (by rw [capacity]; exact enough)
    obtain ⟨same, copied, bytes⟩ := sgget_bytes found enough words.total
    rw [result, Except.ok.injEq] at copied
    subst copied
    refine ⟨got, call, writes.succeeds, writes.length, writes.untouched, ?_, ?_, ?_, ?_⟩
    · rw [writes.counted]
      apply List.length_pos_iff.mpr
      intro same
      subst same
      -- no entries would be no bytes
      have none_ := congrArg List.length bytes
      rw [expand_all_length, expand_all_length, segmentsOf, List.map_nil, total_length_nil] at none_
      omega
    · rw [writes.counted]
      exact sgget_length found result
    · rw [writes.counted, writes.taken, bytes]
    · intro merged
      rw [writes.counted, writes.taken]
      exact sgget_canonical found result merged words.total

/-- An empty entry first, then two that adjoin, an empty one and one apart. -/
def fiveEntries : UmemEntry where
  id := 3#32
  pages := []
  sg := [⟨0x9000#64, 0⟩, ⟨0x1000#64, 16⟩, ⟨0x1010#64, 8⟩, ⟨0x4000#64, 0⟩, ⟨0x8000#64, 4⟩]
  mapped := by simp

theorem sg_list_describes_mapping_five_entries : ∃ got,
    pcidriverUmemSgget ⟨[fiveEntries], 4#32⟩ ⟨3#32, true, 6#32⟩ (List.replicate 6 ⟨7#64, 7#64⟩) =
      some got ∧
    Describes fiveEntries.sg true (List.replicate 6 ⟨7#64, 7#64⟩) got :=
  (sg_list_describes_mapping ⟨[fiveEntries], 4#32⟩ ⟨3#32, true, 6#32⟩
    (List.replicate 6 ⟨7#64, 7#64⟩) (by decide) fiveEntries (by rfl) ⟨by decide, by decide⟩
    (by decide)).2 (by decide)

end FpgaPcie.Driver.Umem
