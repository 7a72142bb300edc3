import FpgaPcie.Mprace.PendingEdits
import FpgaPcie.Mprace.SendExact

/-!
# A filled list, sent and restored

What a send makes of a list as `fillDescriptorList` left it. Of the descriptors it sends
only the first one can be empty: an offset at the end of a descriptor is looked for in that
descriptor and not in the next. Restoring gives back every descriptor as it was.
-/

namespace FpgaPcie.Mprace

open FpgaPcie.Segments DMADescriptorWG

set_option autoImplicit false

/-- Some of the descriptors, taken from the front, end at `offset`. -/
def OnBoundary (offset : ℕ) (list : List DMADescriptorWG) : Prop :=
  ∃ front back, list = front ++ back ∧ front ≠ [] ∧ totalLength (segments front) = offset

section Boundary

variable {offset : ℕ} {before after : List DMADescriptorWG} {d : DMADescriptorWG} {block : ℕ}

/-- The initial descriptor, in which the offset was found, is where a boundary can be. -/
theorem on_boundary_iff (start : totalLength (segments before) + block = offset)
    (inside : block ≤ d.native.length.toNat) (strict : before ≠ [] → 0 < block) :
    OnBoundary offset (before ++ d :: after) ↔ block = d.native.length.toNat := by
  constructor
  · intro present
    rcases present with ⟨front, back, split, some_, ends⟩
    rcases List.append_eq_append_iff.mp split with ⟨part, longer, -⟩ | ⟨part, shorter, -⟩
    · cases part with
      | nil =>
          rw [List.append_nil] at longer
          subst longer
          have := strict some_
          omega
      | cons first rest =>
          have own : first = d := by
            rw [longer, List.append_assoc] at split
            exact (List.cons.inj (List.append_cancel_left split)).1.symm
          rw [longer, segments_append, total_length_append, own, segments_cons, total_length_cons,
            segment_length] at ends
          omega
    · have nonempty : before ≠ [] := by
        rw [shorter]
        exact List.append_ne_nil_of_left_ne_nil some_ part
      rw [shorter, segments_append, total_length_append] at start
      have := strict nonempty
      omega
  · intro whole
    refine ⟨before ++ [d], after, by simp, by simp, ?_⟩
    rw [segments_append, total_length_append, segments_cons, segments_nil, total_length_cons,
      total_length_nil, segment_length]
    omega

end Boundary

theorem segments_positive {list : List DMADescriptorWG}
    (positive : ∀ d ∈ list, 0 < d.native.length.toNat) :
    ∀ segment ∈ segments list, 0 < segment.length := by
  intro segment member
  obtain ⟨d, found, rfl⟩ := List.mem_map.mp member
  exact positive d found

theorem program_list_positive_iff (word : U32) (buf : BufId) {size : U32} {request : Request}
    {list : List DMADescriptorWG} (filled : AsFilled list size)
    (distinct : (list.map DMADescriptorWG.pa).Nodup) (plain : hasLast word = false)
    (positive : ∀ d ∈ list, 0 < d.native.length.toNat) (some_ : 0 < byteCount request)
    (range : byteOffset request + byteCount request ≤ size.toNat) :
    ∃ programmed visited, programList word buf size request list = some programmed ∧
      (∀ fuel, list.length ≤ fuel →
        walkChain programmed.list fuel programmed.temp.native = some visited) ∧
      ((∀ segment ∈ visited, 0 < segment.length) ↔ ¬OnBoundary (byteOffset request) list) := by
  rcases program_list_cut word buf size request list filled range with
    ⟨before, d, after, block, cut, strict, programmed⟩ |
    ⟨before, d, middle, last, after, block, rest, cut, strict, taken, programmed⟩
  · refine ⟨_, _, programmed, fun fuel enough => single_program_walk word buf request before after d
      block plain _ fuel (Nat.lt_of_lt_of_le (List.length_pos_iff.mpr filled.nonempty) enough), ?_⟩
    have fits := cut.fits
    rw [cut.split, on_boundary_iff cut.start (by omega) strict]
    simp only [List.mem_singleton, forall_eq, some_, true_iff]
    omega
  · refine ⟨_, _, programmed, fun fuel enough => spanning_program_walk word buf request list before
      middle after d last block rest cut plain filled.linked filled.cleared distinct fuel enough, ?_⟩
    have split := cut.split
    have inside := cut.inside
    have middlePositive : ∀ segment ∈ segments middle, 0 < segment.length :=
      segments_positive fun other member => positive other (by rw [split]; simp [member])
    have lastPositive := positive last (by rw [split]; simp)
    have restPositive : 0 < rest.toNat := by
      rcases taken with whole | part
      · rw [whole]
        exact lastPositive
      · exact part
    rw [split, on_boundary_iff cut.start inside strict]
    constructor
    · intro all
      have first := all _ List.mem_cons_self
      simp only at first
      omega
    · intro notEnd segment member
      rcases List.mem_cons.mp member with rfl | later
      · show 0 < d.native.length.toNat - block.toNat
        omega
      · rcases List.mem_append.mp later with between | final
        · exact middlePositive segment between
        · rw [List.mem_singleton.mp final]
          exact restPositive

/-- An offset at the end of a descriptor sends that descriptor empty; nothing else does. -/
theorem no_empty_descriptor_iff (engine : DMAEngineWG) (b : BufId) (buf : DMABuffer)
    (request : Request) (ch : Channel) (filled : AsFilled buf.descriptors buf.size)
    (distinct : (buf.descriptors.map DMADescriptorWG.pa).Nodup)
    (positive : ∀ d ∈ buf.descriptors, 0 < d.native.length.toNat)
    (some_ : 1 ≤ request.count.toNat)
    (range : 4 * (request.offset.toNat + request.count.toNat) ≤ buf.size.toNat) :
    ∃ sent edited visited, engine.sendDescriptorList b buf request ch = some (sent, edited) ∧
      (∀ fuel, edited.descriptors.length ≤ fuel →
        walkChain edited.descriptors fuel (sent.channel ch) = some visited) ∧
      ((∀ segment ∈ visited, 1 ≤ segment.length) ↔
        ¬OnBoundary (4 * request.offset.toNat) buf.descriptors) := by
  obtain ⟨offset, count⟩ := exact_range request buf.size range
  obtain ⟨programmed, visited, result, walk, positive_⟩ :=
    program_list_positive_iff (controlWord engine.oldRegisters engine.useInterrupts request) b filled
      distinct (control_word_plain _ _ _) positive (by rw [count]; omega)
      (by rw [offset, count]; omega)
  rw [offset] at positive_
  refine ⟨_, _, visited, by rw [DMAEngineWG.sendDescriptorList, result], ?_, positive_⟩
  intro fuel enough
  simp only [DMAEngineWG.write, Function.update_self]
  exact walk fuel (by simpa [program_list_length _ _ _ _ _ result] using enough)

def twoPages : DMABuffer where
  memory := .user [⟨0x10000#64, 4096#64⟩, ⟨0x30000#64, 4096#64⟩]
  size := 8192
  descriptors := fillDescriptorList (.user [⟨0x10000#64, 4096#64⟩, ⟨0x30000#64, 4096#64⟩]) 8192
    [0x100#64, 0x140#64]
  host := []
  bounce := []

theorem two_pages_filled : AsFilled twoPages.descriptors twoPages.size :=
  fill_descriptor_list_filled (.user [⟨0x10000#64, 4096#64⟩, ⟨0x30000#64, 4096#64⟩]) 8192
    [0x100#64, 0x140#64] ⟨by decide, by decide, by decide⟩ rfl

def secondPage : Request := ⟨1, 0x20, 1, 1024, true⟩

def newEngine : DMAEngineWG := DMAEngineWG.construct false (fun _ => unset.native) 0

theorem no_empty_descriptor_iff_two_pages :
    ∃ sent edited visited, newEngine.sendDescriptorList 7 twoPages secondPage 0 =
        some (sent, edited) ∧
      (∀ fuel, edited.descriptors.length ≤ fuel →
        walkChain edited.descriptors fuel (sent.channel 0) = some visited) ∧
      ((∀ segment ∈ visited, 1 ≤ segment.length) ↔
        ¬OnBoundary (4 * secondPage.offset.toNat) twoPages.descriptors) :=
  no_empty_descriptor_iff newEngine 7 twoPages secondPage 0 two_pages_filled (by decide) (by decide)
    (by decide) (by decide)

/-- The channel gets the first page with no bytes of it left, linked to the second. -/
theorem first_page_sent_empty : ∃ sent edited,
    newEngine.sendDescriptorList 7 twoPages secondPage 0 = some (sent, edited) ∧
    walkChain edited.descriptors 2 (sent.channel 0) = some [⟨0x11000#64, 0⟩, ⟨0x30000#64, 4⟩] ∧
    ¬∀ fuel visited, walkChain edited.descriptors fuel (sent.channel 0) = some visited →
      ∀ segment ∈ visited, 1 ≤ segment.length := by
  refine ⟨_, _, rfl, by decide, ?_⟩
  intro all
  exact absurd (all 2 _ rfl ⟨0x11000#64, 0⟩ (by decide)) (by decide)

/-- Send on a channel and restore it, and the list is the one that was filled. -/
theorem restore_undoes_send {world : World} {b : BufId} {buf : DMABuffer}
    (live : world.bufs b = some buf) (filled : AsFilled buf.descriptors buf.size)
    (ch : Channel) (request : Request)
    (range : 4 * (request.offset.toNat + request.count.toNat) ≤ buf.size.toNat) :
    ∃ sent edited, world.engine.sendDescriptorList b buf request ch = some (sent, edited) ∧
      ({ world.setBuf b edited with engine := sent } : World).restoreSavedData ch =
        some { world with engine := sent } := by
  obtain ⟨offset, count⟩ := exact_range request buf.size range
  obtain ⟨programmed, data, result, -, saved, named, -, undone⟩ :=
    program_clean_undone
      (controlWord world.engine.oldRegisters world.engine.useInterrupts request) b request filled
      (by rw [offset, count]; omega)
  refine ⟨_, _, by rw [DMAEngineWG.sendDescriptorList, result], ?_⟩
  simp only [saved, DMAEngineWG.recordIfSaved, World.restoreSavedData, write_saved_data,
    DMAEngineWG.recordSaved, Function.update_self, named, World.setBuf, undone, Option.map_some,
    Function.update_idem, Option.some.injEq, World.mk.injEq, true_and]
  rw [Function.update_eq_self_iff, live]

theorem restore_undoes_send_two_pages : ∃ sent edited,
    newEngine.sendDescriptorList 7 twoPages secondPage 1 = some (sent, edited) ∧
      World.restoreSavedData ⟨sent, (World.setBuf ⟨newEngine, fun _ => some twoPages⟩ 7 edited).bufs⟩
        1 = some ⟨sent, fun _ => some twoPages⟩ :=
  @restore_undoes_send ⟨newEngine, fun _ => some twoPages⟩ 7 twoPages rfl two_pages_filled 1
    secondPage (by decide)

end FpgaPcie.Mprace
