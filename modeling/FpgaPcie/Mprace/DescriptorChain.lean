import FpgaPcie.Mprace.SendDescriptorList

/-!
# Descriptor chains in memory

`AsFilled` is the shape `fillDescriptorList` gives a list: controls cleared,
every descriptor linked to the bus address of its successor, the lengths adding
up to the buffer. `walkChain` is the engine's side: start from the descriptor in
the channel registers, fetch the next one by its bus address, stop at the first
control word with `CTRL_LAST`.
-/

namespace FpgaPcie.Mprace

open FpgaPcie.Segments DMADescriptorWG

set_option autoImplicit false

def segments (list : List DMADescriptorWG) : List (Segment U64) :=
  list.map fun d => d.native.segment

def Linked : List DMADescriptorWG → Prop
  | [] => True
  | [d] => d.getNextDescriptorAddress = 0
  | d :: next :: rest => d.getNextDescriptorAddress = next.pa ∧ Linked (next :: rest)

/-- Zero lengths are allowed: `KERNEL_PIECES` buffers smaller than their number of
pieces have them. -/
structure AsFilled (list : List DMADescriptorWG) (size : U32) : Prop where
  nonempty : list ≠ []
  cleared : ∀ d ∈ list, d.native.control = 0
  linked : Linked list
  covers : totalLength (segments list) = size.toNat

@[simp] theorem segments_nil : segments [] = [] := rfl

@[simp] theorem segments_cons (d : DMADescriptorWG) (rest : List DMADescriptorWG) :
    segments (d :: rest) = d.native.segment :: segments rest := rfl

@[simp] theorem segments_append (left right : List DMADescriptorWG) :
    segments (left ++ right) = segments left ++ segments right := by
  simp [segments]

@[simp] theorem segment_length (d : DMADescriptorWG) :
    d.native.segment.length = d.native.length.toNat := rfl

theorem get_length_toNat (d : DMADescriptorWG) : d.getLength.toNat = d.native.length.toNat := by
  have bound := d.native.length.isLt
  simp only [getLength, BitVec.toNat_setWidth]
  omega

theorem Linked.tail {d : DMADescriptorWG} {rest : List DMADescriptorWG}
    (linked : Linked (d :: rest)) : Linked rest := by
  cases rest with
  | nil => trivial
  | cons next rest => exact linked.2

theorem Linked.suffix {before after : List DMADescriptorWG} (linked : Linked (before ++ after)) :
    Linked after := by
  induction before with
  | nil => exact linked
  | cons d rest ih => exact ih linked.tail

theorem modify_at {α : Type*} (before after : List α) (item : α) (edit : α → α) :
    (before ++ item :: after).modify before.length edit = before ++ edit item :: after := by
  induction before with
  | nil => rfl
  | cons first rest ih => simp [ih]

theorem getElem?_at {α : Type*} (before after : List α) (item : α) :
    (before ++ item :: after)[before.length]? = some item := by
  simp

/-- Index `before.length + 1 + middle.length`, past the initial descriptor. -/
theorem modify_past {α : Type*} (before middle after : List α) (first item : α) (edit : α → α) :
    (before ++ first :: (middle ++ item :: after)).modify (before.length + 1 + middle.length) edit =
      before ++ first :: (middle ++ edit item :: after) := by
  have regroup : ∀ later : List α, before ++ first :: (middle ++ later) =
      (before ++ first :: middle) ++ later := by simp
  have index : before.length + 1 + middle.length = (before ++ first :: middle).length := by
    simp only [List.length_append, List.length_cons]
    omega
  rw [regroup, regroup, index, modify_at]

theorem getElem?_past {α : Type*} (before middle after : List α) (first item : α) :
    (before ++ first :: (middle ++ item :: after))[before.length + 1 + middle.length]? =
      some item := by
  have regroup : before ++ first :: (middle ++ item :: after) =
      (before ++ first :: middle) ++ item :: after := by simp
  have index : before.length + 1 + middle.length = (before ++ first :: middle).length := by
    simp only [List.length_append, List.length_cons]
    omega
  rw [regroup, index, getElem?_at]

theorem modify_getElem? {α : Type*} (list : List α) (position index : ℕ) (edit : α → α) :
    (list.modify position edit)[index]? =
      list[index]?.map fun item => if index = position then edit item else item := by
  rw [List.getElem?_modify]
  by_cases here : index = position
  · subst here
    simp
  · simp [here, Ne.symm here]

theorem modify_if_getElem? {α : Type*} (chosen : Prop) [Decidable chosen] (list : List α)
    (position index : ℕ) (edit : α → α) :
    (if chosen then list.modify position edit else list)[index]? =
      list[index]?.map fun item => if chosen ∧ index = position then edit item else item := by
  by_cases taken : chosen
  · simp only [taken, if_true, true_and]
    exact modify_getElem? list position index edit
  · simp [taken]

/-- `none` when the fuel runs out or a link leads to no descriptor of the list. -/
def walkChain (list : List DMADescriptorWG) : ℕ → Descriptor → Option (List (Segment U64))
  | 0, _ => none
  | fuel + 1, current =>
      if hasLast current.control then some [current.segment]
      else match list.find? fun d => d.pa == current.nextBda with
        | none => none
        | some next => (walkChain list fuel next.native).map fun rest => current.segment :: rest

/-- `path` is what follows `current` up to and including the first `CTRL_LAST`. -/
def Chained : Descriptor → List DMADescriptorWG → Prop
  | current, [] => hasLast current.control = true
  | current, next :: rest =>
      hasLast current.control = false ∧ current.nextBda = next.pa ∧ Chained next.native rest

theorem find_by_pa (list : List DMADescriptorWG) (distinct : (list.map DMADescriptorWG.pa).Nodup)
    (d : DMADescriptorWG) (member : d ∈ list) :
    list.find? (fun other => other.pa == d.pa) = some d := by
  induction list with
  | nil => simp at member
  | cons first rest ih =>
      simp only [List.map_cons, List.nodup_cons] at distinct
      rcases List.mem_cons.mp member with same | later
      · subst same
        simp
      · have other : first.pa ≠ d.pa := by
          intro equal
          exact distinct.1 (equal ▸ List.mem_map_of_mem later)
        rw [List.find?_cons_of_neg (by simpa using other)]
        exact ih distinct.2 later

theorem walk_chain_visits (list path : List DMADescriptorWG)
    (distinct : (list.map DMADescriptorWG.pa).Nodup) (inside : ∀ d ∈ path, d ∈ list)
    (current : Descriptor) (chained : Chained current path) (fuel : ℕ)
    (enough : path.length < fuel) :
    walkChain list fuel current = some (current.segment :: segments path) := by
  induction path generalizing current fuel with
  | nil =>
      obtain ⟨fuel, rfl⟩ : ∃ smaller, fuel = smaller + 1 := ⟨fuel - 1, by simp at enough; omega⟩
      have last : hasLast current.control = true := chained
      simp [walkChain, last]
  | cons next rest ih =>
      obtain ⟨fuel, rfl⟩ : ∃ smaller, fuel = smaller + 1 := ⟨fuel - 1, by omega⟩
      obtain ⟨notLast, link, later⟩ := chained
      have found := find_by_pa list distinct next (inside next (by simp))
      have visited := ih (fun d member => inside d (by simp [member])) next.native later fuel
        (by simpa using enough)
      simp [walkChain, notLast, link, found, visited]

/-- A linked stretch without `CTRL_LAST` is walked up to a descriptor that has it. -/
theorem chained_of_linked (middle rest : List DMADescriptorWG) (last closed : DMADescriptorWG)
    (current : DMADescriptorWG) (linked : Linked (current :: (middle ++ last :: rest)))
    (native : Descriptor) (link : native.nextBda = current.getNextDescriptorAddress)
    (notLast : hasLast native.control = false)
    (open_ : ∀ d ∈ middle, hasLast d.native.control = false)
    (address : closed.pa = last.pa) (closing : hasLast closed.native.control = true) :
    Chained native (middle ++ [closed]) := by
  induction middle generalizing current native with
  | nil =>
      refine ⟨notLast, ?_, closing⟩
      rw [link, linked.1, address]
  | cons next middle ih =>
      refine ⟨notLast, ?_, ?_⟩
      · rw [link, linked.1]
      · exact ih next linked.tail next.native rfl (open_ next (by simp))
          (fun d member => open_ d (by simp [member]))

end FpgaPcie.Mprace
