import Mathlib.Data.List.Nodup

/-!
# Lists whose entries differ in one field

The field serves as a key: it finds its entry, and it stays one when entries with
fresh keys are appended and when entries are taken out.
-/

namespace FpgaPcie.Keyed

set_option autoImplicit false

variable {α β : Type*} {field : α → β} {list : List α}

def Distinct (field : α → β) (list : List α) : Prop := (list.map field).Nodup

theorem Distinct.eq (distinct : Distinct field list) {left right : α} (leftIn : left ∈ list)
    (rightIn : right ∈ list) (same : field left = field right) : left = right :=
  List.inj_on_of_nodup_map distinct leftIn rightIn same

theorem Distinct.append_fresh (distinct : Distinct field list) {entry : α}
    (fresh : ∀ other ∈ list, field other ≠ field entry) : Distinct field (list ++ [entry]) := by
  rw [Distinct, List.map_append, List.map_singleton]
  apply List.Nodup.append distinct (List.nodup_singleton _)
  simpa using fresh

theorem Distinct.erase (distinct : Distinct field list) (p : α → Bool) :
    Distinct field (list.eraseP p) :=
  distinct.sublist (List.eraseP_sublist.map field)

/-- Where alike entries are one, they still are with an entry in front that is like none. -/
theorem one_of_alike_cons {Alike : α → α → Prop} (symm : ∀ {left right}, Alike left right →
    Alike right left) {new : α} (fresh : ∀ other ∈ list, ¬Alike other new)
    (one : ∀ first ∈ list, ∀ second ∈ list, Alike first second → first = second) :
    ∀ first ∈ new :: list, ∀ second ∈ new :: list, Alike first second → first = second := by
  intro first firstIn second secondIn alike
  rcases List.mem_cons.mp firstIn with rfl | firstOld
  · rcases List.mem_cons.mp secondIn with rfl | secondOld
    · rfl
    · exact absurd (symm alike) (fresh second secondOld)
  · rcases List.mem_cons.mp secondIn with rfl | secondOld
    · exact absurd alike (fresh first firstOld)
    · exact one first firstOld second secondOld alike

variable [DecidableEq β]

theorem Distinct.find_eq (distinct : Distinct field list) {entry : α} (member : entry ∈ list) :
    list.find? (fun other => field other = field entry) = some entry := by
  cases found : list.find? (fun other => field other = field entry) with
  | none => exact absurd (decide_eq_true rfl) (List.find?_eq_none.mp found entry member)
  | some other =>
      have same : field other = field entry := by simpa using List.find?_some found
      rw [distinct.eq (List.mem_of_find?_eq_some found) member same]

/-- Taking out the entry of one key leaves exactly the entries of the others. -/
theorem Distinct.mem_erase_iff (distinct : Distinct field list) (key : β) (entry : α) :
    entry ∈ list.eraseP (fun other => field other = key) ↔ entry ∈ list ∧ field entry ≠ key := by
  constructor
  · intro member
    constructor
    · exact List.mem_of_mem_eraseP member
    · intro same
      subst same
      induction list with
      | nil => simp at member
      | cons first rest ih =>
          have split := List.nodup_cons.mp distinct
          by_cases here : field first = field entry
          · rw [List.eraseP_cons_of_pos (by simpa using here)] at member
            exact split.1 (here ▸ List.mem_map_of_mem member)
          · rw [List.eraseP_cons_of_neg (by simpa using here)] at member
            rcases List.mem_cons.mp member with rfl | later
            · exact here rfl
            · exact ih split.2 later
  · intro both
    rcases both with ⟨inside, other⟩
    exact (List.mem_eraseP_of_neg (by simpa using other)).mpr inside

theorem Distinct.mem_erase_other (distinct : Distinct field list) {entry other : α}
    (member : entry ∈ list) (differs : other ≠ entry) :
    other ∈ list.eraseP (fun kept => field kept = field entry) ↔ other ∈ list := by
  rw [distinct.mem_erase_iff]
  constructor
  · exact And.left
  · intro inside
    constructor
    · exact inside
    · intro same
      exact differs (distinct.eq inside member same)

theorem Distinct.perm_erase (distinct : Distinct field list) {entry : α} (member : entry ∈ list) :
    list.Perm (entry :: list.eraseP fun other => field other = field entry) := by
  obtain ⟨found, before, after, -, same, split, rest⟩ :=
    List.exists_of_eraseP (p := fun other => decide (field other = field entry)) member
      (decide_eq_true rfl)
  have first : found = entry := by
    apply distinct.eq _ member (of_decide_eq_true same)
    rw [split]
    exact List.mem_append_right _ List.mem_cons_self
  rw [rest, split, first]
  exact List.perm_middle

/-- The entry that a search finds is the one that its key takes out. -/
theorem Distinct.erase_found (distinct : Distinct field list) {p : α → Bool} {entry : α}
    (found : list.find? p = some entry) :
    list.eraseP (fun other => field other = field entry) = list.eraseP p := by
  induction list with
  | nil => rfl
  | cons first rest ih =>
      obtain ⟨fresh, later⟩ := List.nodup_cons.mp distinct
      by_cases here : p first
      · rw [List.find?_cons_of_pos here, Option.some.injEq] at found
        rw [List.eraseP_cons_of_pos here, ← found, List.eraseP_cons_of_pos (by simp)]
      · rw [List.find?_cons_of_neg here] at found
        have other : field first ≠ field entry := by
          intro same
          exact fresh (same ▸ List.mem_map_of_mem (List.mem_of_find?_eq_some found))
        rw [List.eraseP_cons_of_neg here, List.eraseP_cons_of_neg (by simpa using other),
          ih later found]

section Maps

variable {Key Item : Type*} [DecidableEq Key] {map : Key → Option Item} {key other : Key}
  {item found : Item}

theorem update_some_cases (result : Function.update map key (some item) other = some found) :
    (other = key ∧ found = item) ∨ (other ≠ key ∧ map other = some found) := by
  by_cases same : other = key
  · subst same
    rw [Function.update_self, Option.some.injEq] at result
    exact Or.inl ⟨rfl, result.symm⟩
  · rw [Function.update_of_ne same] at result
    exact Or.inr ⟨same, result⟩

theorem update_none_cases (result : Function.update map key none other = some found) :
    other ≠ key ∧ map other = some found := by
  by_cases same : other = key
  · simp [same] at result
  · rw [Function.update_of_ne same] at result
    exact ⟨same, result⟩

end Maps

end FpgaPcie.Keyed
