import Mathlib.Logic.Basic

/-!
# Reading links that others edit

A reader holds one node, goes on to the node its link leads to, and stops at a node that
says so. The nodes lie in a memory that others change between its steps, so what it will
meet depends on the memory as it is when it gets there. `Stays` says that it meets only
good nodes if nothing changes any more. Edits keep this as long as the nodes still to be
read are at most cut: the reader may be stopped earlier, but not sent elsewhere.
-/

namespace FpgaPcie.LinkReader

set_option autoImplicit false

structure Format (Node Address : Type*) where
  stops : Node → Bool
  next : Node → Address

variable {Node Address : Type*} (format : Format Node Address) (memory : Address → Option Node)

/-- The addresses the reader has still to look up when it holds `current`. -/
inductive StillToRead : Node → Address → Prop where
  | next {current : Node} (goesOn : format.stops current = false) :
      StillToRead current (format.next current)
  | later {current following : Node} {address : Address} (goesOn : format.stops current = false)
      (found : memory (format.next current) = some following)
      (ahead : StillToRead following address) : StillToRead current address

/-- From `current` on there are only good nodes, up to one that stops the reader. -/
inductive Stays (good : Node → Prop) : Node → Prop where
  | last {current : Node} (stops : format.stops current = true) (own : good current) :
      Stays good current
  | more {current following : Node} (goesOn : format.stops current = false) (own : good current)
      (found : memory (format.next current) = some following) (ahead : Stays good following) :
      Stays good current

structure Cuts (good : Node → Prop) (before after : Node) : Prop where
  good : good before → good after
  leads : format.stops after = true ∨
    (format.stops before = false ∧ format.stops after = false ∧
      format.next after = format.next before)

variable {format memory} {good : Node → Prop} {current : Node}

theorem nothing_after_stop (stops : format.stops current = true) (address : Address) :
    ¬StillToRead format memory current address := by
  intro ahead
  cases ahead with
  | next goesOn => simp [stops] at goesOn
  | later goesOn => simp [stops] at goesOn

theorem Stays.own (stays : Stays format memory good current) : good current := by
  cases stays with
  | last _ own => exact own
  | more _ own => exact own

theorem Stays.step (stays : Stays format memory good current)
    (goesOn : format.stops current = false) :
    ∃ following, memory (format.next current) = some following ∧
      Stays format memory good following := by
  cases stays with
  | last stops => simp [goesOn] at stops
  | more _ _ found ahead => exact ⟨_, found, ahead⟩

theorem Stays.mono {better : Node → Prop} (weakens : ∀ node, good node → better node)
    (stays : Stays format memory good current) : Stays format memory better current := by
  induction stays with
  | last stops own => exact .last stops (weakens _ own)
  | more goesOn own found _ ih => exact .more goesOn (weakens _ own) found ih

theorem Stays.cut (stays : Stays format memory good current) {after : Node}
    (cuts : Cuts format good current after) : Stays format memory good after := by
  have own := cuts.good stays.own
  rcases cuts.leads with stops | ⟨before, goesOn, same⟩
  · exact .last stops own
  · obtain ⟨following, found, ahead⟩ := stays.step before
    exact .more goesOn own (by rw [same]; exact found) ahead

/-- Edits that cut what is still to be read, and whatever they do elsewhere. -/
theorem Stays.edited {later : Address → Option Node} (stays : Stays format memory good current)
    (edits : ∀ address node, StillToRead format memory current address →
      memory address = some node →
        ∃ after, later address = some after ∧ Cuts format good node after) :
    Stays format later good current := by
  induction stays with
  | last stops own => exact .last stops own
  | more goesOn own found _ ih =>
      obtain ⟨after, foundLater, cuts⟩ := edits _ _ (.next goesOn) found
      have ahead := ih fun address node unread present =>
        edits address node (.later goesOn found unread) present
      exact .more goesOn own foundLater (ahead.cut cuts)

end FpgaPcie.LinkReader
