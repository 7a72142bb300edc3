import FpgaPcie.Lib.Holdings
import FpgaPcie.Lib.Throwing

/-!
# Leases

What a program holds is numbered as it is taken, and may stand on something taken before.
Nothing is given back while something stands on it. Owners have their leases in groups; a
program that works on one group leaves the others as they are.
-/

namespace FpgaPcie.Leases

open FpgaPcie.Holdings FpgaPcie.Throwing

set_option autoImplicit false

structure Lease (Kind : Type) where
  kind : Kind
  id : ℕ
  /-- the number of the lease it stands on -/
  on : Option ℕ
  deriving DecidableEq, Repr

def Uses {Kind : Type} (user used : Lease Kind) : Prop := user.on = some used.id

structure Holder (Kind Rest : Type) where
  record : List (Event (Lease Kind))
  next : ℕ
  rest : Rest

section Programs

variable {Thrown Kind Rest : Type}

def take (kind : Kind) (on : Option ℕ) : Program Thrown (Holder Kind Rest) ℕ :=
  change fun holder => (holder.next, { holder with
    record := .taken ⟨kind, holder.next, on⟩ :: holder.record
    next := holder.next + 1 })

def give (lease : Lease Kind) : Program Thrown (Holder Kind Rest) Unit :=
  change fun holder => ((), { holder with record := .given lease :: holder.record })

def refuse (lease : Lease Kind) : Program Thrown (Holder Kind Rest) Unit :=
  change fun holder => ((), { holder with record := .refused lease :: holder.record })

def takeEach (kind : Kind) : ℕ → Program Thrown (Holder Kind Rest) (List ℕ)
  | 0 => return []
  | count + 1 => do
      let id ← take kind none
      let others ← takeEach kind count
      return id :: others

def giveEach (kind : Kind) : List ℕ → Program Thrown (Holder Kind Rest) Unit
  | [] => return ()
  | id :: others => do
      give ⟨kind, id, none⟩
      giveEach kind others

def changeRest {Value : Type} (next : Rest → Value × Rest) :
    Program Thrown (Holder Kind Rest) Value :=
  change fun holder => ((next holder.rest).1, { holder with rest := (next holder.rest).2 })

end Programs

/-- Whatever a lease of the group stands on belongs to the group. -/
def Closed {Kind : Type} (group : List (Lease Kind)) : Prop :=
  ∀ lease ∈ group, ∀ below, lease.on = some below → below ∈ group.map Lease.id

section Closed

variable {Kind : Type} {group same : List (Lease Kind)} {lease : Lease Kind} {kind : Kind}

theorem closed_nil : Closed ([] : List (Lease Kind)) := by
  intro lease member
  cases member

theorem Closed.perm (closed : Closed group) (perm : group.Perm same) : Closed same := by
  intro lease member below stands
  exact (perm.map Lease.id).mem_iff.mp (closed lease (perm.mem_iff.mpr member) below stands)

theorem Closed.append (closed : Closed group) (also : Closed same) : Closed (group ++ same) := by
  intro lease member below stands
  rw [List.map_append, List.mem_append]
  rcases List.mem_append.mp member with this | other
  · exact Or.inl (closed lease this below stands)
  · exact Or.inr (also lease other below stands)

theorem closed_cons (closed : Closed group) (stands : ∀ below ∈ lease.on, below ∈ group.map Lease.id) :
    Closed (lease :: group) := by
  intro other member below on
  rcases List.mem_cons.mp member with this | old
  · rw [this] at on
    exact List.mem_cons_of_mem _ (stands below on)
  · exact List.mem_cons_of_mem _ (closed other old below on)

theorem stands_on_nothing : ∀ below ∈ (none : Option ℕ), below ∈ group.map Lease.id := by
  intro below stands
  cases stands

theorem stands_on_head (lease : Lease Kind) :
    ∀ below ∈ some lease.id, below ∈ (lease :: group).map Lease.id := by
  intro below stands
  cases stands
  exact List.mem_cons_self

def plain (kind : Kind) (ids : List ℕ) : List (Lease Kind) := ids.map fun id => ⟨kind, id, none⟩

theorem closed_plain (ids : List ℕ) (closed : Closed group) :
    Closed (plain kind ids ++ group) := by
  apply Closed.append _ closed
  intro lease member below stands
  obtain ⟨id, -, same⟩ := List.mem_map.mp member
  rw [← same] at stands
  cases stands

end Closed

/-- The number of a lease is no other's as long as that is held. -/
def Fresh {Kind : Type} [DecidableEq Kind] : List (Event (Lease Kind)) → Prop
  | [] => True
  | .taken lease :: rest => (∀ other ∈ holding rest, other.id ≠ lease.id) ∧ Fresh rest
  | .given _ :: rest | .refused _ :: rest => Fresh rest

section Groups

variable {Thrown Kind Rest : Type} [DecidableEq Kind]

/-- All that is held is in the groups, after `refused` refusals. -/
structure Holds (holder : Holder Kind Rest) (refused : ℕ) (groups : List (List (Lease Kind))) :
    Prop where
  orderly : Orderly Uses holder.record
  fresh : Fresh holder.record
  refusals : refusals holder.record = refused
  accounts : ∀ lease, held holder.record lease = groups.flatten.count lease
  distinct : (groups.flatten.map Lease.id).Nodup
  taken : ∀ lease ∈ groups.flatten, lease.id < holder.next
  older : ∀ lease ∈ groups.flatten, ∀ below, lease.on = some below → below < lease.id
  closed : ∀ group ∈ groups, Closed group

variable {holder : Holder Kind Rest} {groups others after : List (List (Lease Kind))}
  {group same : List (Lease Kind)} {lease : Lease Kind} {kind : Kind} {on : Option ℕ}
  {refused : ℕ}

namespace Holds

theorem start (record : holder.record = []) : Holds holder 0 [] where
  orderly := by rw [record]; trivial
  fresh := by rw [record]; trivial
  refusals := by rw [record]; rfl
  accounts := by intro lease; rw [record]; rfl
  distinct := List.nodup_nil
  taken := by intro lease member; cases member
  older := by intro lease member; cases member
  closed := by intro group member; cases member

theorem regroup (holds : Holds holder refused groups) (perm : groups.flatten.Perm after.flatten)
    (closed : ∀ group ∈ after, Closed group) : Holds holder refused after where
  orderly := holds.orderly
  fresh := holds.fresh
  refusals := holds.refusals
  accounts := by intro lease; rw [holds.accounts, perm.count_eq]
  distinct := (perm.map Lease.id).nodup_iff.mp holds.distinct
  taken := by intro lease member; exact holds.taken lease (perm.mem_iff.mpr member)
  older := by intro lease member; exact holds.older lease (perm.mem_iff.mpr member)
  closed := closed

theorem perm (holds : Holds holder refused groups) (perm : groups.Perm after) :
    Holds holder refused after :=
  holds.regroup perm.flatten fun group member => holds.closed group (perm.mem_iff.mpr member)

theorem reorder (holds : Holds holder refused (group :: others)) (perm : group.Perm same) :
    Holds holder refused (same :: others) := by
  apply holds.regroup
  · rw [List.flatten_cons, List.flatten_cons]
    exact perm.append_right _
  · intro other member
    rcases List.mem_cons.mp member with this | old
    · rw [this]
      exact (holds.closed group List.mem_cons_self).perm perm
    · exact holds.closed other (List.mem_cons_of_mem _ old)

theorem split (holds : Holds holder refused ((group ++ same) :: others)) (closed : Closed group)
    (also : Closed same) : Holds holder refused (group :: same :: others) := by
  apply holds.regroup
  · rw [List.flatten_cons, List.flatten_cons, List.flatten_cons, List.append_assoc]
  · intro other member
    rcases List.mem_cons.mp member with this | rest
    · rw [this]
      exact closed
    · rcases List.mem_cons.mp rest with this | old
      · rw [this]
        exact also
      · exact holds.closed other (List.mem_cons_of_mem _ old)

theorem opened (holds : Holds holder refused groups) : Holds holder refused ([] :: groups) := by
  refine holds.regroup (.refl groups.flatten) ?_
  intro group member
  rcases List.mem_cons.mp member with this | old
  · rw [this]
    exact closed_nil
  · exact holds.closed group old

theorem dropped (holds : Holds holder refused ([] :: groups)) : Holds holder refused groups :=
  holds.regroup (.refl groups.flatten) fun group member =>
    holds.closed group (List.mem_cons_of_mem _ member)

theorem head (holds : Holds holder refused (group :: others)) : Closed group :=
  holds.closed group List.mem_cons_self

theorem of_rest (holds : Holds holder refused groups) (rest : Rest) :
    Holds { holder with rest := rest } refused groups :=
  ⟨holds.orderly, holds.fresh, holds.refusals, holds.accounts, holds.distinct, holds.taken,
    holds.older, holds.closed⟩

theorem holding_perm (holds : Holds holder refused groups) :
    (holding holder.record).Perm groups.flatten := by
  rw [List.perm_iff_count]
  intro lease
  have same := held_eq_count holds.orderly lease
  rw [holds.accounts] at same
  omega

theorem ne_next (holds : Holds holder refused groups) :
    ∀ lease ∈ groups.flatten, lease.id ≠ holder.next :=
  fun lease member => Nat.ne_of_lt (holds.taken lease member)

theorem take (holds : Holds holder refused (group :: others))
    (stands : ∀ below ∈ on, below ∈ group.map Lease.id) :
    Holds { holder with
        record := .taken ⟨kind, holder.next, on⟩ :: holder.record
        next := holder.next + 1 } refused
      ((⟨kind, holder.next, on⟩ :: group) :: others) := by
  have whole : ((⟨kind, holder.next, on⟩ :: group) :: others).flatten =
      ⟨kind, holder.next, on⟩ :: (group :: others).flatten := by
    rw [List.flatten_cons, List.flatten_cons, List.cons_append]
  constructor
  · exact holds.orderly
  · exact ⟨fun other member => holds.ne_next other (holds.holding_perm.mem_iff.mp member),
      holds.fresh⟩
  · exact holds.refusals
  · intro lease
    have before := holds.accounts lease
    rw [whole, List.count_cons, beq_eq_decide]
    rw [held] at before ⊢
    rw [taken_count_cons_taken, given_count_cons_taken]
    simp only [decide_eq_true_eq]
    omega
  · rw [whole, List.map_cons, List.nodup_cons]
    refine ⟨?_, holds.distinct⟩
    intro again
    obtain ⟨lease, member, same⟩ := List.mem_map.mp again
    exact holds.ne_next lease member same
  · intro lease member
    rw [whole] at member
    rcases List.mem_cons.mp member with this | old
    · rw [this]
      exact Nat.lt_succ_self _
    · exact Nat.lt_succ_of_lt (holds.taken lease old)
  · intro lease member below on
    rw [whole] at member
    rcases List.mem_cons.mp member with this | old
    · rw [this] at on ⊢
      obtain ⟨under, own, same⟩ := List.mem_map.mp (stands below on)
      rw [← same]
      exact holds.taken under (List.mem_append_left _ own)
    · exact holds.older lease old below on
  · intro other member
    rcases List.mem_cons.mp member with this | old
    · rw [this]
      exact closed_cons holds.head stands
    · exact holds.closed other (List.mem_cons_of_mem _ old)

/-- In groups that are closed nothing else stands on the lease that is taken out. -/
theorem unused (holds : Holds holder refused ((lease :: group) :: others)) (closed : Closed group)
    (user : Lease Kind) (member : user ∈ ((lease :: group) :: others).flatten) :
    user.on ≠ some lease.id := by
  intro stands
  have distinct := holds.distinct
  have older := holds.older user member lease.id stands
  rw [List.flatten_cons, List.cons_append] at member distinct
  rw [List.map_cons, List.nodup_cons] at distinct
  apply distinct.1
  rcases List.mem_cons.mp member with this | elsewhere
  · rw [this] at older
    exact absurd older (Nat.lt_irrefl _)
  · rw [List.map_append, List.mem_append]
    rcases List.mem_append.mp elsewhere with own | foreign
    · exact Or.inl (closed user own lease.id stands)
    · right
      obtain ⟨other, which, inside⟩ := List.mem_flatten.mp foreign
      have under := holds.closed other (List.mem_cons_of_mem _ which) user inside lease.id stands
      obtain ⟨found, there, same⟩ := List.mem_map.mp under
      exact List.mem_map.mpr ⟨found, List.mem_flatten.mpr ⟨other, which, there⟩, same⟩

theorem offered (holds : Holds holder refused ((lease :: group) :: others))
    (closed : Closed group) :
    0 < held holder.record lease ∧ ∀ user, Uses user lease → held holder.record user ≤ 0 := by
  constructor
  · rw [holds.accounts, List.flatten_cons, List.cons_append, List.count_cons_self]
    omega
  · intro user stands
    have absent : user ∉ ((lease :: group) :: others).flatten :=
      fun member => holds.unused closed user member stands
    rw [holds.accounts, List.count_eq_zero_of_not_mem absent]
    exact Int.le_refl 0

theorem refuse (holds : Holds holder refused ((lease :: group) :: others))
    (closed : Closed group) :
    Holds { holder with record := .refused lease :: holder.record } (refused + 1)
      ((lease :: group) :: others) where
  orderly := ⟨(holds.offered closed).1, (holds.offered closed).2, holds.orderly⟩
  fresh := holds.fresh
  refusals := congrArg Nat.succ holds.refusals
  accounts := by intro other; rw [held_cons_refused, holds.accounts]
  distinct := holds.distinct
  taken := holds.taken
  older := holds.older
  closed := holds.closed

theorem give (holds : Holds holder refused ((lease :: group) :: others)) (closed : Closed group) :
    Holds { holder with record := .given lease :: holder.record } refused (group :: others) := by
  have whole : ((lease :: group) :: others).flatten = lease :: (group :: others).flatten := by
    rw [List.flatten_cons, List.flatten_cons, List.cons_append]
  have inside : ∀ other ∈ (group :: others).flatten,
      other ∈ ((lease :: group) :: others).flatten := by
    intro other member
    rw [whole]
    exact List.mem_cons_of_mem _ member
  constructor
  · exact ⟨(holds.offered closed).1, (holds.offered closed).2, holds.orderly⟩
  · exact holds.fresh
  · exact holds.refusals
  · intro other
    have before := holds.accounts other
    rw [whole, List.count_cons, beq_eq_decide] at before
    rw [held] at before ⊢
    rw [taken_count_cons_given, given_count_cons_given]
    simp only [decide_eq_true_eq] at before
    omega
  · have distinct := holds.distinct
    rw [whole, List.map_cons, List.nodup_cons] at distinct
    exact distinct.2
  · exact fun other member => holds.taken other (inside other member)
  · exact fun other member => holds.older other (inside other member)
  · intro other member
    rcases List.mem_cons.mp member with this | old
    · rw [this]
      exact closed
    · exact holds.closed other (List.mem_cons_of_mem _ old)

end Holds

variable {throws : Thrown → Holder Kind Rest → Prop}

theorem ends_take (holds : Holds holder refused (group :: others))
    (stands : ∀ below ∈ on, below ∈ group.map Lease.id) :
    Ends (take kind on) holder
      (fun id after => Holds after refused ((⟨kind, id, on⟩ :: group) :: others)) throws :=
  ends_change (holds.take stands)

theorem ends_give (holds : Holds holder refused ((lease :: group) :: others)) (closed : Closed group) :
    Ends (give lease) holder (fun _ after => Holds after refused (group :: others)) throws :=
  ends_change (holds.give closed)

theorem ends_refuse (holds : Holds holder refused ((lease :: group) :: others))
    (closed : Closed group) :
    Ends (refuse lease) holder
      (fun _ after => Holds after (refused + 1) ((lease :: group) :: others)) throws :=
  ends_change (holds.refuse closed)

theorem ends_take_each (count : ℕ) (holds : Holds holder refused (group :: others)) :
    Ends (takeEach kind count) holder
      (fun ids after => ids.length = count ∧ Holds after refused ((plain kind ids ++ group) :: others))
      throws := by
  induction count generalizing holder group with
  | zero => exact ends_pure ⟨rfl, holds⟩
  | succ count ih =>
      apply ends_bind (ends_take holds stands_on_nothing)
      intro id middle took
      apply ends_bind (ih took)
      intro ids after ended
      apply ends_pure
      exact ⟨congrArg Nat.succ ended.1, ended.2.reorder List.perm_middle⟩

theorem ends_give_each (ids : List ℕ) (closed : Closed group)
    (holds : Holds holder refused ((plain kind ids ++ group) :: others)) :
    Ends (giveEach kind ids) holder (fun _ after => Holds after refused (group :: others)) throws := by
  induction ids generalizing holder with
  | nil => exact ends_pure holds
  | cons id ids ih =>
      apply ends_bind (ends_give holds (closed_plain ids closed))
      exact fun _ middle gave => ih gave

theorem ends_change_rest {Value : Type} {next : Rest → Value × Rest}
    (holds : Holds holder refused groups) :
    Ends (changeRest next) holder (fun _ after => Holds after refused groups) throws :=
  ends_change (holds.of_rest _)

end Groups

end FpgaPcie.Leases
