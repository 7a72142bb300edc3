import Mathlib.Data.List.Perm.Basic
import Mathlib.Data.List.Count
import Mathlib.Data.List.Induction
import Mathlib.Data.Int.Notation

/-!
# Resources taken and given back

A program that takes and gives back resources leaves a record, the latest event first.
What a call does to the record is known up to order from the resources it took and the
ones it gave back; what is held at any time is what the owners at that time account for.
-/

namespace FpgaPcie.Holdings

set_option autoImplicit false

inductive Event (Resource : Type*) where
  | taken (resource : Resource)
  | given (resource : Resource)
  /-- offered back and not accepted -/
  | refused (resource : Resource)
  deriving DecidableEq

variable {Resource : Type*} [DecidableEq Resource]

def takenCount (record : List (Event Resource)) (resource : Resource) : ℕ :=
  record.count (.taken resource)

def givenCount (record : List (Event Resource)) (resource : Resource) : ℕ :=
  record.count (.given resource)

def held (record : List (Event Resource)) (resource : Resource) : ℤ :=
  takenCount record resource - givenCount record resource

/-- From one record to a later one, `acquired` is taken and `released` is given back. -/
structure Moves (before after : List (Event Resource)) (acquired released : List Resource) :
    Prop where
  taken : ∀ resource, takenCount after resource =
    takenCount before resource + acquired.count resource
  given : ∀ resource, givenCount after resource =
    givenCount before resource + released.count resource

/-- Of the resources of one kind, what was taken and not given back is what the owners
have. -/
def Accounts (kind : Resource → Prop) (record : List (Event Resource)) (owned : List Resource) :
    Prop :=
  ∀ resource, kind resource →
    takenCount record resource = givenCount record resource + owned.count resource

section Moves

variable {before middle after : List (Event Resource)} {resource : Resource}
variable {acquired released acquiredLater releasedLater owned ownedAfter : List Resource}
variable {kind : Resource → Prop}

theorem taken_count_cons_taken (record : List (Event Resource)) (resource other : Resource) :
    takenCount (.taken resource :: record) other =
      takenCount record other + if resource = other then 1 else 0 := by
  simp [takenCount, List.count_cons]

theorem taken_count_cons_given (record : List (Event Resource)) (resource other : Resource) :
    takenCount (.given resource :: record) other = takenCount record other := by
  simp [takenCount]

theorem given_count_cons_taken (record : List (Event Resource)) (resource other : Resource) :
    givenCount (.taken resource :: record) other = givenCount record other := by
  simp [givenCount]

theorem given_count_cons_given (record : List (Event Resource)) (resource other : Resource) :
    givenCount (.given resource :: record) other =
      givenCount record other + if resource = other then 1 else 0 := by
  simp [givenCount, List.count_cons]

theorem Moves.refl (record : List (Event Resource)) : Moves record record [] [] :=
  ⟨fun _ => rfl, fun _ => rfl⟩

theorem Moves.take (moves : Moves before after acquired released) (resource : Resource) :
    Moves before (.taken resource :: after) (resource :: acquired) released := by
  constructor
  · intro other
    rw [taken_count_cons_taken, moves.taken, List.count_cons, beq_eq_decide]
    simp only [decide_eq_true_eq, Nat.add_assoc]
  · intro other
    rw [given_count_cons_taken, moves.given]

theorem Moves.give (moves : Moves before after acquired released) (resource : Resource) :
    Moves before (.given resource :: after) acquired (resource :: released) := by
  constructor
  · intro other
    rw [taken_count_cons_given, moves.taken]
  · intro other
    rw [given_count_cons_given, moves.given, List.count_cons, beq_eq_decide]
    simp only [decide_eq_true_eq, Nat.add_assoc]

theorem Moves.take_all (moves : Moves before after acquired released)
    (resources : List Resource) :
    Moves before ((resources.map .taken).reverse ++ after) (resources.reverse ++ acquired)
      released := by
  induction resources generalizing after acquired with
  | nil => exact moves
  | cons resource rest ih =>
      simpa only [List.map_cons, List.reverse_cons, List.append_assoc,
        List.singleton_append] using ih (moves.take resource)

theorem Moves.give_all (moves : Moves before after acquired released)
    (resources : List Resource) :
    Moves before ((resources.map .given).reverse ++ after) acquired
      (resources.reverse ++ released) := by
  induction resources generalizing after released with
  | nil => exact moves
  | cons resource rest ih =>
      simpa only [List.map_cons, List.reverse_cons, List.append_assoc,
        List.singleton_append] using ih (moves.give resource)

theorem Moves.trans (first : Moves before middle acquired released)
    (second : Moves middle after acquiredLater releasedLater) :
    Moves before after (acquiredLater ++ acquired) (releasedLater ++ released) := by
  constructor
  · intro resource
    rw [second.taken, first.taken, List.count_append]
    omega
  · intro resource
    rw [second.given, first.given, List.count_append]
    omega

theorem Moves.perm (moves : Moves before after acquired released)
    (same : acquired.Perm acquiredLater) (also : released.Perm releasedLater) :
    Moves before after acquiredLater releasedLater :=
  ⟨fun resource => by rw [moves.taken, same.count_eq],
    fun resource => by rw [moves.given, also.count_eq]⟩

theorem Moves.others (moves : Moves before after acquired released)
    (takes : ∀ resource ∈ acquired, kind resource)
    (gives : ∀ resource ∈ released, kind resource) (other : ¬kind resource) :
    takenCount after resource = takenCount before resource ∧
      givenCount after resource = givenCount before resource := by
  have notTaken : resource ∉ acquired := fun member => other (takes resource member)
  have notGiven : resource ∉ released := fun member => other (gives resource member)
  rw [moves.taken, moves.given, List.count_eq_zero_of_not_mem notTaken,
    List.count_eq_zero_of_not_mem notGiven]
  exact ⟨rfl, rfl⟩

theorem Moves.held_eq (moves : Moves before after acquired released) (resource : Resource) :
    held after resource =
      held before resource + acquired.count resource - released.count resource := by
  simp only [held, moves.taken, moves.given]
  omega

/-- Nothing more and nothing less is held exactly if what was taken was given back. -/
theorem Moves.kept_iff (moves : Moves before after acquired released) :
    (∀ resource, held after resource = held before resource) ↔ acquired.Perm released := by
  rw [List.perm_iff_count]
  constructor
  · intro kept resource
    have same := kept resource
    rw [moves.held_eq] at same
    omega
  · intro same resource
    rw [moves.held_eq, same]
    omega

theorem Accounts.held_eq (accounts : Accounts kind after owned) (ofKind : kind resource) :
    held after resource = owned.count resource := by
  rw [held, accounts resource ofKind]
  omega

/-- The owners take over what was acquired and part with what was released. -/
theorem Accounts.moves (accounts : Accounts kind before owned)
    (moves : Moves before after acquired released)
    (owners : (acquired ++ owned).Perm (released ++ ownedAfter)) :
    Accounts kind after ownedAfter := by
  intro resource ofKind
  have same := owners.count_eq resource
  rw [List.count_append, List.count_append] at same
  rw [moves.taken, moves.given, accounts resource ofKind]
  omega

end Moves

variable (uses : Resource → Resource → Prop)

/-- Whatever is given back, or offered and refused, is held, and nothing is held then that
uses it. -/
def Orderly : List (Event Resource) → Prop
  | [] => True
  | .taken _ :: rest => Orderly rest
  | .given resource :: rest | .refused resource :: rest => 0 < held rest resource ∧
      (∀ user, uses user resource → held rest user ≤ 0) ∧ Orderly rest

def holding : List (Event Resource) → List Resource
  | [] => []
  | .taken resource :: rest => resource :: holding rest
  | .given resource :: rest => (holding rest).erase resource
  | .refused _ :: rest => holding rest

def refusals : List (Event Resource) → ℕ
  | [] => 0
  | .taken _ :: rest | .given _ :: rest => refusals rest
  | .refused _ :: rest => refusals rest + 1

/-- A stack of resources, the latest first, is taken and given back from its top. -/
def unwound (stack : List Resource) : List (Event Resource) :=
  (stack.map .given).reverse ++ stack.map .taken

section Holding

variable {uses} {record : List (Event Resource)}

theorem held_cons_refused (record : List (Event Resource)) (resource other : Resource) :
    held (.refused resource :: record) other = held record other := by
  simp [held, takenCount, givenCount]

theorem held_eq_count (orderly : Orderly uses record) (resource : Resource) :
    held record resource = (holding record).count resource := by
  induction record with
  | nil => rfl
  | cons event rest ih =>
      cases event with
      | taken other =>
          have before := ih orderly
          rw [held] at before ⊢
          rw [taken_count_cons_taken, given_count_cons_taken, holding, List.count_cons,
            beq_eq_decide]
          simp only [decide_eq_true_eq]
          omega
      | given other =>
          have before := ih orderly.2.2
          have some_ := orderly.1
          rw [held] at before ⊢
          rw [taken_count_cons_given, given_count_cons_given, holding, List.count_erase,
            beq_eq_decide]
          simp only [decide_eq_true_eq]
          by_cases same : other = resource
          · rw [same, held] at some_
            rw [if_pos same]
            omega
          · rw [if_neg same]
            omega
      | refused other =>
          rw [held_cons_refused]
          exact ih orderly.2.2

theorem mem_holding_of_held (orderly : Orderly uses record) {resource : Resource}
    (some_ : 0 < held record resource) : resource ∈ holding record := by
  rw [held_eq_count orderly] at some_
  exact List.count_pos_iff.mp (by omega)

end Holding

section Unwinding

variable {uses} {front back stack : List Resource}

theorem orderly_taken (stack : List Resource) : Orderly uses (stack.map .taken) := by
  induction stack with
  | nil => trivial
  | cons resource rest ih => exact ih

theorem unwinding_moves (given stack : List Resource) :
    Moves [] ((given.map Event.given).reverse ++ stack.map .taken) stack given.reverse := by
  have taken := (Moves.refl ([] : List (Event Resource))).take_all stack.reverse
  rw [List.map_reverse, List.reverse_reverse, List.reverse_reverse, List.append_nil,
    List.append_nil] at taken
  have both := taken.give_all given
  rw [List.append_nil] at both
  exact both

theorem held_unwinding (given stack : List Resource) (resource : Resource) :
    held ((given.map Event.given).reverse ++ stack.map .taken) resource =
      stack.count resource - given.count resource := by
  rw [(unwinding_moves given stack).held_eq, List.count_reverse]
  simp [held, takenCount, givenCount]

theorem orderly_unwinding (irreflexive : ∀ resource, ¬uses resource resource)
    (distinct : (front ++ back).Nodup)
    (apart : (front ++ back).Pairwise fun later earlier => ¬uses earlier later) :
    Orderly uses ((front.map Event.given).reverse ++ (front ++ back).map .taken) := by
  induction front using List.reverseRecOn generalizing back with
  | nil => exact orderly_taken back
  | append_singleton front resource ih =>
      rw [List.append_assoc, List.singleton_append] at distinct apart ⊢
      rw [List.map_append, List.reverse_append, List.map_singleton, List.reverse_singleton,
        List.singleton_append, List.cons_append]
      have notBefore : resource ∉ front := by
        intro member
        exact (List.nodup_append.mp distinct).2.2 _ member _ List.mem_cons_self rfl
      refine ⟨?_, ?_, ih distinct apart⟩
      · rw [held_unwinding, List.count_append, List.count_eq_zero_of_not_mem notBefore,
          List.count_cons_self]
        omega
      · intro user used
        have notBehind : user ∉ resource :: back := by
          intro member
          rcases List.mem_cons.mp member with this | below
          · rw [this] at used
            exact irreflexive resource used
          · have pairs := (List.pairwise_append.mp apart).2.1
            exact List.rel_of_pairwise_cons pairs below used
        rw [held_unwinding, List.count_append, List.count_eq_zero_of_not_mem notBehind]
        omega

theorem unwound_orderly (irreflexive : ∀ resource, ¬uses resource resource)
    (distinct : stack.Nodup) (apart : stack.Pairwise fun later earlier => ¬uses earlier later) :
    Orderly uses (unwound stack) := by
  have whole := @orderly_unwinding Resource _ uses stack [] irreflexive
  rw [List.append_nil] at whole
  exact whole distinct apart

theorem held_unwound (stack : List Resource) (resource : Resource) :
    held (unwound stack) resource = 0 := by
  rw [unwound, held_unwinding]
  omega

end Unwinding

end FpgaPcie.Holdings
