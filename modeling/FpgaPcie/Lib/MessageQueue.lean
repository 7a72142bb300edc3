import Mathlib.Data.List.Basic
import Mathlib.Data.List.Perm.Basic
import Mathlib.Data.List.Count
import Mathlib.Logic.Function.Basic

/-!
# Bounded message queues with priorities

Sending puts a message behind all that are of its priority or a higher one, and has to wait while
the queue is full; receiving takes the first message, and has to wait while there is none. The
order and the bound belong to the queue. A library of such queues in shared memory is given by its
calls and by the laws that relate them to queues.
-/

namespace FpgaPcie.MessageQueue

set_option autoImplicit false

variable {Message : Type*}

abbrev Entry (Message : Type*) := ℕ × Message

def insertEntry (entry : Entry Message) : List (Entry Message) → List (Entry Message)
  | [] => [entry]
  | head :: rest =>
      if head.1 < entry.1 then entry :: head :: rest else head :: insertEntry entry rest

theorem insert_perm (entry : Entry Message) (entries : List (Entry Message)) :
    (insertEntry entry entries).Perm (entry :: entries) := by
  induction entries with
  | nil => exact List.Perm.refl _
  | cons head rest ih =>
      unfold insertEntry
      split
      · exact List.Perm.refl _
      · exact (List.Perm.cons head ih).trans (List.Perm.swap entry head rest)

theorem mem_insert {entry other : Entry Message} {entries : List (Entry Message)} :
    other ∈ insertEntry entry entries ↔ other = entry ∨ other ∈ entries := by
  rw [(insert_perm entry entries).mem_iff, List.mem_cons]

@[simp] theorem insert_length (entry : Entry Message) (entries : List (Entry Message)) :
    (insertEntry entry entries).length = entries.length + 1 :=
  (insert_perm entry entries).length_eq

def Ordered (entries : List (Entry Message)) : Prop :=
  entries.Pairwise fun first second => second.1 ≤ first.1

theorem insert_ordered (entry : Entry Message) {entries : List (Entry Message)}
    (ordered : Ordered entries) : Ordered (insertEntry entry entries) := by
  induction entries with
  | nil => exact List.pairwise_singleton _ _
  | cons head rest ih =>
      obtain ⟨first, later⟩ := List.pairwise_cons.mp ordered
      unfold insertEntry
      split
      · rename_i lower
        refine List.pairwise_cons.mpr ⟨fun other member => ?_, ordered⟩
        rcases List.mem_cons.mp member with rfl | inside
        · exact Nat.le_of_lt lower
        · exact Nat.le_trans (first other inside) (Nat.le_of_lt lower)
      · rename_i higher
        refine List.pairwise_cons.mpr ⟨fun other member => ?_, ih later⟩
        rcases mem_insert.mp member with rfl | inside
        · exact Nat.le_of_not_lt higher
        · exact first other inside

/-- Where an entry stands after an insertion: it is the new one, behind everything that is not of
lower priority, or an old one that has lost nothing of what was before it. -/
theorem insert_split {entry item : Entry Message} {entries front back : List (Entry Message)}
    (ordered : Ordered entries) (split : insertEntry entry entries = front ++ item :: back) :
    (item = entry ∧ entries = front ++ back ∧ ∀ other ∈ back, other.1 < entry.1) ∨
      ∃ before behind, entries = before ++ item :: behind ∧ ∀ other ∈ before, other ∈ front := by
  induction entries generalizing front with
  | nil =>
      left
      cases front with
      | nil =>
          simp only [insertEntry, List.nil_append, List.cons.injEq] at split
          obtain ⟨rfl, rfl⟩ := split
          exact ⟨rfl, rfl, fun _ member => absurd member List.not_mem_nil⟩
      | cons first rest => simp [insertEntry] at split
  | cons head rest ih =>
      obtain ⟨first, later⟩ := List.pairwise_cons.mp ordered
      unfold insertEntry at split
      split at split
      · rename_i lower
        cases front with
        | nil =>
            left
            simp only [List.nil_append, List.cons.injEq] at split
            obtain ⟨rfl, rfl⟩ := split
            refine ⟨rfl, rfl, fun other member => ?_⟩
            rcases List.mem_cons.mp member with rfl | inside
            · exact lower
            · exact Nat.lt_of_le_of_lt (first other inside) lower
        | cons new front =>
            right
            simp only [List.cons_append, List.cons.injEq] at split
            exact ⟨front, back, split.2, fun other member => List.mem_cons_of_mem _ member⟩
      · cases front with
        | nil =>
            right
            simp only [List.nil_append, List.cons.injEq] at split
            refine ⟨[], rest, by rw [split.1]; rfl, fun _ member => absurd member List.not_mem_nil⟩
        | cons new front =>
            simp only [List.cons_append, List.cons.injEq] at split
            obtain ⟨rfl, split⟩ := split
            rcases ih later split with ⟨own, parts, lower⟩ | ⟨before, behind, parts, kept⟩
            · left
              exact ⟨own, by rw [parts]; rfl, lower⟩
            · right
              refine ⟨head :: before, behind, by rw [parts]; rfl, fun other member => ?_⟩
              rcases List.mem_cons.mp member with rfl | inside
              · exact List.mem_cons_self
              · exact List.mem_cons_of_mem _ (kept other inside)

theorem insert_of_priority (entry : Entry Message) (entries : List (Entry Message))
    (ordered : Ordered entries) (priority : ℕ) :
    (insertEntry entry entries).filter (fun other => other.1 = priority) =
      entries.filter (fun other => other.1 = priority) ++
        [entry].filter fun other => other.1 = priority := by
  induction entries with
  | nil => rfl
  | cons head rest ih =>
      obtain ⟨first, later⟩ := List.pairwise_cons.mp ordered
      unfold insertEntry
      split
      · rename_i lower
        by_cases own : entry.1 = priority
        · have none_ : (head :: rest).filter (fun other => other.1 = priority) = [] := by
            rw [List.filter_eq_nil_iff]
            intro other member
            rcases List.mem_cons.mp member with rfl | inside
            · simp only [decide_eq_true_eq]
              omega
            · have below := first other inside
              simp only [decide_eq_true_eq]
              omega
          rw [List.filter_cons, if_pos (by simpa using own), none_, List.filter_cons,
            if_pos (by simpa using own)]
          rfl
        · simp [own]
      · rw [List.filter_cons, List.filter_cons, ih later]
        split <;> rfl

structure Queue (Message : Type*) where
  capacity : ℕ
  entries : List (Entry Message)
  ordered : Ordered entries
  bounded : entries.length ≤ capacity

namespace Queue

def create (capacity : ℕ) : Queue Message :=
  ⟨capacity, [], List.Pairwise.nil, Nat.zero_le _⟩

def send (queue : Queue Message) (message : Message) (priority : ℕ) :
    Option (Queue Message) :=
  if room : queue.entries.length < queue.capacity then
    some ⟨queue.capacity, insertEntry (priority, message) queue.entries,
      insert_ordered _ queue.ordered, by rw [insert_length]; exact room⟩
  else none

def receive (queue : Queue Message) :
    Option (Entry Message × Queue Message) :=
  match same : queue.entries with
  | [] => none
  | first :: rest => some (first, ⟨queue.capacity, rest,
      (List.pairwise_cons.mp (same ▸ queue.ordered)).2, by
        have bounded := queue.bounded
        rw [same, List.length_cons] at bounded
        omega⟩)

theorem send_some_iff {queue after : Queue Message} {message : Message}
    {priority : ℕ} : queue.send message priority = some after ↔
      queue.entries.length < queue.capacity ∧ after.capacity = queue.capacity ∧
        after.entries = insertEntry (priority, message) queue.entries := by
  unfold send
  constructor
  · intro sent
    split at sent
    · rename_i room
      cases sent
      exact ⟨room, rfl, rfl⟩
    · cases sent
  · intro facts
    obtain ⟨room, capacity, entries⟩ := facts
    rw [dif_pos room]
    cases after
    simp only at capacity entries
    subst capacity entries
    rfl

theorem send_isSome {queue : Queue Message} {message : Message} {priority : ℕ}
    (room : queue.entries.length < queue.capacity) :
    ∃ after, queue.send message priority = some after := by
  unfold send
  rw [dif_pos room]
  exact ⟨_, rfl⟩

theorem receive_some_iff {queue after : Queue Message} {first : Entry Message} :
    queue.receive = some (first, after) ↔
      after.capacity = queue.capacity ∧ queue.entries = first :: after.entries := by
  unfold receive
  constructor
  · intro received
    split at received
    · cases received
    · rename_i head rest same
      cases received
      exact ⟨rfl, same⟩
  · intro facts
    obtain ⟨capacity, entries⟩ := facts
    split
    · rename_i none_
      rw [none_] at entries
      cases entries
    · rename_i head rest same
      rw [same, List.cons.injEq] at entries
      obtain ⟨rfl, rfl⟩ := entries
      cases after
      simp only at capacity
      subst capacity
      rfl

theorem receive_isSome {queue : Queue Message} (some_ : queue.entries ≠ []) :
    ∃ first after, queue.receive = some (first, after) := by
  cases same : queue.receive with
  | none =>
      unfold receive at same
      split at same
      · rename_i none_
        exact absurd none_ some_
      · cases same
  | some pair => exact ⟨pair.1, pair.2, rfl⟩

theorem received_first {queue after : Queue Message} {first : Entry Message}
    (received : queue.receive = some (first, after)) :
    ∀ other ∈ after.entries, other.1 ≤ first.1 := by
  have ordered := queue.ordered
  rw [(receive_some_iff.mp received).2] at ordered
  exact (List.pairwise_cons.mp ordered).1

end Queue

structure Traffic (Message : Type*) where
  sent : List (Entry Message)
  taken : List (Entry Message)

namespace Traffic

variable {traffic : Traffic Message} {queue after : Queue Message}

/-- For each priority, what was sent is what was taken followed by what is there. -/
def Explains (traffic : Traffic Message) (queue : Queue Message) : Prop :=
  ∀ priority, traffic.sent.filter (fun entry => entry.1 = priority) =
    traffic.taken.filter (fun entry => entry.1 = priority) ++
      queue.entries.filter fun entry => entry.1 = priority

theorem Explains.send (explains : traffic.Explains queue) {message : Message} {priority : ℕ}
    (sent : queue.send message priority = some after) :
    Explains { traffic with sent := traffic.sent ++ [(priority, message)] } after := by
  intro level
  rw [(Queue.send_some_iff.mp sent).2.2, insert_of_priority _ _ queue.ordered,
    List.filter_append, explains level, List.append_assoc]

theorem Explains.receive (explains : traffic.Explains queue) {first : Entry Message}
    (received : queue.receive = some (first, after)) :
    Explains { traffic with taken := traffic.taken ++ [first] } after := by
  intro level
  have first_ : queue.entries = [first] ++ after.entries := (Queue.receive_some_iff.mp received).2
  rw [explains level, first_, List.filter_append, List.filter_append, List.append_assoc]

end Traffic

structure SharedQueue (Message : Type) where
  maxMsgSize : ℕ
  queue : Queue Message

inductive Outcome (Result : Type) where
  | returns (result : Result)
  | blocks
  | throws

/-- The calls of a library on queues with names; `queues` shows what is behind the names. Sizes are
in bytes, the one of `receive` is that of the caller's buffer. -/
structure Service (Name Message : Type) where
  Shared : Type
  create : Shared → Name → (maxNumMsg maxMsgSize : ℕ) → Outcome Shared
  attach : Shared → Name → Outcome Unit
  send : Shared → Name → Message → (size priority : ℕ) → Outcome Shared
  receive : Shared → Name → (size : ℕ) → Outcome (Entry Message × Shared)
  remove : Shared → Name → Shared
  queues : Shared → Name → Option (SharedQueue Message)

namespace Service

variable {Name Message : Type} [DecidableEq Name]

structure Documented (service : Service Name Message) : Prop where
  /-- A queue is made under a name that is free. Making one may fail for other reasons. -/
  create : ∀ shared name maxNumMsg maxMsgSize after,
    service.create shared name maxNumMsg maxMsgSize = .returns after →
      service.queues shared name = none ∧ service.queues after =
        Function.update (service.queues shared) name (some ⟨maxMsgSize, Queue.create maxNumMsg⟩)
  /-- Opening finds a queue of the name or throws. -/
  attach : ∀ shared name, service.attach shared name =
    if (service.queues shared name).isSome then .returns () else .throws
  /-- A message that is not too large is put in its place, and the sender waits while the queue is
  full. -/
  send : ∀ shared name own message size priority, service.queues shared name = some own →
    size ≤ own.maxMsgSize → match own.queue.send message priority with
      | none => service.send shared name message size priority = .blocks
      | some queue => ∃ after, service.send shared name message size priority = .returns after ∧
          service.queues after =
            Function.update (service.queues shared) name (some { own with queue := queue })
  /-- A buffer that is large enough receives the first message, and the receiver waits while there
  is none. -/
  receive : ∀ shared name own size, service.queues shared name = some own →
    own.maxMsgSize ≤ size → match own.queue.receive with
      | none => service.receive shared name size = .blocks
      | some (first, queue) => ∃ after,
          service.receive shared name size = .returns (first, after) ∧ service.queues after =
            Function.update (service.queues shared) name (some { own with queue := queue })
  remove : ∀ shared name, service.queues (service.remove shared name) =
    Function.update (service.queues shared) name none

theorem Documented.remove_all {service : Service Name Message} (documented : service.Documented)
    (names : List Name) (shared : service.Shared) (name : Name) :
    service.queues (names.foldl service.remove shared) name =
      if name ∈ names then none else service.queues shared name := by
  induction names generalizing shared with
  | nil => rw [List.foldl_nil, if_neg List.not_mem_nil]
  | cons head rest ih =>
      rw [List.foldl_cons, ih, documented.remove]
      by_cases later : name ∈ rest
      · rw [if_pos later, if_pos (List.mem_cons_of_mem _ later)]
      · rw [if_neg later]
        by_cases here : name = head
        · rw [here, Function.update_self, if_pos List.mem_cons_self]
        · rw [Function.update_of_ne here, if_neg fun member =>
            (List.mem_cons.mp member).elim here later]

/-- Queues kept by name, and nothing that fails without a reason. -/
def named (Name Message : Type) [DecidableEq Name] : Service Name Message where
  Shared := Name → Option (SharedQueue Message)
  create shared name maxNumMsg maxMsgSize :=
    match shared name with
    | some _ => .throws
    | none =>
        .returns (Function.update shared name (some ⟨maxMsgSize, Queue.create maxNumMsg⟩))
  attach shared name := if (shared name).isSome then .returns () else .throws
  send shared name message size priority :=
    match shared name with
    | none => .throws
    | some own =>
        if own.maxMsgSize < size then .throws
        else match own.queue.send message priority with
          | none => .blocks
          | some queue => .returns (Function.update shared name (some { own with queue := queue }))
  receive shared name size :=
    match shared name with
    | none => .throws
    | some own =>
        if size < own.maxMsgSize then .throws
        else match own.queue.receive with
          | none => .blocks
          | some (first, queue) =>
              .returns (first, Function.update shared name (some { own with queue := queue }))
  remove shared name := Function.update shared name none
  queues shared := shared

theorem named_documented : (named Name Message).Documented := by
  constructor
  · intro shared name maxNumMsg maxMsgSize after made
    cases found : shared name with
    | some own =>
        simp only [named, found] at made
        cases made
    | none =>
        simp only [named, found] at made
        cases made
        exact ⟨found, rfl⟩
  · intro shared name
    rfl
  · intro shared name own message size priority found fits
    have here : shared name = some own := found
    cases sent : own.queue.send message priority with
    | none => simp only [named, here, if_neg (Nat.not_lt.mpr fits), sent]
    | some queue =>
        refine ⟨Function.update shared name (some { own with queue := queue }), ?_, rfl⟩
        simp only [named, here, if_neg (Nat.not_lt.mpr fits), sent]
  · intro shared name own size found fits
    have here : shared name = some own := found
    cases received : own.queue.receive with
    | none => simp only [named, here, if_neg (Nat.not_lt.mpr fits), received]
    | some pair =>
        obtain ⟨first, queue⟩ := pair
        refine ⟨Function.update shared name (some { own with queue := queue }), ?_, rfl⟩
        simp only [named, here, if_neg (Nat.not_lt.mpr fits), received]
  · intro shared name
    rfl

end Service

end FpgaPcie.MessageQueue
