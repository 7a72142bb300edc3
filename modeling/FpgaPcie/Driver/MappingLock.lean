import FpgaPcie.Driver.Interface
import FpgaPcie.Lib.Transition
import Mathlib.Tactic.Common

/-!
# Calls around the mapping lock

`mapBAR`, the constructor and destructor of `KernelMemory` and their counterparts in C, each
from its first check to the way it ends, with arbitrary answers to its ioctls and its `mmap`.
The two languages share the steps of a call and differ in how they refuse.
-/

namespace FpgaPcie.Driver.MappingLock

open FpgaPcie.Transition

set_option autoImplicit false

inductive Exception where
  | notOpen
  | invalidBar
  | internalError
  | mmapFailed
  | allocFailed
  deriving DecidableEq, Repr

/-- How a call fails: by an exception, with `NULL`, or with a negative number. -/
inductive Failure where
  | thrown (exception : Exception)
  | null
  | negative
  deriving DecidableEq, Repr

/-- Whether each of the calls that can fail succeeds. `mmap` never gives address 0 unasked, so
`NULL` is one more way for it to fail. -/
structure Answers where
  pciInfo : Bool
  kmemAlloc : Bool
  mmapMode : Bool
  mmapArea : Bool
  mmap : Bool
  kmemFree : Bool
  deriving DecidableEq, Repr

/-- A `KernelMemory` object (`pd_kmem_t`), by the mapping and the kernel buffer it stands
for. -/
structure KernelMemory where
  mem : ℕ
  buffer : ℕ
  deriving DecidableEq, Repr

/-- One process with one device. Mappings and kernel buffers are numbered as they are
made. -/
structure Client where
  isOpen : Bool
  /-- `mmap_mutex` -/
  held : Bool
  /-- how often the mutex has been taken -/
  lockings : ℕ
  mappings : List ℕ
  buffers : List ℕ
  created : ℕ
  deriving DecidableEq, Repr

namespace Client

/-- `mmap_lock`. The mutex is not recursive: who holds it waits for ever. -/
def mmapLock (client : Client) : Option Client :=
  if client.held then none
  else some { client with held := true, lockings := client.lockings + 1 }

def mmapUnlock (client : Client) : Client := { client with held := false }

def mmap (client : Client) (succeeds : Bool) : Option ℕ × Client :=
  if succeeds then
    (some client.created, { client with
      mappings := client.created :: client.mappings
      created := client.created + 1 })
  else (none, client)

def munmap (client : Client) (mem : ℕ) : Client :=
  { client with mappings := client.mappings.erase mem }

def kmemAlloc (client : Client) (succeeds : Bool) : Option ℕ × Client :=
  if succeeds then
    (some client.created, { client with
      buffers := client.created :: client.buffers
      created := client.created + 1 })
  else (none, client)

def kmemFree (client : Client) (buffer : ℕ) (succeeds : Bool) : Client :=
  if succeeds then { client with buffers := client.buffers.erase buffer } else client

/-- From the check of the device on. Where one of the two ioctls behind the lock fails, the
call ends as it is. -/
def mapBarWith (client : Client) (usable : Bool) (refuse : Exception → Failure) (bar : U32)
    (answers : Answers) : Option (Client × Except Failure ℕ) :=
  if !usable then some (client, .error (refuse .notOpen))
  else if 5#32 < bar then some (client, .error (refuse .invalidBar))
  else if !answers.pciInfo then some (client, .error .null)
  else
    client.mmapLock.map fun client =>
      if !answers.mmapMode then (client, .error (refuse .internalError))
      else if !answers.mmapArea then (client, .error (refuse .internalError))
      else
        match client.mmap answers.mmap with
        | (some mem, client) => (client.mmapUnlock, .ok mem)
        | (none, client) => (client.mmapUnlock, .error (refuse .mmapFailed))

def mapBAR (client : Client) (bar : U32) (answers : Answers) :
    Option (Client × Except Failure ℕ) :=
  client.mapBarWith client.isOpen .thrown bar answers

/-- `pd_mapBAR`; `given` tells that the device is not `NULL`. -/
def pdMapBAR (client : Client) (given : Bool) (bar : U32) (answers : Answers) :
    Option (Client × Except Failure ℕ) :=
  client.mapBarWith given (fun _ => .null) bar answers

/-- The buffer is freed on the way out, with no look at the answer. -/
def allocWith (client : Client) (usable : Bool) (refuse : Exception → Failure)
    (answers : Answers) : Option (Client × Except Failure KernelMemory) :=
  if !usable then some (client, .error (refuse .notOpen))
  else
    match client.kmemAlloc answers.kmemAlloc with
    | (none, client) => some (client, .error (refuse .allocFailed))
    | (some buffer, client) =>
        client.mmapLock.map fun client =>
          match client.mmap (answers.mmapMode && answers.mmap) with
          | (some mem, client) => (client.mmapUnlock, .ok ⟨mem, buffer⟩)
          | (none, client) =>
              (client.mmapUnlock.kmemFree buffer answers.kmemFree, .error (refuse .allocFailed))

def kernelMemory (client : Client) (answers : Answers) :
    Option (Client × Except Failure KernelMemory) :=
  client.allocWith client.isOpen .thrown answers

/-- `pd_allocKernelMemory`; `given` tells that `kmem_handle` is not `NULL`. -/
def pdAllocKernelMemory (client : Client) (given : Bool) (answers : Answers) :
    Option (Client × Except Failure KernelMemory) :=
  client.allocWith given (fun _ => .null) answers

/-- `KernelMemory::~KernelMemory`. Whether the device is open is asked behind the `munmap`. -/
def deleteKernelMemory (client : Client) (object : KernelMemory) (answers : Answers) :
    Client × Except Failure Unit :=
  let unmapped := client.munmap object.mem
  if !client.isOpen then (unmapped, .error (.thrown .notOpen))
  else
    (unmapped.kmemFree object.buffer answers.kmemFree,
      if answers.kmemFree then .ok () else .error (.thrown .internalError))

/-- `pd_freeKernelMemory`; the handle may be `NULL`. -/
def pdFreeKernelMemory (client : Client) (handle : Option KernelMemory) (answers : Answers) :
    Client × Except Failure Unit :=
  match handle with
  | none => (client, .error .negative)
  | some object =>
      ((client.munmap object.mem).kmemFree object.buffer answers.kmemFree,
        if answers.kmemFree then .ok () else .error .negative)

end Client

inductive Call where
  | mapBAR (bar : U32) (answers : Answers)
  | kernelMemory (answers : Answers)
  | deleteKernelMemory (object : KernelMemory) (answers : Answers)
  | pdMapBAR (given : Bool) (bar : U32) (answers : Answers)
  | pdAllocKernelMemory (given : Bool) (answers : Answers)
  | pdFreeKernelMemory (handle : Option KernelMemory) (answers : Answers)
  deriving DecidableEq, Repr

def ending {Value : Type} (ended : Client × Except Failure Value) : Client × Except Failure Unit :=
  (ended.1, ended.2.map fun _ => ())

/-- `none` for a call that never ends. -/
def Client.run (client : Client) : Call → Option (Client × Except Failure Unit)
  | .mapBAR bar answers => (client.mapBAR bar answers).map ending
  | .kernelMemory answers => (client.kernelMemory answers).map ending
  | .deleteKernelMemory object answers => some (client.deleteKernelMemory object answers)
  | .pdMapBAR given bar answers => (client.pdMapBAR given bar answers).map ending
  | .pdAllocKernelMemory given answers => (client.pdAllocKernelMemory given answers).map ending
  | .pdFreeKernelMemory handle answers => some (client.pdFreeKernelMemory handle answers)

def clientSystem : System Client Call where
  initial client := client.held = false ∧ client.mappings = [] ∧ client.buffers = []
  step client call := (client.run call).map Prod.fst

structure EndsClean (before after : Client) (result : Except Failure Unit) : Prop where
  free : after.held = false
  once : after.lockings ≤ before.lockings + 1
  mappings : ∀ failure, result = .error failure → ∀ mem ∈ after.mappings, mem ∈ before.mappings
  buffers : ∀ failure, result = .error failure →
    ∀ buffer ∈ after.buffers, buffer ∈ before.buffers

/-- Behind the lock no ioctl of a BAR mapping fails, and where a construction fails there, it
can free its buffer. -/
def Answered (client : Client) : Call → Prop
  | .mapBAR bar answers =>
      client.isOpen ∧ bar ≤ 5#32 ∧ answers.pciInfo → answers.mmapMode ∧ answers.mmapArea
  | .pdMapBAR given bar answers =>
      given ∧ bar ≤ 5#32 ∧ answers.pciInfo → answers.mmapMode ∧ answers.mmapArea
  | .kernelMemory answers =>
      client.isOpen ∧ answers.kmemAlloc ∧ ¬(answers.mmapMode ∧ answers.mmap) → answers.kmemFree
  | .pdAllocKernelMemory given answers =>
      given ∧ answers.kmemAlloc ∧ ¬(answers.mmapMode ∧ answers.mmap) → answers.kmemFree
  | .deleteKernelMemory _ _ | .pdFreeKernelMemory _ _ => True

section Calls

variable {client : Client}

theorem lock_free (free : client.held = false) :
    client.mmapLock = some { client with held := true, lockings := client.lockings + 1 } := by
  rw [Client.mmapLock, free]
  rfl

theorem ends_clean_refused (free : client.held = false) (result : Except Failure Unit) :
    EndsClean client client result where
  free := free
  once := Nat.le_succ _
  mappings := fun _ _ _ member => member
  buffers := fun _ _ _ member => member

theorem ends_clean_freed (free : client.held = false) (object : KernelMemory) (freed : Bool)
    (result : Except Failure Unit) :
    EndsClean client ((client.munmap object.mem).kmemFree object.buffer freed) result := by
  have shape : ∃ buffers, (∀ buffer ∈ buffers, buffer ∈ client.buffers) ∧
      (client.munmap object.mem).kmemFree object.buffer freed =
        { client with mappings := client.mappings.erase object.mem, buffers := buffers } := by
    cases freed with
    | true => exact ⟨_, fun _ => List.mem_of_mem_erase, rfl⟩
    | false => exact ⟨_, fun _ => id, rfl⟩
  obtain ⟨buffers, subset, shape⟩ := shape
  rw [shape]
  constructor
  · exact free
  · exact Nat.le_succ _
  · exact fun _ _ _ => List.mem_of_mem_erase
  · exact fun _ _ => subset

def Numbered (client : Client) : Prop := ∀ buffer ∈ client.buffers, buffer < client.created

theorem Numbered.freed (numbered : Numbered client) (object : KernelMemory) (freed : Bool) :
    Numbered ((client.munmap object.mem).kmemFree object.buffer freed) := by
  cases freed with
  | false => exact numbered
  | true => exact fun other member => numbered other (List.mem_of_mem_erase member)

/-- What a call from a free lock comes to: it ends, and cleanly if its calls were answered
well enough. -/
def EndsIf (client : Client) (ran : Option (Client × Except Failure Unit)) (answered : Prop) :
    Prop :=
  ∃ after result, ran = some (after, result) ∧ Numbered after ∧
    (EndsClean client after result ↔ answered)

theorem ends_if_clean {after : Client} {result : Except Failure Unit} {answered : Prop}
    (numbered : Numbered after) (clean : EndsClean client after result) (holds : answered) :
    EndsIf client (some (after, result)) answered :=
  ⟨after, result, rfl, numbered, iff_of_true clean holds⟩

theorem ends_if_held {after : Client} {result : Except Failure Unit} {answered : Prop}
    (numbered : Numbered after) (held : after.held = true) (fails : ¬answered) :
    EndsIf client (some (after, result)) answered := by
  refine ⟨after, result, rfl, numbered, iff_of_false ?_ fails⟩
  intro clean
  rw [clean.free] at held
  cases held

theorem map_bar_with_ends (free : client.held = false) (numbered : Numbered client) (usable : Bool)
    (refuse : Exception → Failure) (bar : U32) (answers : Answers) :
    EndsIf client ((client.mapBarWith usable refuse bar answers).map ending)
      (usable ∧ bar ≤ 5#32 ∧ answers.pciInfo → answers.mmapMode ∧ answers.mmapArea) := by
  have refused := fun failure => ends_clean_refused free (.error failure)
  let locked := { client with held := true, lockings := client.lockings + 1 }
  rw [Client.mapBarWith, lock_free free]
  cases usable with
  | false => exact ends_if_clean numbered (refused _) (fun ⟨given, _⟩ => nomatch given)
  | true =>
      rw [if_neg (by decide)]
      by_cases outside : 5#32 < bar
      · rw [if_pos outside]
        exact ends_if_clean numbered (refused _)
          fun ⟨_, inside, _⟩ => absurd inside (BitVec.not_le.mpr outside)
      · have inside : bar ≤ 5#32 := BitVec.not_lt.mp outside
        rw [if_neg outside]
        cases info : answers.pciInfo with
        | false => exact ends_if_clean numbered (refused _) (fun ⟨_, _, some_⟩ => nomatch some_)
        | true =>
            cases mode : answers.mmapMode with
            | false =>
                apply @ends_if_held client locked _ _ numbered rfl
                exact fun answered => nomatch (answered ⟨rfl, inside, rfl⟩).1
            | true =>
                cases area : answers.mmapArea with
                | false =>
                    apply @ends_if_held client locked _ _ numbered rfl
                    exact fun answered => nomatch (answered ⟨rfl, inside, rfl⟩).2
                | true =>
                    cases mapped : answers.mmap with
                    | false =>
                        apply ends_if_clean _ _ (fun _ => ⟨rfl, rfl⟩)
                        · exact numbered
                        · exact ⟨rfl, le_rfl, fun _ _ _ member => member,
                            fun _ _ _ member => member⟩
                    | true =>
                        apply ends_if_clean _ _ (fun _ => ⟨rfl, rfl⟩)
                        · exact fun buffer member => Nat.lt_succ_of_lt (numbered buffer member)
                        · exact ⟨rfl, le_rfl, fun _ => nofun, fun _ => nofun⟩

theorem alloc_with_ends (free : client.held = false) (numbered : Numbered client) (usable : Bool)
    (refuse : Exception → Failure) (answers : Answers) :
    EndsIf client ((client.allocWith usable refuse answers).map ending)
      (usable ∧ answers.kmemAlloc ∧ ¬(answers.mmapMode ∧ answers.mmap) → answers.kmemFree) := by
  have refused := fun failure => ends_clean_refused free (.error failure)
  rw [Client.allocWith]
  cases usable with
  | false => exact ends_if_clean numbered (refused _) (fun ⟨given, _⟩ => nomatch given)
  | true =>
      rw [if_neg (by decide)]
      cases allocated : answers.kmemAlloc with
      | false => exact ends_if_clean numbered (refused _) (fun ⟨_, some_, _⟩ => nomatch some_)
      | true =>
          have more : ∀ buffer ∈ client.created :: client.buffers, buffer < client.created + 1 := by
            intro buffer member
            rcases List.mem_cons.mp member with rfl | old
            · exact Nat.lt_succ_self _
            · exact Nat.lt_succ_of_lt (numbered buffer old)
          simp only [Client.kmemAlloc, if_true, Client.mmapLock, free, Bool.false_eq_true, if_false,
            Option.map_some]
          rw [← Bool.and_eq_true]
          cases mapped : answers.mmapMode && answers.mmap with
          | true =>
              apply ends_if_clean _ _ (fun ⟨_, _, failed⟩ => absurd rfl failed)
              · exact fun buffer member => Nat.lt_succ_of_lt (more buffer member)
              · exact ⟨rfl, le_rfl, fun _ => nofun, fun _ => nofun⟩
          | false =>
              cases freed : answers.kmemFree with
              | true =>
                  have left : (client.created :: client.buffers).erase client.created =
                      client.buffers := List.erase_cons_head _ _
                  apply ends_if_clean _ _ (fun _ => rfl)
                  · exact fun buffer member => more buffer (List.mem_of_mem_erase member)
                  · refine ⟨rfl, le_rfl, fun _ _ _ member => member, ?_⟩
                    intro _ _ buffer member
                    exact left ▸ member
              | false =>
                  refine ⟨_, _, rfl, more, iff_of_false ?_ ?_⟩
                  · intro clean
                    -- the buffer just made is still there
                    have old := clean.buffers _ rfl client.created List.mem_cons_self
                    exact absurd (numbered _ old) (Nat.lt_irrefl _)
                  · exact fun answered => nomatch answered ⟨trivial, trivial, Bool.false_ne_true⟩

theorem run_ends (free : client.held = false) (numbered : Numbered client) (call : Call) :
    EndsIf client (client.run call) (Answered client call) := by
  cases call with
  | mapBAR bar answers => exact map_bar_with_ends free numbered client.isOpen .thrown bar answers
  | pdMapBAR given bar answers => exact map_bar_with_ends free numbered given _ bar answers
  | kernelMemory answers => exact alloc_with_ends free numbered client.isOpen .thrown answers
  | pdAllocKernelMemory given answers => exact alloc_with_ends free numbered given _ answers
  | deleteKernelMemory object answers =>
      rw [Client.run, Client.deleteKernelMemory]
      cases client.isOpen with
      | false =>
          exact ends_if_clean (numbered.freed object false) (ends_clean_freed free object false _)
            trivial
      | true =>
          exact ends_if_clean (numbered.freed object _) (ends_clean_freed free object _ _) trivial
  | pdFreeKernelMemory handle answers =>
      cases handle with
      | none => exact ends_if_clean numbered (ends_clean_refused free _) trivial
      | some object =>
          exact ends_if_clean (numbered.freed object _) (ends_clean_freed free object _ _) trivial

end Calls

theorem reached_free {client : Client} (reached : clientSystem.ReachableUnder Answered client) :
    client.held = false ∧ Numbered client := by
  apply System.invariant_under _ _ reached
  · intro client initial
    rcases initial with ⟨free, -, none_⟩
    refine ⟨free, fun buffer member => ?_⟩
    rw [none_] at member
    cases member
  · intro client call after both answered step
    rcases both with ⟨free, numbered⟩
    obtain ⟨ended, result, ran, kept, clean⟩ := run_ends free numbered call
    simp only [clientSystem, ran, Option.map_some, Option.some.injEq] at step
    subst step
    exact ⟨(clean.mpr answered).free, kept⟩

/-- Calls that were answered leave the lock free, so that the next one ends; it ends cleanly
exactly if it is answered as well. -/
theorem mapping_lock_free_iff {client : Client}
    (reached : clientSystem.ReachableUnder Answered client) (call : Call) :
    client.held = false ∧ ∃ after result, client.run call = some (after, result) ∧
      (EndsClean client after result ↔ Answered client call) := by
  obtain ⟨free, numbered⟩ := reached_free reached
  obtain ⟨after, result, ran, -, clean⟩ := run_ends free numbered call
  exact ⟨free, after, result, ran, clean⟩

def openClient : Client := ⟨true, false, 0, [], [], 0⟩

def allAnswered : Answers := ⟨true, true, true, true, true, true⟩

/-- A BAR is mapped, and a buffer that cannot be mapped is freed again; then one can be. -/
theorem mapping_lock_free_iff_used : ∃ client, clientSystem.ReachableUnder Answered client ∧
    client.lockings = 2 ∧ client.mappings.length = 1 ∧ client.buffers = [] ∧
    client.held = false ∧ ∃ after result, client.run (.kernelMemory allAnswered) =
        some (after, result) ∧
      (EndsClean client after result ↔ Answered client (.kernelMemory allAnswered)) := by
  let refused : Call := .kernelMemory { allAnswered with mmap := false }
  let mapped : Client := ((openClient.run (.mapBAR 2 allAnswered)).map Prod.fst).getD openClient
  let freed : Client := ((mapped.run refused).map Prod.fst).getD openClient
  have start : clientSystem.ReachableUnder Answered openClient := .start ⟨rfl, rfl, rfl⟩
  have maps : clientSystem.step openClient (.mapBAR 2 allAnswered) = some mapped := rfl
  have frees : clientSystem.step mapped refused = some freed := rfl
  have answered : Answered openClient (.mapBAR 2 allAnswered) := fun _ => ⟨rfl, rfl⟩
  have freeing : Answered mapped refused := fun _ => rfl
  have reached := (start.next answered maps).next freeing frees
  exact ⟨freed, reached, rfl, rfl, rfl, mapping_lock_free_iff reached (.kernelMemory allAnswered)⟩

/-- A mode that cannot be set: `mapBAR` throws with the lock held, and whatever comes next
waits for it. -/
theorem map_bar_keeps_lock : ∃ after,
    openClient.run (.mapBAR 2 { allAnswered with mmapMode := false }) =
      some (after, .error (.thrown .internalError)) ∧
    after.held = true ∧
    ¬EndsClean openClient after (.error (.thrown .internalError)) ∧
    after.run (.mapBAR 2 allAnswered) = none ∧ after.run (.kernelMemory allAnswered) = none := by
  refine ⟨_, rfl, rfl, ?_, rfl, rfl⟩
  intro clean
  cases clean.free

end FpgaPcie.Driver.MappingLock
