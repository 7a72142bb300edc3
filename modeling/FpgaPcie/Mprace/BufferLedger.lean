import Mathlib.Data.Nat.Cast.Basic
import Mathlib.Algebra.BigOperators.Group.List.Basic
import FpgaPcie.Lib.Transition
import FpgaPcie.Mprace.BufferMemory

/-!
# Making and deleting DMA buffers

A process makes buffers by any of the three constructors and deletes them in any order. The
driver may refuse any of the calls behind them.
-/

namespace FpgaPcie.Mprace.Lifetime

open FpgaPcie.Holdings FpgaPcie.Throwing FpgaPcie.Leases FpgaPcie.Transition

set_option autoImplicit false

inductive Creation where
  | ofType (type : MemType) (pieces : ℕ)
  | aligned (pageAligned : Bool)
  | notOwned
  deriving DecidableEq, Repr

namespace Creation

def construct (alignUsemem : Bool) : Creation → Action DMABuffer
  | .ofType type pieces => DMABuffer.construct alignUsemem pieces type
  | .aligned pageAligned => DMABuffer.constructAligned pageAligned
  | .notOwned => DMABuffer.constructNotOwned

def ofKernel : Creation → Bool
  | .ofType .kernel _ | .ofType .kernelPieces _ => true
  | _ => false

/-- What a buffer of user memory is made of before it is mapped. -/
def words (alignUsemem : Bool) : Creation → Option (List Kind)
  | .ofType .user _ => some [.words alignUsemem]
  | .aligned pageAligned => some [.words pageAligned]
  | .notOwned => some []
  | _ => none

end Creation

/-- What a destructor leaves when the memory of the buffer itself is not taken back. -/
def DMABuffer.unreturned : DMABuffer → List Kind
  | .kernel _ => [.kernelBuffer]
  | .kernelPieces _ descriptors => .kernelBuffer :: descriptors.leases.map Lease.kind
  | .user _ alignedMem _ descriptors =>
      .userPages :: .words alignedMem :: descriptors.leases.map Lease.kind
  | .userNotOwned _ descriptors => .userPages :: descriptors.leases.map Lease.kind

inductive Call where
  | create (creation : Creation)
  | delete (buffer : DMABuffer)
  deriving DecidableEq, Repr

/-- A call, what it threw, and how many of its ioctls that give back were refused. -/
structure Ended where
  call : Call
  thrown : Option Exception
  refused : ℕ
  deriving DecidableEq, Repr

inductive Strayed (alignUsemem : Bool) : Ended → List Kind → Prop where
  | made (creation : Creation) (lost : ℕ) (kernel : creation.ofKernel = true ∨ lost = 0) :
      Strayed alignUsemem ⟨.create creation, none, lost⟩ (List.replicate lost .kernelBuffer)
  | kernelRefused (creation : Creation) (lost : ℕ) (kernel : creation.ofKernel = true) :
      Strayed alignUsemem ⟨.create creation, some .kernelAllocFailed, lost⟩
        (List.replicate lost .kernelBuffer)
  | piecesUnlisted (pieces lost pages : ℕ) :
      Strayed alignUsemem
        ⟨.create (.ofType .kernelPieces pieces), some .userMmapFailed, lost + pages⟩
        (List.replicate pages .userPages ++ unlisted pieces ++
          [.kernelMapping, .kernelBuffer, .kernelMemory] ++ List.replicate lost .kernelBuffer)
  | userRefused (creation : Creation) (words : List Kind) (pages : ℕ)
      (user : creation.words alignUsemem = some words) :
      Strayed alignUsemem ⟨.create creation, some .userMmapFailed, pages⟩
        (List.replicate pages .userPages ++ words)
  | userUnlisted (creation : Creation) (words : List Kind) (nents pages : ℕ)
      (user : creation.words alignUsemem = some words) :
      Strayed alignUsemem ⟨.create creation, some .userMmapFailed, pages⟩
        (List.replicate pages .userPages ++ unlisted nents ++
          [.sgList, .userPages, .userMemory] ++ words)
  | deleted (buffer : DMABuffer) : Strayed alignUsemem ⟨.delete buffer, none, 0⟩ []
  | unreturned (buffer : DMABuffer) :
      Strayed alignUsemem ⟨.delete buffer, some .internalError, 1⟩ buffer.unreturned
  | listUnreturned (buffer : DMABuffer) (listed : ∀ kBuf, buffer ≠ .kernel kBuf) :
      Strayed alignUsemem ⟨.delete buffer, some .internalError, 1⟩ [.userPages, .nativePages]

section Buffers

variable {alignUsemem : Bool} {creation : Creation} {holder : Holder Kind Process}
  {others : List (List (Lease Kind))} {own lost : List (Lease Kind)} {refused count : ℕ}

def Builds (alignUsemem : Bool) (creation : Creation) (construct : Action DMABuffer)
    (others : List (List (Lease Kind))) (refused : ℕ) (holder : Holder Kind Process) : Prop :=
  Ends construct holder
    (fun buffer after => ∃ (count : ℕ) (stray : List (Lease Kind)),
      Strayed alignUsemem ⟨.create creation, none, count⟩ (stray.map Lease.kind) ∧
      Holds after (refused + count) (buffer.leases :: stray :: others))
    fun thrown after => ∃ (count : ℕ) (stray : List (Lease Kind)),
      Strayed alignUsemem ⟨.create creation, some thrown, count⟩ (stray.map Lease.kind) ∧
      Holds after (refused + count) (stray :: others)

theorem lost_closed (all : Lost .kernelBuffer none count lost) : Closed lost := by
  have closed := all.closed closed_nil stands_on_nothing
  rw [List.append_nil] at closed
  exact closed

/-- The last step of every constructor that fills a descriptor list. -/
theorem listed (build : DMADescriptorListWG → DMABuffer) (size : ℕ) (closed : Closed own)
    (all : Lost .kernelBuffer none count lost)
    (kernel : creation.ofKernel = true ∨ count = 0)
    (leases : ∀ list, (build list).leases.Perm (list.leases ++ own))
    (left : ∀ pages, Strayed alignUsemem ⟨.create creation, some .userMmapFailed, count + pages⟩
      (List.replicate pages .userPages ++ unlisted size ++ own.map Lease.kind ++
        List.replicate count .kernelBuffer))
    (holds : Holds holder (refused + count) ((own ++ lost) :: others)) :
    Builds alignUsemem creation (do
      let descriptors ← DMABuffer.fillDescriptorList size
      return build descriptors) others refused holder := by
  apply ends_bind
  · apply ends_mono (list_made size holds)
    · exact fun list after made => made
    · intro type after ⟨thrown, pages, stray, kinds, holds⟩
      rw [Nat.add_assoc] at holds
      refine ⟨count + pages, stray ++ (own ++ lost), ?_, holds⟩
      rw [List.map_append, kinds, List.map_append, all.kinds, thrown, ← List.append_assoc]
      exact left pages
  · intro list after made
    have whole := closed_list list closed
    rw [← List.append_assoc] at made
    have parts := made.split whole (lost_closed all)
    refine ends_pure ⟨count, lost, ?_, parts.reorder (leases list).symm⟩
    rw [all.kinds]
    exact .made creation count kernel

/-- The steps from the mapping on of every constructor for user memory. -/
theorem mapped_built {vma : Option ℕ} (build : UserMemory vma → DMADescriptorListWG → DMABuffer)
    (stands : ∀ below ∈ vma, below ∈ own.map Lease.id)
    (leases : ∀ uBuf list, ((build uBuf list).leases).Perm (list.leases ++ (uBuf.leases ++ own)))
    (user : creation.words alignUsemem = some (own.map Lease.kind))
    (holds : Holds holder refused (own :: others)) :
    Builds alignUsemem creation (do
      let uBuf ← PCIDriver.mapUserMemory vma
      let descriptors ← DMABuffer.fillDescriptorList uBuf.nents
      return build uBuf descriptors) others refused holder := by
  apply ends_bind
  · apply ends_mono (user_memory_mapped holds stands)
    · exact fun uBuf after mapped => mapped
    · intro type after ⟨thrown, pages, lost, all, holds⟩
      refine ⟨pages, lost ++ own, ?_, holds⟩
      rw [List.map_append, all.kinds, thrown]
      exact .userRefused creation _ pages user
  · intro uBuf after mapped
    apply listed (build uBuf) uBuf.nents mapped.head (lost_nothing _ _) (Or.inr rfl) (leases uBuf)
    · intro pages
      rw [List.map_append, Nat.zero_add, List.replicate_zero, List.append_nil,
        ← List.append_assoc]
      exact .userUnlisted creation _ uBuf.nents pages user
    · rw [List.append_nil]
      exact mapped

theorem aligned_built (aligned : Bool) (user : creation.words alignUsemem = some [.words aligned])
    (holds : Holds holder refused others) :
    Builds alignUsemem creation (DMABuffer.constructAligned aligned) others refused holder := by
  apply ends_bind (ends_take holds.opened stands_on_nothing)
  intro buf taken worded
  apply mapped_built (.user buf aligned) (stands_on_head ⟨.words aligned, buf, none⟩) _ user worded
  intro uBuf list
  rw [DMABuffer.leases, List.append_cons]
  exact List.perm_append_comm

theorem buffer_built (alignUsemem : Bool) (creation : Creation)
    (holds : Holds holder refused others) :
    Builds alignUsemem creation (creation.construct alignUsemem) others refused holder := by
  have allocated : creation.ofKernel = true → Ends PCIDriver.allocKernelMemory holder
      (fun kBuf after => ∃ count lost, Lost .kernelBuffer none count lost ∧
        Holds after (refused + count) ((kBuf.leases ++ lost) :: others))
      fun thrown after => ∃ (count : ℕ) (stray : List (Lease Kind)),
        Strayed alignUsemem ⟨.create creation, some thrown, count⟩ (stray.map Lease.kind) ∧
        Holds after (refused + count) (stray :: others) := by
    intro kernel
    apply ends_mono (kernel_memory_allocated holds.opened)
    · intro kBuf after ⟨count, lost, all, holds⟩
      rw [List.append_nil] at holds
      exact ⟨count, lost, all, holds⟩
    · intro type after ⟨thrown, count, lost, all, holds⟩
      rw [List.append_nil] at holds
      refine ⟨count, lost, ?_, holds⟩
      rw [thrown, all.kinds]
      exact .kernelRefused creation count kernel
  have closed : ∀ kBuf : KernelMemory, Closed kBuf.leases := by
    intro kBuf
    have own : Closed [kBuf.own] := closed_cons closed_nil stands_on_nothing
    exact closed_cons (closed_cons own stands_on_nothing) (stands_on_head kBuf.buffer)
  cases creation with
  | ofType type pieces =>
      cases type with
      | kernel =>
          apply ends_bind (allocated rfl)
          intro kBuf after ⟨count, lost, all, made⟩
          have parts := made.split (closed kBuf) (lost_closed all)
          refine ends_pure ⟨count, lost, ?_, parts⟩
          rw [all.kinds]
          exact .made _ count (Or.inl rfl)
      | kernelPieces =>
          apply ends_bind (allocated rfl)
          intro kBuf after ⟨count, lost, all, made⟩
          apply listed (.kernelPieces kBuf) pieces (closed kBuf) all (Or.inl rfl)
            (fun list => List.perm_append_comm) _ made
          exact fun pages => .piecesUnlisted pieces count pages
      | user => exact aligned_built alignUsemem rfl holds
  | aligned pageAligned => exact aligned_built pageAligned rfl holds
  | notOwned =>
      apply mapped_built .userNotOwned stands_on_nothing _ rfl holds.opened
      intro uBuf list
      rw [DMABuffer.leases, List.append_nil]
      exact List.perm_append_comm

/-- A destructor that throws leaves what its buffer still has. -/
def Keeps (alignUsemem : Bool) (buffer : DMABuffer) (others : List (List (Lease Kind)))
    (refused : ℕ) (thrown : Exception) (after : Holder Kind Process) : Prop :=
  thrown = .internalError ∧ ∃ stray : List (Lease Kind),
    Strayed alignUsemem ⟨.delete buffer, some .internalError, 1⟩ (stray.map Lease.kind) ∧
    Holds after (refused + 1) (stray :: others)

theorem Destroys.keeps {destruct : Action Unit} {left : List (Lease Kind)} {buffer : DMABuffer}
    (destroyed : Destroys destruct left own others refused holder)
    (strayed : Strayed alignUsemem ⟨.delete buffer, some .internalError, 1⟩
      ((left ++ own).map Lease.kind)) :
    Ends destruct holder (fun _ after => Holds after refused (own :: others))
      (Keeps alignUsemem buffer others refused) := by
  apply ends_mono destroyed
  · exact fun _ after holds => holds
  · exact fun thrown after ⟨internal, holds⟩ => ⟨internal, _, strayed, holds⟩

theorem buffer_destructed (alignUsemem : Bool) (buffer : DMABuffer)
    (holds : Holds holder refused (buffer.leases :: others)) :
    Ends buffer.destruct holder (fun _ after => Holds after refused others)
      (Keeps alignUsemem buffer others refused) := by
  have emptied : Ends buffer.destruct holder (fun _ after => Holds after refused ([] :: others))
      (Keeps alignUsemem buffer others refused) := by
    have list : ∀ descriptors : DMADescriptorListWG, Closed descriptors.leases :=
      fun descriptors => closed_list descriptors closed_nil
    cases buffer with
    | kernel kBuf =>
        exact (kernel_memory_deleted kBuf closed_nil holds).keeps (.unreturned (.kernel kBuf))
    | kernelPieces kBuf descriptors =>
        apply ends_bind ((kernel_memory_deleted kBuf (list descriptors) holds).keeps
          (.unreturned (.kernelPieces kBuf descriptors)))
        exact fun _ unmapped holds => (list_deleted descriptors closed_nil holds).keeps
          (.listUnreturned _ fun _ => nofun)
    | user buf alignedMem uBuf descriptors =>
        have words : Closed (⟨.words alignedMem, buf, none⟩ :: descriptors.leases) :=
          closed_cons (list descriptors) stands_on_nothing
        apply ends_bind ((user_memory_deleted uBuf words
          (stands_on_head ⟨.words alignedMem, buf, none⟩) holds).keeps
          (.unreturned (.user buf alignedMem uBuf descriptors)))
        intro _ unmapped holds
        apply ends_bind (ends_give holds (list descriptors))
        exact fun _ freed holds => (list_deleted descriptors closed_nil holds).keeps
          (.listUnreturned _ fun _ => nofun)
    | userNotOwned uBuf descriptors =>
        apply ends_bind ((user_memory_deleted uBuf (list descriptors) stands_on_nothing
          holds).keeps (.unreturned (.userNotOwned uBuf descriptors)))
        exact fun _ unmapped holds => (list_deleted descriptors closed_nil holds).keeps
          (.listUnreturned _ fun _ => nofun)
  exact ends_mono emptied (fun _ after holds => holds.dropped) fun _ _ keeps => keeps

end Buffers

/-- The buffers that were made and not deleted, and the calls that have ended, the latest
first. -/
structure Point where
  alignUsemem : Bool
  holder : Holder Kind Process
  live : List DMABuffer
  past : List Ended

inductive Request where
  | create (creation : Creation)
  | delete (index : ℕ)
  deriving DecidableEq, Repr

namespace Point

def ended (point : Point) (call : Call) (thrown : Option Exception)
    (after : Holder Kind Process) : Point :=
  let refused := refusals after.record - refusals point.holder.record
  { point with holder := after, past := ⟨call, thrown, refused⟩ :: point.past }

def create (point : Point) (creation : Creation) : Point :=
  match runFrom (creation.construct point.alignUsemem) point.holder with
  | (.ok buffer, after) =>
      { point.ended (.create creation) none after with live := buffer :: point.live }
  | (.error thrown, after) => point.ended (.create creation) (some thrown) after

def delete (point : Point) (index : ℕ) (buffer : DMABuffer) : Point :=
  let rest : Point := { point with live := point.live.eraseIdx index }
  match runFrom buffer.destruct point.holder with
  | (.ok _, after) => rest.ended (.delete buffer) none after
  | (.error thrown, after) => rest.ended (.delete buffer) (some thrown) after

/-- `none` for a buffer that is not there, and for no pieces, by which `fillDescriptorList`
divides. -/
def step (point : Point) : Request → Option Point
  | .create creation =>
      if creation = .ofType .kernelPieces 0 then none else some (point.create creation)
  | .delete index => point.live[index]?.map (point.delete index)

end Point

def bufferSystem : System Point Request where
  initial point := point.holder.record = [] ∧ point.live = [] ∧ point.past = []
  step := Point.step

def Left (point : Point) (strays : List (List (Lease Kind))) : Prop :=
  List.Forall₂ (fun ended (stray : List (Lease Kind)) =>
    Strayed point.alignUsemem ended (stray.map Lease.kind)) point.past strays

/-- What is held is what the live buffers have and what the calls have left. -/
def Accounted (point : Point) : Prop :=
  ∃ strays, Left point strays ∧
    Holds point.holder (point.past.map Ended.refused).sum
      (strays ++ point.live.map DMABuffer.leases)

section Runs

variable {point : Point} {strays : List (List (Lease Kind))}

theorem left_more {call : Call} {thrown : Option Exception} {after : Holder Kind Process}
    {live : List DMABuffer} {count : ℕ} {stray : List (Lease Kind)} (left : Left point strays)
    (holds : Holds point.holder (point.past.map Ended.refused).sum
      (strays ++ point.live.map DMABuffer.leases))
    (strayed : Strayed point.alignUsemem ⟨call, thrown, count⟩ (stray.map Lease.kind))
    (ends : Holds after ((point.past.map Ended.refused).sum + count)
      (stray :: strays ++ live.map DMABuffer.leases)) :
    Accounted { point.ended call thrown after with live := live } := by
  have counted : refusals after.record - refusals point.holder.record = count := by
    rw [ends.refusals, holds.refusals, Nat.add_sub_cancel_left]
  refine ⟨stray :: strays, ?_, ?_⟩
  · unfold Left Point.ended
    rw [counted]
    exact .cons strayed left
  · unfold Point.ended
    rw [counted, List.map_cons, List.sum_cons, Nat.add_comm]
    exact ends

theorem create_keeps (accounted : Accounted point) (creation : Creation) :
    Accounted (point.create creation) := by
  obtain ⟨strays, left, holds⟩ := accounted
  rcases (buffer_built point.alignUsemem creation holds).cases with
    ⟨buffer, after, ran, count, stray, strayed, built⟩ |
    ⟨thrown, after, ran, count, stray, strayed, built⟩
  · rw [Point.create, ran]
    apply left_more left holds strayed
    apply built.perm
    exact (@List.perm_middle _ buffer.leases (stray :: strays) _).symm
  · rw [Point.create, ran]
    exact left_more left holds strayed built

theorem delete_keeps (accounted : Accounted point) (index : ℕ) {buffer : DMABuffer}
    (found : point.live[index]? = some buffer) : Accounted (point.delete index buffer) := by
  obtain ⟨strays, left, holds⟩ := accounted
  obtain ⟨bound, same⟩ := List.getElem?_eq_some_iff.mp found
  have taken : point.live.Perm (buffer :: point.live.eraseIdx index) := by
    rw [← same]
    exact (List.getElem_cons_eraseIdx_perm bound).symm
  have front := holds.perm (((taken.map DMABuffer.leases).append_left strays).trans
    List.perm_middle)
  rcases (buffer_destructed point.alignUsemem buffer front).cases with
    ⟨value, after, ran, gone⟩ | ⟨thrown, after, ran, internal, stray, strayed, kept⟩
  · rw [Point.delete, ran]
    have strayed : Strayed point.alignUsemem ⟨.delete buffer, none, 0⟩
        (([] : List (Lease Kind)).map Lease.kind) := .deleted buffer
    exact left_more left holds strayed gone.opened
  · rw [Point.delete, ran, internal]
    exact left_more left holds strayed kept

theorem reached_accounted (reached : bufferSystem.Reachable point) : Accounted point := by
  refine System.invariant ?_ ?_ reached
  · intro start ⟨record, live, past⟩
    refine ⟨[], ?_, ?_⟩
    · rw [Left, past]
      exact .nil
    · rw [live, past]
      exact Holds.start record
  · intro before request after accounted moved
    cases request with
    | create creation =>
        by_cases divides : creation = .ofType .kernelPieces 0
        · rw [show bufferSystem.step before (.create creation) = none from if_pos divides] at moved
          cases moved
        · have created : some (before.create creation) = some after :=
            (if_neg divides).symm.trans moved
          cases created
          exact create_keeps accounted creation
    | delete index =>
        obtain ⟨buffer, found, same⟩ := Option.map_eq_some_iff.mp moved
        rw [← same]
        exact delete_keeps accounted index found

/-- A destructor throws where the driver has refused it something, and only there. -/
def Ended.ThrowsIfRefused (ended : Ended) : Prop :=
  ∀ buffer, ended.call = .delete buffer →
    ended.thrown = if ended.refused = 0 then none else some .internalError

theorem Strayed.throws_if_refused {alignUsemem : Bool} {ended : Ended} {kinds : List Kind}
    (strayed : Strayed alignUsemem ended kinds) : ended.ThrowsIfRefused := by
  intro buffer deletion
  cases strayed with
  | made | kernelRefused | piecesUnlisted | userRefused | userUnlisted => cases deletion
  | deleted => rfl
  | unreturned => rfl
  | listUnreturned => rfl

theorem Left.throws_if_refused (left : Left point strays) :
    ∀ ended ∈ point.past, ended.ThrowsIfRefused := by
  have both : List.Forall₂ (fun ended (stray : List (Lease Kind)) => ended.ThrowsIfRefused ∧
      Strayed point.alignUsemem ended (stray.map Lease.kind)) point.past strays :=
    left.imp fun _ _ strayed => ⟨strayed.throws_if_refused, strayed⟩
  exact ((List.forall₂_and_left _ _).mp both).1

/-- In every run the calls of constructors and destructors, refused by the driver anywhere or
not, give back nothing twice, nothing that something else stands on and nothing by another
allocator's function, nor do they try to. A destructor throws exactly where the driver refuses
to take something back from it. What is held is what the live buffers have, and from each call
exactly what its failure or the refusals leave. -/
theorem buffers_account_for_everything (reached : bufferSystem.Reachable point) :
    Orderly Uses point.holder.record ∧
    (∀ ended ∈ point.past, ended.ThrowsIfRefused) ∧
    refusals point.holder.record = (point.past.map Ended.refused).sum ∧
    ∃ strays, Left point strays ∧ ∀ lease, held point.holder.record lease =
      (strays ++ point.live.map DMABuffer.leases).flatten.count lease := by
  obtain ⟨strays, left, holds⟩ := reached_accounted reached
  exact ⟨holds.orderly, left.throws_if_refused, holds.refusals, strays, left, holds.accounts⟩

end Runs

/-- The driver refuses a mapping and the freeing after it, then the freeing by a destructor and
last the mapping of a descriptor list. -/
def refusing : Point where
  alignUsemem := true
  holder := ⟨[], 0, ⟨fun asked => if asked ∈ [1, 2, 6, 9] then none else some 1, 0, fun _ => 0⟩⟩
  live := []
  past := []

/-- `refusing` with a kernel buffer from the second turn. -/
def secondTurn : Point :=
  let buffer : Lease Kind := ⟨.kernelBuffer, 3, none⟩
  let stats := (refusing.create (.ofType .kernel 1)).holder.rest.retryStatsKernel
  { refusing with
    holder := ⟨[.taken ⟨.kernelMapping, 4, some 3⟩, .taken buffer, .taken ⟨.kernelMemory, 2, none⟩,
      .given ⟨.kernelMemory, 0, none⟩, .refused ⟨.kernelBuffer, 1, none⟩,
      .taken ⟨.kernelBuffer, 1, none⟩, .taken ⟨.kernelMemory, 0, none⟩],
      5, ⟨refusing.holder.rest.answers, 6, stats⟩⟩
    live := [.kernel ⟨3, 4, 2⟩]
    past := [⟨.create (.ofType .kernel 1), none, 1⟩] }

def kernelUnfreed : Point :=
  { secondTurn with
    holder := ⟨.given ⟨.kernelMemory, 2, none⟩ :: .refused ⟨.kernelBuffer, 3, none⟩ ::
      .given ⟨.kernelMapping, 4, some 3⟩ :: secondTurn.holder.record,
      5, { secondTurn.holder.rest with asked := 7 }⟩
    live := []
    past := ⟨.delete (.kernel ⟨3, 4, 2⟩), some .internalError, 1⟩ :: secondTurn.past }

theorem buffers_account_for_everything_refused : ∃ point, bufferSystem.Reachable point ∧
    point.live = [] ∧ point.past.map Ended.thrown = [some .userMmapFailed, some .internalError, none] ∧
    refusals point.holder.record = 2 ∧ (point.past.map Ended.refused).sum = 2 ∧
    Orderly Uses point.holder.record ∧ held point.holder.record ⟨.kernelBuffer, 1, none⟩ = 1 := by
  let point := kernelUnfreed.create (.ofType .user 1)
  have start : bufferSystem.Reachable refusing := .start ⟨rfl, rfl, rfl⟩
  have made : bufferSystem.step refusing (.create (.ofType .kernel 1)) = some secondTurn := rfl
  have deleted : bufferSystem.step secondTurn (.delete 0) = some kernelUnfreed := rfl
  have failed : bufferSystem.step kernelUnfreed (.create (.ofType .user 1)) = some point := rfl
  have reached := ((start.next trivial made).next trivial deleted).next trivial failed
  have accounts := buffers_account_for_everything reached
  have both : refusals point.holder.record = 2 := rfl
  exact ⟨point, reached, rfl, rfl, both, accounts.2.2.1.symm.trans both, accounts.1, by decide⟩

end FpgaPcie.Mprace.Lifetime
