import FpgaPcie.Lib.Leases

/-!
# What DMA buffers hold

The three constructors of `DMABuffer` and its destructor, with the kernel and user memory,
the retries of `PCIDriver` and the descriptor list under them, by what they take and give
back. Each call to the kernel that can be refused may be, those that give back as well. What
a constructor holds when it throws stays as it is: its destructor does not run.
-/

namespace FpgaPcie.Mprace.Lifetime

open FpgaPcie.Throwing FpgaPcie.Leases

set_option autoImplicit false

inductive Kind where
  /-- the words of a user buffer, with the allocator they belong to -/
  | words (alignedMem : Bool)
  /-- memory of the kernel, by its entry in the driver -/
  | kernelBuffer
  | kernelMapping
  /-- user pages mapped for the device, by their entry in the driver -/
  | userPages
  /-- `sgl.sg` of `UserMemory::UserMemory` -/
  | driverList
  /-- `UserMemory::sg` -/
  | sgList
  /-- the pages of the native descriptors -/
  | nativePages
  /-- `array` of a descriptor list -/
  | descriptors
  /-- what a descriptor object has of its own before it is linked -/
  | nativeDescriptor
  | blocks
  /-- the objects that `new` makes -/
  | kernelMemory
  | userMemory
  | descriptorList
  deriving DecidableEq, Repr

inductive Exception where
  | allocFailed
  | sgmapFailed
  | internalError
  | kernelAllocFailed
  | userMmapFailed
  | unknown
  deriving DecidableEq, Repr

/-- What a call that can fail answers is `none` where it is refused, and the number of entries
for `PCIDRIVER_IOC_UMEM_SGGET`. -/
structure Process where
  answers : ℕ → Option ℕ
  asked : ℕ
  retryStatsKernel : ℕ → ℕ

abbrev Action (Value : Type) : Type := Program Exception (Holder Kind Process) Value

def ask : Action (Option ℕ) :=
  changeRest fun process =>
    (process.answers process.asked, { process with asked := process.asked + 1 })

/-- `PCIDRIVER_IOC_KMEM_FREE` and `PCIDRIVER_IOC_UMEM_SGUNMAP`, by whether they succeed. -/
def giveBack (lease : Lease Kind) : Action Bool := do
  match ← ask with
  | none => do
      refuse lease
      return false
  | some _ => do
      give lease
      return true

def giveBackOrThrow (lease : Lease Kind) : Action Unit := do
  let accepted ← giveBack lease
  if accepted then return () else throw .internalError

/-- `new`; the object is freed where its constructor throws. -/
def newObject {Value : Type} (kind : Kind) (construct : ℕ → Action Value) : Action Value := do
  let object ← take kind none
  tryCatch (construct object) fun thrown => do
    give ⟨kind, object, none⟩
    throw thrown

/-- `delete`; the object is freed even where its destructor throws. -/
def deleteObject (object : Lease Kind) (destruct : Action Unit) : Action Unit := do
  tryCatch destruct fun thrown => do
    give object
    throw thrown
  give object

structure KernelMemory where
  handleId : ℕ
  mem : ℕ
  object : ℕ
  deriving DecidableEq, Repr

namespace KernelMemory

def mapping (kernelMemory : KernelMemory) : Lease Kind :=
  ⟨.kernelMapping, kernelMemory.mem, some kernelMemory.handleId⟩

def buffer (kernelMemory : KernelMemory) : Lease Kind :=
  ⟨.kernelBuffer, kernelMemory.handleId, none⟩

def own (kernelMemory : KernelMemory) : Lease Kind :=
  ⟨.kernelMemory, kernelMemory.object, none⟩

def leases (kernelMemory : KernelMemory) : List (Lease Kind) :=
  [kernelMemory.mapping, kernelMemory.buffer, kernelMemory.own]

def pdAllockmErr (handleId : ℕ) : Action KernelMemory := do
  let _ ← giveBack ⟨.kernelBuffer, handleId, none⟩
  throw .allocFailed

def construct (object : ℕ) : Action KernelMemory := do
  let allocated ← ask
  if allocated = none then throw .allocFailed
  else do
    let handleId ← take .kernelBuffer none
    let mode ← ask
    if mode = none then pdAllockmErr handleId
    else do
      let mapped ← ask
      if mapped = none then pdAllockmErr handleId
      else do
        let mem ← take .kernelMapping (some handleId)
        return ⟨handleId, mem, object⟩

def destruct (kernelMemory : KernelMemory) : Action Unit := do
  give kernelMemory.mapping
  giveBackOrThrow kernelMemory.buffer

def delete (kernelMemory : KernelMemory) : Action Unit :=
  deleteObject kernelMemory.own kernelMemory.destruct

end KernelMemory

/-- Of the memory at `vma`, or of memory of the caller's. -/
structure UserMemory (vma : Option ℕ) where
  handleId : ℕ
  sg : ℕ
  nents : ℕ
  object : ℕ
  deriving DecidableEq, Repr

namespace UserMemory

def pages {vma : Option ℕ} (userMemory : UserMemory vma) : Lease Kind :=
  ⟨.userPages, userMemory.handleId, vma⟩

def entries {vma : Option ℕ} (userMemory : UserMemory vma) : Lease Kind :=
  ⟨.sgList, userMemory.sg, none⟩

def own {vma : Option ℕ} (userMemory : UserMemory vma) : Lease Kind :=
  ⟨.userMemory, userMemory.object, none⟩

def leases {vma : Option ℕ} (userMemory : UserMemory vma) : List (Lease Kind) :=
  [userMemory.entries, userMemory.pages, userMemory.own]

def construct (vma : Option ℕ) (object : ℕ) : Action (UserMemory vma) := do
  let mapped ← ask
  if mapped = none then throw .sgmapFailed
  else do
    let handleId ← take .userPages vma
    let sgl ← take .driverList none
    match ← ask with
    | none => do
        -- what the ioctl answers is not looked at
        let _ ← giveBack ⟨.userPages, handleId, vma⟩
        give ⟨.driverList, sgl, none⟩
        throw .sgmapFailed
    | some nents => do
        let sg ← take .sgList none
        give ⟨.driverList, sgl, none⟩
        return ⟨handleId, sg, nents, object⟩

def destruct {vma : Option ℕ} (userMemory : UserMemory vma) : Action Unit := do
  give userMemory.entries
  giveBackOrThrow userMemory.pages

def delete {vma : Option ℕ} (userMemory : UserMemory vma) : Action Unit :=
  deleteObject userMemory.own userMemory.destruct

end UserMemory

namespace PCIDriver

def maxRetries : ℕ := 20

def countRetry (change : ℕ → ℕ) (retryCount : ℕ) : Action Unit :=
  changeRest fun process => ((), { process with
    retryStatsKernel := fun other =>
      if other = retryCount then change (process.retryStatsKernel other)
      else process.retryStatsKernel other })

def allocTurn (retryCount : ℕ) : Action (Option KernelMemory) := do
  countRetry (· + 1) retryCount
  tryCatch (do
    let kernelMemory ← newObject .kernelMemory KernelMemory.construct
    return some kernelMemory) fun
    | .allocFailed => do
        countRetry (· - 1) retryCount
        return none
    | .sgmapFailed => throw .sgmapFailed
    | .internalError => throw .internalError
    | _ => throw .unknown

def allocKernelMemory : Action KernelMemory :=
  retry allocTurn (throw .kernelAllocFailed) 0 maxRetries

def mapUserMemory (vma : Option ℕ) : Action (UserMemory vma) :=
  tryCatch (newObject .userMemory (UserMemory.construct vma)) fun
    | .sgmapFailed => throw .userMmapFailed
    | .allocFailed => throw .allocFailed
    | .internalError => throw .internalError
    | _ => throw .unknown

end PCIDriver

structure DMADescriptorListWG where
  array : ℕ
  nativePtr : ℕ
  uBuf : UserMemory (some nativePtr)
  blocks : ℕ
  object : ℕ
  deriving DecidableEq, Repr

namespace DMADescriptorListWG

def pages (list : DMADescriptorListWG) : Lease Kind :=
  ⟨.nativePages, list.nativePtr, none⟩

def own (list : DMADescriptorListWG) : Lease Kind :=
  ⟨.descriptorList, list.object, none⟩

def leases (list : DMADescriptorListWG) : List (Lease Kind) :=
  ⟨.blocks, list.blocks, none⟩ :: ⟨.descriptors, list.array, none⟩ ::
    (list.uBuf.leases ++ [list.pages, list.own])

/-- `DMADescriptorListWG::DMADescriptorListWG` with `init` and `link`. Each descriptor object
gives up its own native descriptor when it is linked. -/
def construct (size : ℕ) (object : ℕ) : Action DMADescriptorListWG := do
  let array ← take .descriptors none
  let natives ← takeEach .nativeDescriptor size
  let nativePtr ← take .nativePages none
  let uBuf ← PCIDriver.mapUserMemory (some nativePtr)
  let blocks ← take .blocks none
  giveEach .nativeDescriptor natives
  return ⟨array, nativePtr, uBuf, blocks, object⟩

/-- `DMADescriptorListWG::~DMADescriptorListWG`. -/
def destruct (list : DMADescriptorListWG) : Action Unit := do
  give ⟨.blocks, list.blocks, none⟩
  give ⟨.descriptors, list.array, none⟩
  list.uBuf.delete
  give list.pages

def delete (list : DMADescriptorListWG) : Action Unit :=
  deleteObject list.own list.destruct

end DMADescriptorListWG

inductive MemType where
  | kernel
  | kernelPieces
  | user
  deriving DecidableEq, Repr

/-- By its type, with what `ownsMem` and `alignedMem` say about user memory. -/
inductive DMABuffer where
  | kernel (kBuf : KernelMemory)
  | kernelPieces (kBuf : KernelMemory) (descriptors : DMADescriptorListWG)
  | user (buf : ℕ) (alignedMem : Bool) (uBuf : UserMemory (some buf))
      (descriptors : DMADescriptorListWG)
  /-- not `ownsMem` -/
  | userNotOwned (uBuf : UserMemory none) (descriptors : DMADescriptorListWG)
  deriving DecidableEq, Repr

namespace DMABuffer

def leases : DMABuffer → List (Lease Kind)
  | .kernel kBuf => kBuf.leases
  | .kernelPieces kBuf descriptors => kBuf.leases ++ descriptors.leases
  | .user buf alignedMem uBuf descriptors =>
      uBuf.leases ++ ⟨.words alignedMem, buf, none⟩ :: descriptors.leases
  | .userNotOwned uBuf descriptors => uBuf.leases ++ descriptors.leases

/-- `DMAEngineWG::fillDescriptorList`, of a buffer that has one. -/
def fillDescriptorList (size : ℕ) : Action DMADescriptorListWG :=
  newObject .descriptorList (DMADescriptorListWG.construct size)

/-- `DMABuffer(Board&, size, aligned)`, with one descriptor for each entry. -/
def constructAligned (aligned : Bool) : Action DMABuffer := do
  let buf ← take (.words aligned) none
  let uBuf ← PCIDriver.mapUserMemory (some buf)
  let descriptors ← fillDescriptorList uBuf.nents
  return .user buf aligned uBuf descriptors

def constructNotOwned : Action DMABuffer := do
  let uBuf ← PCIDriver.mapUserMemory none
  let descriptors ← fillDescriptorList uBuf.nents
  return .userNotOwned uBuf descriptors

/-- `DMABuffer(Board&, size, type, pieces)`; `alignUsemem` is set where the library is built
with `ALIGN_USEMEM`. -/
def construct (alignUsemem : Bool) (pieces : ℕ) : MemType → Action DMABuffer
  | .kernel => do
      let kBuf ← PCIDriver.allocKernelMemory
      return .kernel kBuf
  | .kernelPieces => do
      let kBuf ← PCIDriver.allocKernelMemory
      let descriptors ← fillDescriptorList pieces
      return .kernelPieces kBuf descriptors
  | .user => constructAligned alignUsemem

/-- `DMABuffer::~DMABuffer`, with `releaseDescriptorList`. -/
def destruct : DMABuffer → Action Unit
  | .kernel kBuf => kBuf.delete
  | .kernelPieces kBuf descriptors => do
      kBuf.delete
      descriptors.delete
  | .user buf alignedMem uBuf descriptors => do
      uBuf.delete
      give ⟨.words alignedMem, buf, none⟩
      descriptors.delete
  | .userNotOwned uBuf descriptors => do
      uBuf.delete
      descriptors.delete

end DMABuffer

section Calls

variable {holder : Holder Kind Process} {groups others : List (List (Lease Kind))}
  {own left : List (Lease Kind)} {lease object : Lease Kind} {refused size : ℕ}
  {throws : Exception → Holder Kind Process → Prop} {vma : Option ℕ}

theorem ends_ask (holds : Holds holder refused groups) :
    Ends ask holder (fun _ after => Holds after refused groups) throws :=
  ends_change_rest holds

theorem ends_give_back (closed : Closed own)
    (holds : Holds holder refused ((lease :: own) :: others)) :
    Ends (giveBack lease) holder (fun accepted after =>
      accepted = true ∧ Holds after refused (own :: others) ∨
        accepted = false ∧ Holds after (refused + 1) ((lease :: own) :: others)) throws := by
  apply ends_bind (ends_ask holds)
  intro answer asked holds
  cases answer with
  | none =>
      apply ends_bind (ends_refuse holds closed)
      exact fun _ after kept => ends_pure (Or.inr ⟨rfl, kept⟩)
  | some value =>
      apply ends_bind (ends_give holds closed)
      exact fun _ after gave => ends_pure (Or.inl ⟨rfl, gave⟩)

/-- A destructor gives back all its object has, or throws and leaves `left`. -/
def Destroys (destruct : Action Unit) (left own : List (Lease Kind))
    (others : List (List (Lease Kind))) (refused : ℕ) (holder : Holder Kind Process) : Prop :=
  Ends destruct holder (fun _ after => Holds after refused (own :: others))
    fun thrown after => thrown = .internalError ∧
      Holds after (refused + 1) ((left ++ own) :: others)

theorem given_back_or_thrown (closed : Closed own)
    (holds : Holds holder refused ((lease :: own) :: others)) :
    Destroys (giveBackOrThrow lease) [lease] own others refused holder := by
  apply ends_bind (ends_give_back closed holds)
  intro accepted after either
  rcases either with ⟨accepts, gave⟩ | ⟨refuses, kept⟩
  · rw [accepts]
    exact ends_pure gave
  · rw [refuses]
    exact ends_throw ⟨rfl, kept⟩

theorem object_deleted {destruct : Action Unit} (closed : Closed own)
    (still : Closed (left ++ own))
    (destroyed : Destroys destruct left (object :: own) others refused holder) :
    Destroys (deleteObject object destruct) left own others refused holder := by
  apply ends_bind
  · apply ends_catch destroyed
    intro thrown middle ⟨internal, kept⟩
    apply ends_bind (ends_give (kept.reorder List.perm_middle) still)
    exact fun _ after freed => ends_throw ⟨internal, freed⟩
  · exact fun _ middle gave => ends_give gave closed

theorem kernel_memory_deleted (kernelMemory : KernelMemory) (closed : Closed own)
    (holds : Holds holder refused ((kernelMemory.leases ++ own) :: others)) :
    Destroys kernelMemory.delete [kernelMemory.buffer] own others refused holder := by
  have object : Closed (kernelMemory.own :: own) := closed_cons closed stands_on_nothing
  apply object_deleted closed (closed_cons closed stands_on_nothing)
  apply ends_bind (ends_give holds (closed_cons object stands_on_nothing))
  exact fun _ unmapped gave => given_back_or_thrown object gave

theorem user_memory_deleted (userMemory : UserMemory vma) (closed : Closed own)
    (stands : ∀ below ∈ vma, below ∈ own.map Lease.id)
    (holds : Holds holder refused ((userMemory.leases ++ own) :: others)) :
    Destroys userMemory.delete [userMemory.pages] own others refused holder := by
  have object : Closed (userMemory.own :: own) := closed_cons closed stands_on_nothing
  have pages : Closed (userMemory.pages :: userMemory.own :: own) :=
    closed_cons object fun below on => List.mem_cons_of_mem _ (stands below on)
  apply object_deleted closed (closed_cons closed stands)
  apply ends_bind (ends_give holds pages)
  exact fun _ freed gave => given_back_or_thrown object gave

def Lost (kind : Kind) (on : Option ℕ) (count : ℕ) (lost : List (Lease Kind)) : Prop :=
  lost.length = count ∧ ∀ lease ∈ lost, lease.kind = kind ∧ lease.on = on

theorem lost_nothing (kind : Kind) (on : Option ℕ) : Lost kind on 0 [] :=
  ⟨rfl, fun _ member => absurd member List.not_mem_nil⟩

theorem lost_one (kind : Kind) (on : Option ℕ) (id : ℕ) : Lost kind on 1 [⟨kind, id, on⟩] := by
  refine ⟨rfl, ?_⟩
  intro lease member
  rw [List.mem_singleton.mp member]
  exact ⟨rfl, rfl⟩

section Lost

variable {kind : Kind} {on : Option ℕ} {count more : ℕ} {lost also : List (Lease Kind)}

theorem Lost.append (first : Lost kind on count lost) (second : Lost kind on more also) :
    Lost kind on (more + count) (also ++ lost) := by
  refine ⟨?_, ?_⟩
  · rw [List.length_append, first.1, second.1]
  · intro lease member
    rcases List.mem_append.mp member with new | old
    · exact second.2 lease new
    · exact first.2 lease old

theorem Lost.kinds (all : Lost kind on count lost) :
    lost.map Lease.kind = List.replicate count kind := by
  rw [List.eq_replicate_iff]
  refine ⟨(List.length_map _).trans all.1, ?_⟩
  intro other member
  obtain ⟨lease, inside, same⟩ := List.mem_map.mp member
  rw [← same]
  exact (all.2 lease inside).1

theorem Lost.closed (all : Lost kind on count lost) (closed : Closed own)
    (stands : ∀ below ∈ on, below ∈ own.map Lease.id) : Closed (lost ++ own) := by
  intro lease member below base
  rw [List.map_append, List.mem_append]
  rcases List.mem_append.mp member with new | old
  · rw [(all.2 lease new).2] at base
    exact Or.inr (stands below base)
  · exact Or.inr (closed lease old below base)

end Lost

/-- A constructor leaves what it took with its object, or throws and leaves what is allowed to
stay after so many refusals. -/
def Makes {Value : Type} (construct : Action Value) (leases : Value → List (Lease Kind))
    (thrown : Exception) (stays : ℕ → List (Lease Kind) → Prop) (own : List (Lease Kind))
    (others : List (List (Lease Kind))) (refused : ℕ) (holder : Holder Kind Process) : Prop :=
  Ends construct holder
    (fun object after => Holds after refused ((leases object ++ own) :: others))
    fun type after => type = thrown ∧ ∃ count left, stays count left ∧
      Holds after (refused + count) ((left ++ own) :: others)

/-- What is left when the memory of the object is not freed yet. -/
def Leaves (thrown : Exception) (stays : ℕ → List (Lease Kind) → Prop) (object : Lease Kind)
    (own : List (Lease Kind)) (others : List (List (Lease Kind))) (refused : ℕ)
    (type : Exception) (after : Holder Kind Process) : Prop :=
  type = thrown ∧ ∃ count left, stays count left ∧ Closed (left ++ own) ∧
    Holds after (refused + count) ((left ++ object :: own) :: others)

theorem object_made {Value : Type} {kind : Kind} {construct : ℕ → Action Value}
    {leases : Value → List (Lease Kind)} {thrown : Exception}
    {stays : ℕ → List (Lease Kind) → Prop} (holds : Holds holder refused (own :: others))
    (made : ∀ object after, Holds after refused ((⟨kind, object, none⟩ :: own) :: others) →
      Ends (construct object) after
        (fun value after => Holds after refused ((leases value ++ own) :: others))
        (Leaves thrown stays ⟨kind, object, none⟩ own others refused)) :
    Makes (newObject kind construct) leases thrown stays own others refused holder := by
  apply ends_bind (ends_take holds stands_on_nothing)
  intro object middle took
  apply ends_catch (made object middle took)
  intro type after ⟨same, count, left, allowed, closed, holds⟩
  apply ends_bind (ends_give (holds.reorder List.perm_middle) closed)
  exact fun _ after freed => ends_throw ⟨same, count, left, allowed, freed⟩

theorem pd_allockm_err {returns : KernelMemory → Holder Kind Process → Prop} (handleId : ℕ)
    (closed : Closed own) (free : Closed (object :: own))
    (holds : Holds holder refused ((⟨.kernelBuffer, handleId, none⟩ :: object :: own) :: others)) :
    Ends (KernelMemory.pdAllockmErr handleId) holder returns
      (Leaves .allocFailed (Lost .kernelBuffer none) object own others refused) := by
  apply ends_bind (ends_give_back free holds)
  intro accepted after either
  rcases either with ⟨-, gave⟩ | ⟨-, kept⟩
  · exact ends_throw ⟨rfl, 0, [], lost_nothing _ _, closed, gave⟩
  · exact ends_throw ⟨rfl, 1, [_], lost_one _ _ handleId, closed_cons closed stands_on_nothing, kept⟩

theorem kernel_memory_made (holds : Holds holder refused (own :: others)) :
    Makes (newObject .kernelMemory KernelMemory.construct) KernelMemory.leases .allocFailed
      (Lost .kernelBuffer none) own others refused holder := by
  have closed := holds.head
  apply object_made holds
  intro object middle holds
  apply ends_bind (ends_ask holds)
  intro allocated asked holds
  by_cases refuses : allocated = none
  · rw [if_pos refuses]
    exact ends_throw ⟨rfl, 0, [], lost_nothing _ _, closed, holds⟩
  rw [if_neg refuses]
  apply ends_bind (ends_take holds stands_on_nothing)
  intro handleId taken entered
  apply ends_bind (ends_ask entered)
  intro mode asked moded
  by_cases refuses : mode = none
  · rw [if_pos refuses]
    exact pd_allockm_err handleId closed holds.head moded
  rw [if_neg refuses]
  apply ends_bind (ends_ask moded)
  intro mapped asked answered
  by_cases refuses : mapped = none
  · rw [if_pos refuses]
    exact pd_allockm_err handleId closed holds.head answered
  rw [if_neg refuses]
  apply ends_bind (ends_take answered (stands_on_head ⟨.kernelBuffer, handleId, none⟩))
  exact fun mem after took => ends_pure took

theorem user_memory_made (holds : Holds holder refused (own :: others))
    (stands : ∀ below ∈ vma, below ∈ own.map Lease.id) :
    Makes (newObject .userMemory (UserMemory.construct vma)) UserMemory.leases .sgmapFailed
      (Lost .userPages vma) own others refused holder := by
  have closed := holds.head
  apply object_made holds
  intro object middle holds
  apply ends_bind (ends_ask holds)
  intro mapped asked holds
  by_cases refuses : mapped = none
  · rw [if_pos refuses]
    exact ends_throw ⟨rfl, 0, [], lost_nothing _ _, closed, holds⟩
  rw [if_neg refuses]
  have below : ∀ below ∈ vma, below ∈ (Lease.mk Kind.userMemory object none :: own).map Lease.id :=
    fun below on => List.mem_cons_of_mem _ (stands below on)
  apply ends_bind (ends_take holds below)
  intro handleId taken entered
  apply ends_bind (ends_take entered stands_on_nothing)
  intro sgl taken listed
  apply ends_bind (ends_ask listed)
  intro answer asked answered
  cases answer with
  | none =>
      have swapped := answered.reorder (.swap _ _ _)
      have rest : Closed (⟨.driverList, sgl, none⟩ :: ⟨.userMemory, object, none⟩ :: own) :=
        closed_cons holds.head stands_on_nothing
      apply ends_bind (ends_give_back rest swapped)
      intro accepted middle either
      rcases either with ⟨-, unmapped⟩ | ⟨-, kept⟩
      · apply ends_bind (ends_give unmapped holds.head)
        exact fun _ after gave => ends_throw ⟨rfl, 0, [], lost_nothing _ _, closed, gave⟩
      · apply ends_bind (ends_give (kept.reorder (.swap _ _ _)) entered.head)
        exact fun _ after gave => ends_throw ⟨rfl, 1, [_], lost_one _ _ handleId,
          closed_cons closed stands, gave⟩
  | some nents =>
      apply ends_bind (ends_take answered stands_on_nothing)
      intro sg taken copied
      have swapped := copied.reorder (.swap _ _ _)
      have rest : Closed (Lease.mk Kind.sgList sg none :: ⟨.userPages, handleId, vma⟩ ::
          ⟨.userMemory, object, none⟩ :: own) := closed_cons entered.head stands_on_nothing
      apply ends_bind (ends_give swapped rest)
      exact fun _ after gave => ends_pure gave

/-- Each turn that failed has freed what it allocated, where that was not refused. -/
theorem kernel_memory_allocated (holds : Holds holder refused (own :: others)) :
    Ends PCIDriver.allocKernelMemory holder
      (fun kBuf after => ∃ count lost, Lost .kernelBuffer none count lost ∧
        Holds after (refused + count) ((kBuf.leases ++ (lost ++ own)) :: others))
      fun type after => type = .kernelAllocFailed ∧ ∃ count lost,
        Lost .kernelBuffer none count lost ∧
        Holds after (refused + count) ((lost ++ own) :: others) := by
  apply ends_retry (fun state => ∃ count lost, Lost .kernelBuffer none count lost ∧
    Holds state (refused + count) ((lost ++ own) :: others)) _ _ 0 PCIDriver.maxRetries
  · exact ⟨0, [], lost_nothing _ _, holds⟩
  · intro retryCount before ⟨count, lost, all, holds⟩
    apply ends_bind (ends_change_rest holds)
    intro _ counted holds
    apply ends_catch
    · apply ends_bind (kernel_memory_made holds)
      exact fun object after made => ends_pure ⟨count, lost, all, made⟩
    · intro type after ⟨failed, more, also, lostAlso, holds⟩
      rw [failed]
      rw [← List.append_assoc, Nat.add_assoc, Nat.add_comm count more] at holds
      apply ends_bind (ends_change_rest holds)
      exact fun _ after holds => ends_pure ⟨more + count, also ++ lost, all.append lostAlso, holds⟩
  · exact fun before kept => ends_throw ⟨rfl, kept⟩

theorem user_memory_mapped (holds : Holds holder refused (own :: others))
    (stands : ∀ below ∈ vma, below ∈ own.map Lease.id) :
    Makes (PCIDriver.mapUserMemory vma) UserMemory.leases .userMmapFailed (Lost .userPages vma)
      own others refused holder := by
  apply ends_catch (user_memory_made holds stands)
  intro type after ⟨failed, stays⟩
  rw [failed]
  exact ends_throw ⟨rfl, stays⟩

/-- What stays of a list whose native descriptors could not be mapped. -/
def unlisted (size : ℕ) : List Kind :=
  .nativePages :: (List.replicate size .nativeDescriptor ++ [.descriptors])

def Unlisted (size count : ℕ) (left : List (Lease Kind)) : Prop :=
  left.map Lease.kind = List.replicate count .userPages ++ unlisted size

theorem map_kind_plain (kind : Kind) (ids : List ℕ) :
    (plain kind ids).map Lease.kind = List.replicate ids.length kind := by
  rw [plain, List.map_map]
  exact List.map_const'

theorem closed_user_memory (userMemory : UserMemory vma) (closed : Closed own)
    (stands : ∀ below ∈ vma, below ∈ own.map Lease.id) : Closed (userMemory.leases ++ own) := by
  have object : Closed (userMemory.own :: own) := closed_cons closed stands_on_nothing
  have pages : Closed (userMemory.pages :: userMemory.own :: own) :=
    closed_cons object fun below on => List.mem_cons_of_mem _ (stands below on)
  exact closed_cons pages stands_on_nothing

theorem closed_pages (list : DMADescriptorListWG) (closed : Closed own) :
    Closed (list.uBuf.leases ++ list.pages :: own) :=
  closed_user_memory list.uBuf (closed_cons closed stands_on_nothing) (stands_on_head list.pages)

theorem closed_list (list : DMADescriptorListWG) (closed : Closed own) :
    Closed (list.leases ++ own) := by
  have object : Closed (list.own :: own) := closed_cons closed stands_on_nothing
  exact closed_cons (closed_cons (closed_pages list object) stands_on_nothing) stands_on_nothing

theorem linked_perm (list : DMADescriptorListWG) (natives own : List (Lease Kind)) :
    List.Perm (⟨.blocks, list.blocks, none⟩ :: (list.uBuf.leases ++
        list.pages ::
          (natives ++ ⟨.descriptors, list.array, none⟩ :: list.own :: own)))
      (natives ++ (list.leases ++ own)) := by
  rw [List.perm_iff_count]
  intro lease
  simp only [DMADescriptorListWG.leases, List.count_append, List.count_cons, List.count_nil]
  omega

theorem list_made (size : ℕ) (holds : Holds holder refused (own :: others)) :
    Makes (DMABuffer.fillDescriptorList size) DMADescriptorListWG.leases .userMmapFailed
      (Unlisted size) own others refused holder := by
  have closed := holds.head
  apply object_made holds
  intro object middle holds
  apply ends_bind (ends_take holds stands_on_nothing)
  intro array taken arrayed
  apply ends_bind (ends_take_each size arrayed)
  intro natives made ⟨count, made⟩
  apply ends_bind (ends_take made stands_on_nothing)
  intro nativePtr taken paged
  apply ends_bind
  · apply ends_mono (user_memory_mapped paged (stands_on_head ⟨.nativePages, nativePtr, none⟩))
    · exact fun uBuf after mapped => mapped
    · intro type after ⟨thrown, lostCount, lost, all, holds⟩
      have described : Closed (⟨.descriptors, array, none⟩ :: own) :=
        closed_cons closed stands_on_nothing
      have native : Closed (⟨.nativePages, nativePtr, none⟩ ::
          (plain .nativeDescriptor natives ++ ⟨.descriptors, array, none⟩ :: own)) :=
        closed_cons (closed_plain natives described) stands_on_nothing
      refine ⟨thrown, lostCount, lost ++ ⟨.nativePages, nativePtr, none⟩ ::
        (plain .nativeDescriptor natives ++ [⟨.descriptors, array, none⟩]), ?_, ?_, ?_⟩
      · rw [Unlisted, List.map_append, all.kinds, List.map_cons, List.map_append, map_kind_plain,
          count]
        rfl
      · rw [List.append_assoc, List.cons_append, List.append_assoc]
        exact all.closed native (stands_on_head ⟨.nativePages, nativePtr, none⟩)
      · rw [List.append_assoc, List.cons_append, List.append_assoc]
        exact holds
  · intro uBuf after mapped
    apply ends_bind (ends_take mapped stands_on_nothing)
    intro blocks taken blocked
    let list : DMADescriptorListWG := ⟨array, nativePtr, uBuf, blocks, object⟩
    have moved := blocked.reorder (linked_perm list (plain .nativeDescriptor natives) own)
    apply ends_bind (ends_give_each natives (closed_list list closed) moved)
    exact fun _ after linked => ends_pure linked

theorem list_deleted (list : DMADescriptorListWG) (closed : Closed own)
    (holds : Holds holder refused ((list.leases ++ own) :: others)) :
    Destroys list.delete [list.uBuf.pages, list.pages] own others refused holder := by
  have object : Closed (list.own :: own) := closed_cons closed stands_on_nothing
  have mapped := closed_pages list object
  have pages : Closed (list.pages :: list.own :: own) := closed_cons object stands_on_nothing
  have still : Closed (list.uBuf.pages :: list.pages :: own) :=
    closed_cons (closed_cons closed stands_on_nothing) (stands_on_head list.pages)
  apply object_deleted closed still
  apply ends_bind (ends_give holds (closed_cons mapped stands_on_nothing))
  intro _ unblocked holds
  apply ends_bind (ends_give holds mapped)
  intro _ undescribed holds
  apply ends_bind (user_memory_deleted list.uBuf pages (stands_on_head list.pages) holds)
  exact fun _ unmapped holds => ends_give holds object

end Calls

end FpgaPcie.Mprace.Lifetime
