import FpgaPcie.Lib.Transition
import FpgaPcie.Mprace.PendingEdits
import FpgaPcie.Mprace.WaitOutcome

/-!
# Integrity of the descriptor lists over runs

The calls of a program on one engine as a transition system. A run keeps every list
either as it was filled or one `restoreSavedData` away from it, provided no call
overwrites a record that is still needed, builds on a list that is cut, or frees a
buffer that a record names. Without that the engine itself breaks its lists: it has
one record for each channel and looks at it only when it waits.
-/

namespace FpgaPcie.Mprace

open FpgaPcie.Segments FpgaPcie.Transition FpgaPcie.Keyed DMADescriptorWG

set_option autoImplicit false

instance (entries : List UmemSgEntry) (size : U32) : Decidable (CoversBuffer entries size) :=
  decidable_of_iff (entries ≠ [] ∧ (∀ entry ∈ entries, entry.size.toNat < 2 ^ 32) ∧
      (entries.map fun entry => entry.size.toNat).sum = size.toNat)
    ⟨fun ⟨nonempty, short, total⟩ => ⟨nonempty, short, total⟩,
      fun covers => ⟨covers.nonempty, covers.short, covers.total⟩⟩

/-- What a `DMABuffer` can be built on, with the bus addresses its list is linked to. -/
def Creatable (memory : Memory) (size : U32) (pas : List U64) : Prop :=
  pas.length = descriptorCount memory ∧
    match memory with
    | .kernel _ => True
    | .kernelPieces _ pieces => 0 < pieces.toNat
    | .user entries => CoversBuffer entries size

instance (memory : Memory) (size : U32) (pas : List U64) : Decidable (Creatable memory size pas) :=
  match memory with
  | .kernel _ => instDecidableAnd
  | .kernelPieces _ _ => instDecidableAnd
  | .user _ => instDecidableAnd

inductive Call (Time : Type) where
  | create (b : BufId) (buf : DMABuffer) (pas : List U64)
  | transfer (ch : Channel) (b : BufId) (request : Request)
      (lock : Option (Time × Environment Time)) (fuel : ℕ)
  | getStatus (ch : Channel)
  | waitChannel (ch : Channel) (timeout : Time) (env : Environment Time) (fuel : ℕ)
  | destroy (b : BufId)

namespace World

/-- The constructor of a buffer, up to its list; `b` is the new object. -/
def create (world : World) (b : BufId) (buf : DMABuffer) (pas : List U64) : Option World :=
  match world.bufs b with
  | some _ => none
  | none =>
      if Creatable buf.memory buf.size pas then
        some (world.setBuf b
          { buf with descriptors := fillDescriptorList buf.memory buf.size pas })
      else none

def destroy (world : World) (b : BufId) : Option World :=
  match world.bufs b with
  | none => none
  | some _ => some { world with bufs := Function.update world.bufs b none }

end World

section Runs

variable {Time : Type} [Zero Time] [LT Time] [DecidableLT Time]

/-- `none` for calls that cannot be made, and where the source has undefined
behaviour. A status poll reads a register. -/
def World.call (world : World) : Call Time → Option World
  | .create b buf pas => world.create b buf pas
  | .transfer ch b request lock fuel => (world.transfer ch b request lock fuel).map Waited.world
  | .getStatus _ => some world
  | .waitChannel ch timeout env fuel => (Mprace.waitChannel world ch timeout env fuel).map Waited.world
  | .destroy b => world.destroy b

variable (Time) in
def engineSystem : System World (Call Time) where
  initial world := (∀ ch, world.engine.saved ch = false) ∧ ∀ b, world.bufs b = none
  step := World.call

end Runs

/-- What `fillDescriptorList` wrote: everything but the list itself determines it. -/
def DMABuffer.filled (buf : DMABuffer) : List DMADescriptorWG :=
  fillDescriptorList buf.memory buf.size (buf.descriptors.map DMADescriptorWG.pa)

/-- The list is as it was filled, or one restore away from it. -/
def ListIntact (world : World) (b : BufId) (buf : DMABuffer) : Prop :=
  buf.descriptors = buf.filled ∨ ∃ ch, world.engine.saved ch = true ∧
    (world.engine.savedData ch).savedBuf = b ∧
    restoreList (world.engine.savedData ch) buf.descriptors = some buf.filled

def pendingFor (engine : DMAEngineWG) (b : BufId) (ch : Channel) : Option SavedData :=
  if engine.saved ch = true ∧ (engine.savedData ch).savedBuf = b then some (engine.savedData ch)
  else none

def WholeRequest (request : Request) (size : U32) : Prop :=
  request.offset = 0 ∧ request.count * 4 = size

structure TransferAllowed (world : World) (ch : Channel) (b : BufId) (buf : DMABuffer)
    (request : Request) : Prop where
  /-- the range in bytes, as the 32-bit products have it, lies in the buffer -/
  range : buf.hasList = true → byteOffset request + byteCount request ≤ buf.size.toNat
  /-- records held for the list are of whole transfers and nothing has cut it since;
  over such records only the whole buffer is sent again -/
  ready : buf.hasList = true → ∀ other data, pendingFor world.engine b other = some data →
    WholePending data buf.descriptors ∧
      (WholeRequest request buf.size ∨ buf.descriptors = buf.filled)
  /-- the record the channel holds for another buffer is not needed -/
  spare : ∀ named other, named ≠ b → world.bufs named = some other →
    ∀ data, pendingFor world.engine named ch = some data → other.descriptors = other.filled ∨
      (data.Whole other.filled.length ∧ pendingFor world.engine named (flip ch) ≠ none)

def Disciplined {Time : Type} (world : World) : Call Time → Prop
  | .transfer ch b request _ _ => ∀ buf, world.bufs b = some buf →
      checkRequest buf request = none → TransferAllowed world ch b buf request
  | .destroy b => ∀ ch, pendingFor world.engine b ch = none
  | _ => True

structure WellKept (world : World) : Prop where
  made : ∀ b buf, world.bufs b = some buf → buf.hasList = true →
    Fillable buf.memory buf.size ∧ buf.descriptors.length = descriptorCount buf.memory
  account : ∀ b buf, world.bufs b = some buf → buf.hasList = true →
    Accounted buf.filled buf.descriptors (pendingFor world.engine b)
  live : ∀ ch, world.engine.saved ch = true → ∃ buf,
    world.bufs (world.engine.savedData ch).savedBuf = some buf ∧ buf.hasList = true

theorem as_filled_of_made {buf : DMABuffer} (made : Fillable buf.memory buf.size ∧
    buf.descriptors.length = descriptorCount buf.memory) : AsFilled buf.filled buf.size :=
  fill_descriptor_list_filled buf.memory buf.size _ made.1 (by simpa using made.2)

theorem created_fillable {buf : DMABuffer} {pas : List U64}
    (creatable : Creatable buf.memory buf.size pas) (listed : buf.hasList = true) :
    Fillable buf.memory buf.size ∧
      (fillDescriptorList buf.memory buf.size pas).length = descriptorCount buf.memory := by
  obtain ⟨linked, memory⟩ := creatable
  constructor
  · cases kind : buf.memory with
    | kernel kBuf => simp [DMABuffer.hasList, kind] at listed
    | kernelPieces kBuf pieces => simpa [Fillable, kind] using memory
    | user entries => simpa [Fillable, kind] using memory
  · simpa [linked] using congrArg List.length
      (fill_descriptor_list_pas buf.memory buf.size pas linked)

structure SameFill (buf after : DMABuffer) : Prop where
  memory : after.memory = buf.memory
  size : after.size = buf.size
  pas : after.descriptors.map DMADescriptorWG.pa = buf.descriptors.map DMADescriptorWG.pa

section SameFill

variable {buf after : DMABuffer}

theorem SameFill.filled (same : SameFill buf after) : after.filled = buf.filled := by
  rw [DMABuffer.filled, same.memory, same.size, same.pas]
  rfl

theorem SameFill.has_list (same : SameFill buf after) : after.hasList = buf.hasList := by
  rw [DMABuffer.hasList, same.memory]
  rfl

theorem SameFill.made (same : SameFill buf after) (made : Fillable buf.memory buf.size ∧
    buf.descriptors.length = descriptorCount buf.memory) :
    Fillable after.memory after.size ∧ after.descriptors.length = descriptorCount after.memory := by
  have length : after.descriptors.length = buf.descriptors.length := by
    simpa using congrArg List.length same.pas
  rw [same.memory, same.size, length]
  exact made

end SameFill

section Records

variable {engine after : DMAEngineWG} {ch : Channel} {b : BufId} {data : SavedData}

theorem pending_congr (saved : after.saved = engine.saved)
    (savedData : after.savedData = engine.savedData) : pendingFor after = pendingFor engine := by
  funext b ch
  simp only [pendingFor, saved, savedData]

theorem pending_cleared (saved : after.saved = Function.update engine.saved ch false)
    (savedData : after.savedData = engine.savedData) :
    pendingFor after b = Function.update (pendingFor engine b) ch none := by
  funext other
  by_cases same : other = ch
  · subst same
    simp [pendingFor, saved]
  · simp [pendingFor, saved, savedData, same]

theorem pending_recorded (saved : after.saved = Function.update engine.saved ch true)
    (savedData : after.savedData = Function.update engine.savedData ch data) :
    pendingFor after b =
      Function.update (pendingFor engine b) ch (if data.savedBuf = b then some data else none) := by
  funext other
  by_cases same : other = ch
  · subst same
    simp [pendingFor, saved, savedData]
  · simp [pendingFor, saved, savedData, same]

end Records

section Steps

variable {world : World} {b : BufId} {buf : DMABuffer}

/-- Every step but creation and destruction edits one live buffer. -/
theorem WellKept.edited (kept : WellKept world) (engine : DMAEngineWG)
    (live : world.bufs b = some buf) {after : DMABuffer} (same : SameFill buf after)
    (own : buf.hasList = true → Accounted buf.filled after.descriptors (pendingFor engine b))
    (others : ∀ other found, other ≠ b → world.bufs other = some found → found.hasList = true →
      Accounted found.filled found.descriptors (pendingFor engine other))
    (records : ∀ ch, engine.saved ch = true → ∃ found,
      world.bufs (engine.savedData ch).savedBuf = some found ∧ found.hasList = true) :
    WellKept ⟨engine, Function.update world.bufs b (some after)⟩ where
  made := by
    intro other found liveFound listed
    rcases update_some_cases liveFound with ⟨rfl, rfl⟩ | ⟨-, old⟩
    · exact same.made (kept.made other buf live (same.has_list ▸ listed))
    · exact kept.made other found old listed
  account := by
    intro other found liveFound listed
    rcases update_some_cases liveFound with ⟨rfl, rfl⟩ | ⟨differ, old⟩
    · rw [same.filled]
      exact own (same.has_list ▸ listed)
    · exact others other found differ old listed
  live := by
    intro ch flag
    obtain ⟨found, liveFound, listed⟩ := records ch flag
    by_cases this : (engine.savedData ch).savedBuf = b
    · rw [this, live, Option.some.injEq] at liveFound
      subst liveFound
      exact ⟨after, by simp [this], same.has_list.trans listed⟩
    · exact ⟨found, by simp [this, liveFound], listed⟩

theorem WellKept.registers (kept : WellKept world) (engine : DMAEngineWG)
    (saved : engine.saved = world.engine.saved)
    (savedData : engine.savedData = world.engine.savedData) : WellKept ⟨engine, world.bufs⟩ where
  made := kept.made
  account := by
    rw [pending_congr saved savedData]
    exact kept.account
  live := by
    rw [saved, savedData]
    exact kept.live

theorem WellKept.contents (kept : WellKept world) (edit : DMABuffer → DMABuffer)
    (memory : ∀ buf, (edit buf).memory = buf.memory) (size : ∀ buf, (edit buf).size = buf.size)
    (descriptors : ∀ buf, (edit buf).descriptors = buf.descriptors) :
    WellKept (world.mapBuf b edit) := by
  cases live : world.bufs b with
  | none =>
      have same : world.mapBuf b edit = world := by
        simp only [World.mapBuf, live, Option.map_none]
        rw [← live, Function.update_eq_self]
      rw [same]
      exact kept
  | some buf =>
      have edited : world.mapBuf b edit =
          ⟨world.engine, Function.update world.bufs b (some (edit buf))⟩ := by
        simp only [World.mapBuf, live, Option.map_some]
      rw [edited]
      apply kept.edited world.engine live ⟨memory buf, size buf, by rw [descriptors]⟩
      · intro listed
        rw [descriptors]
        exact kept.account b buf live listed
      · exact fun other found _ liveFound listed => kept.account other found liveFound listed
      · exact kept.live

theorem WellKept.as_filled (kept : WellKept world) (live : world.bufs b = some buf)
    (listed : buf.hasList = true) : AsFilled buf.filled buf.size :=
  as_filled_of_made (kept.made b buf live listed)

theorem WellKept.spared (kept : WellKept world) {ch : Channel} {request : Request}
    (allowed : TransferAllowed world ch b buf request) {other : BufId} {found : DMABuffer}
    (differ : other ≠ b) (live : world.bufs other = some found) (listed : found.hasList = true) :
    Accounted found.filled found.descriptors
      (Function.update (pendingFor world.engine other) ch none) :=
  (kept.account other found live listed).dropped (kept.as_filled live listed)
    (allowed.spare other found differ live)

theorem WellKept.start (kept : WellKept world) {ch : Channel} {request : Request}
    {started : World} (live : world.bufs b = some buf)
    (allowed : TransferAllowed world ch b buf request)
    (result : world.start ch b request = some started) : WellKept started := by
  obtain ⟨found, liveFound, ⟨kBuf, kernel, rfl⟩ | ⟨listed, programmed, sent, rfl⟩⟩ :=
    World.start_cases result <;> rw [live, Option.some.injEq] at liveFound <;> subst liveFound
  · have cleared : ∀ other, pendingFor (((world.engine.prepare ch).setSaved ch false).write ch
        ((world.engine.prepare ch).kernelDescriptor kBuf request)) other =
        Function.update (pendingFor world.engine other) ch none := fun other =>
      pending_cleared (by simp [DMAEngineWG.setSaved]) (by simp [DMAEngineWG.setSaved])
    apply kept.edited _ live ⟨by simp, by simp, by simp⟩
    · intro listed
      simp [DMABuffer.hasList, kernel] at listed
    · intro other found differ liveFound listed
      rw [cleared]
      exact kept.spared allowed differ liveFound listed
    · intro other flag
      simp only [write_saved, write_saved_data, DMAEngineWG.setSaved, prepare_saved,
        prepare_saved_data] at flag ⊢
      by_cases same : other = ch
      · subst same
        simp at flag
      · rw [Function.update_of_ne same] at flag
        exact kept.live other flag
  · obtain ⟨data, saved, named, accounted⟩ := (kept.account b buf live listed).sent
      (kept.as_filled live listed) _ b request (allowed.range listed) (allowed.ready listed) sent
    have recorded : ∀ other, pendingFor (((world.engine.prepare ch).recordIfSaved ch
        programmed.saved).write ch programmed.temp) other =
        Function.update (pendingFor world.engine other) ch
          (if data.savedBuf = other then some data else none) := fun other =>
      pending_recorded (by simp [saved, DMAEngineWG.recordIfSaved, DMAEngineWG.recordSaved])
        (by simp [saved, DMAEngineWG.recordIfSaved, DMAEngineWG.recordSaved])
    apply kept.edited _ live ⟨by simp, by simp, program_list_pas _ _ _ _ _ sent⟩
    · intro _
      rw [recorded, if_pos named]
      exact accounted
    · intro other found differ liveFound listedFound
      rw [recorded, if_neg (by rw [named]; exact Ne.symm differ)]
      exact kept.spared allowed differ liveFound listedFound
    · intro other flag
      simp only [saved, write_saved, write_saved_data, DMAEngineWG.recordIfSaved,
        DMAEngineWG.recordSaved, prepare_saved, prepare_saved_data] at flag ⊢
      by_cases same : other = ch
      · subst same
        rw [Function.update_self, named]
        exact ⟨buf, live, listed⟩
      · rw [Function.update_of_ne same] at flag ⊢
        exact kept.live other flag

theorem WellKept.restore (kept : WellKept world) {ch : Channel} {restored : World}
    (result : world.restoreIfSaved ch = some restored) : WellKept restored := by
  rcases World.restore_cases result with ⟨-, rfl⟩ | ⟨flag, buf, list, live, undone, rfl⟩
  · exact kept
  · have cleared : ∀ other, pendingFor (world.engine.setSaved ch false) other =
        Function.update (pendingFor world.engine other) ch none := fun other =>
      pending_cleared rfl rfl
    have record : pendingFor world.engine (world.engine.savedData ch).savedBuf ch =
        some (world.engine.savedData ch) := by simp [pendingFor, flag]
    have same : SameFill buf { buf with descriptors := list } :=
      ⟨rfl, rfl, restore_list_pas undone⟩
    apply kept.edited _ live same
    · intro listed
      rw [cleared]
      exact (kept.account _ buf live listed).restored (kept.as_filled live listed) record undone
    · intro other found differ liveFound listed
      rw [cleared]
      apply (kept.account other found liveFound listed).dropped (kept.as_filled liveFound listed)
      intro data found
      simp [pendingFor, Ne.symm differ] at found
    · intro other set
      simp only [DMAEngineWG.setSaved] at set ⊢
      by_cases same : other = ch
      · subst same
        simp at set
      · rw [Function.update_of_ne same] at set
        exact kept.live other set

section Waiting

variable {Time : Type} [Zero Time] [LT Time] [DecidableLT Time]

theorem WellKept.wait (kept : WellKept world) {ch : Channel} {timeout : Time}
    {env : Environment Time} {fuel : ℕ} {waited : Waited}
    (result : waitChannel world ch timeout env fuel = some waited) : WellKept waited.world := by
  obtain ⟨inte, woken, rfl, ⟨-, same⟩ | restored⟩ := wait_channel_cases result
  · rw [same]
    exact kept.registers _ rfl rfl
  · exact WellKept.restore (kept.registers { world.engine with inte := inte } rfl rfl) restored

theorem receive_memory (buf : DMABuffer) (arrived : List U8 → List U8) :
    (buf.receive arrived).memory = buf.memory := by
  unfold DMABuffer.receive
  split <;> rfl

theorem receive_size (buf : DMABuffer) (arrived : List U8 → List U8) :
    (buf.receive arrived).size = buf.size := by
  unfold DMABuffer.receive
  split <;> rfl

/-- Everything a transfer call can have done: it was refused, or it started, and then
waited for the channel or not; `board2host` also moves contents. -/
theorem transfer_cases {ch : Channel} {request : Request} {lock : Option (Time × Environment Time)}
    {fuel : ℕ} {waited : Waited} (result : world.transfer ch b request lock fuel = some waited) :
    ∃ buf, world.bufs b = some buf ∧ (waited.world = world ∨
      (checkRequest buf request = none ∧ ∃ started, world.start ch b request = some started ∧
        (waited.world = started ∨
          (∃ (timeout : Time) (env : Environment Time),
            waitChannel started ch timeout env fuel = some waited) ∨
          ∃ (timeout : Time) (env : Environment Time) (before : Waited),
            waitChannel (started.mapBuf b fun buf => buf.receive env.arrived) ch timeout env fuel =
              some before ∧
            waited.world = before.world.mapBuf b fun buf => buf.sync .fromDevice))) := by
  have flip : ¬(1 : Channel) = 0 := by decide
  cases live : world.bufs b with
  | none => simp [World.transfer, World.host2board, World.board2host, live] at result
  | some buf =>
      refine ⟨buf, rfl, ?_⟩
      cases checked : checkRequest buf request with
      | some exception =>
          left
          simp only [World.transfer, World.host2board, World.board2host, live, checked, ite_self,
            Option.some.injEq] at result
          rw [← result]
      | none =>
          right
          constructor
          · exact rfl
          · unfold World.start
            rcases channel_cases ch with rfl | rfl
            · simp only [World.transfer, if_true, World.host2board, live, checked] at result ⊢
              cases started : world.startHost2board b request with
              | none => simp [started] at result
              | some after =>
                  refine ⟨after, rfl, ?_⟩
                  cases lock with
                  | none =>
                      simp only [started, Option.some.injEq] at result
                      exact Or.inl (by rw [← result])
                  | some limits =>
                      simp only [started] at result
                      exact Or.inr (Or.inl ⟨_, _, result⟩)
            · simp only [World.transfer, if_neg flip, World.board2host, live, checked] at result ⊢
              cases started : world.startBoard2host b request with
              | none => simp [started] at result
              | some after =>
                  refine ⟨after, rfl, ?_⟩
                  cases lock with
                  | none =>
                      simp only [started, Option.some.injEq] at result
                      exact Or.inl (by rw [← result])
                  | some limits =>
                      simp only [started, Option.map_eq_some_iff] at result
                      obtain ⟨before, waits, rfl⟩ := result
                      exact Or.inr (Or.inr ⟨_, _, before, waits, rfl⟩)

theorem WellKept.transfer (kept : WellKept world) {ch : Channel} {request : Request}
    {lock : Option (Time × Environment Time)} {fuel : ℕ} {waited : Waited}
    (allowed : ∀ buf, world.bufs b = some buf → checkRequest buf request = none →
      TransferAllowed world ch b buf request)
    (result : world.transfer ch b request lock fuel = some waited) : WellKept waited.world := by
  obtain ⟨buf, live, same | ⟨checked, started, begins, rest⟩⟩ := transfer_cases result
  · rw [same]
    exact kept
  · have keptStarted := kept.start live (allowed buf live checked) begins
    rcases rest with same | ⟨timeout, env, waits⟩ | ⟨timeout, env, before, waits, same⟩
    · rw [same]
      exact keptStarted
    · exact keptStarted.wait waits
    · have received : WellKept (started.mapBuf b fun buf => buf.receive env.arrived) :=
        keptStarted.contents _ (fun buf => receive_memory buf _) (fun buf => receive_size buf _)
          fun buf => receive_descriptors buf _
      rw [same]
      exact (received.wait waits).contents _ (fun buf => DMABuffer.sync_memory buf _)
        (fun buf => DMABuffer.sync_size buf _) fun buf => DMABuffer.sync_descriptors buf _

end Waiting

theorem pending_none_of_dead (kept : WellKept world) (dead : world.bufs b = none) (ch : Channel) :
    pendingFor world.engine b ch = none := by
  unfold pendingFor
  split
  · rename_i named
    obtain ⟨found, live, -⟩ := kept.live ch named.1
    rw [named.2, dead] at live
    cases live
  · rfl

theorem account_of_filled (filled : List DMADescriptorWG) {pending : Channel → Option SavedData}
    (none_ : ∀ ch, pending ch = none) : Accounted filled filled pending where
  pas := rfl
  clean := fun _ => rfl
  described := fun ch data found => by simp [none_ ch] at found
  alone := fun ch data found => by simp [none_ ch] at found
  both := fun ch data other found => by simp [none_ ch] at found

theorem WellKept.create (kept : WellKept world) {pas : List U64} {after : World}
    (result : world.create b buf pas = some after) : WellKept after := by
  unfold World.create at result
  cases dead : world.bufs b with
  | some found => simp [dead] at result
  | none =>
      simp only [dead] at result
      split at result
      · rename_i creatable
        cases result
        have pasSame := fill_descriptor_list_pas buf.memory buf.size pas creatable.1
        constructor
        · intro other found live listed
          rcases update_some_cases live with ⟨rfl, rfl⟩ | ⟨-, old⟩
          · exact created_fillable creatable listed
          · exact kept.made other found old listed
        · intro other found live listed
          rcases update_some_cases live with ⟨rfl, rfl⟩ | ⟨-, old⟩
          · have filled : DMABuffer.filled
                { buf with descriptors := fillDescriptorList buf.memory buf.size pas } =
                fillDescriptorList buf.memory buf.size pas := by
              rw [DMABuffer.filled, pasSame]
            rw [filled]
            have none_ : ∀ ch, pendingFor world.engine other ch = none :=
              pending_none_of_dead kept dead
            exact account_of_filled _ none_
          · exact kept.account other found old listed
        · intro ch flag
          obtain ⟨found, live, listed⟩ := kept.live ch flag
          have this : (world.engine.savedData ch).savedBuf ≠ b := by
            intro same
            rw [same, dead] at live
            cases live
          exact ⟨found, by simp [World.setBuf, this, live], listed⟩
      · cases result

theorem WellKept.destroy (kept : WellKept world) {after : World}
    (unnamed : ∀ ch, pendingFor world.engine b ch = none)
    (result : world.destroy b = some after) : WellKept after := by
  unfold World.destroy at result
  cases live : world.bufs b with
  | none => simp [live] at result
  | some buf =>
      simp only [live, Option.some.injEq] at result
      subst result
      constructor
      · exact fun other found liveFound => kept.made other found (update_none_cases liveFound).2
      · exact fun other found liveFound => kept.account other found (update_none_cases liveFound).2
      · intro ch flag
        obtain ⟨found, liveFound, listed⟩ := kept.live ch flag
        have this : (world.engine.savedData ch).savedBuf ≠ b := by
          intro same
          have none_ := unnamed ch
          rw [pendingFor, if_pos ⟨flag, same⟩] at none_
          cases none_
        exact ⟨found, by simp [this, liveFound], listed⟩

end Steps

section Runs

variable {Time : Type} [Zero Time] [LT Time] [DecidableLT Time]

theorem well_kept_step {world after : World} (kept : WellKept world) (call : Call Time)
    (disciplined : Disciplined world call) (step : world.call call = some after) :
    WellKept after := by
  cases call with
  | create b buf pas => exact kept.create step
  | transfer ch b request lock fuel =>
      obtain ⟨waited, result, rfl⟩ := Option.map_eq_some_iff.mp step
      exact kept.transfer disciplined result
  | getStatus ch =>
      cases step
      exact kept
  | waitChannel ch timeout env fuel =>
      obtain ⟨waited, result, rfl⟩ := Option.map_eq_some_iff.mp step
      exact kept.wait result
  | destroy b => exact kept.destroy disciplined step

theorem well_kept_of_reached {world : World}
    (reached : (engineSystem Time).ReachableUnder Disciplined world) : WellKept world := by
  apply System.invariant_under _ _ reached
  · intro world both
    rcases both with ⟨unsaved, empty⟩
    constructor
    · intro b buf live
      simp [empty b] at live
    · intro b buf live
      simp [empty b] at live
    · intro ch flag
      simp [unsaved ch] at flag
  · intro world call after kept disciplined step
    exact well_kept_step kept call disciplined step

theorem list_intact_of_accounted {world : World} {b : BufId} {buf : DMABuffer}
    (account : Accounted buf.filled buf.descriptors (pendingFor world.engine b)) :
    ListIntact world b buf := by
  have undone : ∀ {ch data}, pendingFor world.engine b ch = some data →
      restoreList data buf.descriptors = some buf.filled → ListIntact world b buf := by
    intro ch data record result
    unfold pendingFor at record
    split at record
    · rename_i named
      cases record
      exact Or.inr ⟨ch, named.1, named.2, result⟩
    · cases record
  by_cases none_ : ∀ ch, pendingFor world.engine b ch = none
  · exact Or.inl (account.clean none_)
  · obtain ⟨ch, some_⟩ := not_forall.mp none_
    obtain ⟨data, record⟩ := Option.ne_none_iff_exists'.mp some_
    cases found : pendingFor world.engine b (flip ch) with
    | none => exact undone record (account.alone ch data record found)
    | some other =>
        rcases account.both ch data other record found with ⟨-, result⟩ | ⟨-, result⟩
        · exact undone found result
        · exact undone record result

/-- In every disciplined run every list is intact, every record names a live buffer,
and a transfer finds its list with the lengths, addresses and links it was filled
with. -/
theorem lists_intact_in_disciplined_runs {world : World}
    (reached : (engineSystem Time).ReachableUnder Disciplined world) :
    (∀ b buf, world.bufs b = some buf → buf.hasList = true → ListIntact world b buf) ∧
      (∀ ch, world.engine.saved ch = true →
        ∃ buf, world.bufs (world.engine.savedData ch).savedBuf = some buf) ∧
      (∀ ch b buf request, world.bufs b = some buf → buf.hasList = true →
        TransferAllowed world ch b buf request →
          buf.descriptors.map (setControl32 0) = buf.filled) := by
  have kept := well_kept_of_reached reached
  refine ⟨?_, ?_, ?_⟩
  · intro b buf live listed
    exact list_intact_of_accounted (kept.account b buf live listed)
  · intro ch flag
    obtain ⟨buf, live, -⟩ := kept.live ch flag
    exact ⟨buf, live⟩
  · intro ch b buf request live listed allowed
    exact (kept.account b buf live listed).geometry (kept.as_filled live listed)
      fun other data record => (allowed.ready listed other data record).1

end Runs

def emptyWorld : World where
  engine := DMAEngineWG.construct false (fun _ => unset.native) 0
  bufs := fun _ => none

def onePiece : DMABuffer where
  memory := .kernelPieces 0x10000#64 1
  size := 64
  descriptors := []
  host := []
  bounce := []

def secondDword : Request := ⟨1, 0, 1, 1, true⟩

def created : World :=
  emptyWorld.setBuf 0
    { onePiece with descriptors := fillDescriptorList onePiece.memory onePiece.size [0x2000#64] }

def readOnce (world : World) : World :=
  (world.call (.transfer 1 0 secondDword none 0 : Call ℕ)).getD world

theorem lists_intact_in_disciplined_runs_one_read :
    ∃ buf, (readOnce created).bufs 0 = some buf ∧ ListIntact (readOnce created) 0 buf := by
  have empty : (engineSystem ℕ).ReachableUnder Disciplined emptyWorld :=
    .start ⟨fun _ => rfl, fun _ => rfl⟩
  have one : (engineSystem ℕ).ReachableUnder Disciplined created :=
    @System.ReachableUnder.next _ _ _ _ _ created (.create 0 onePiece [0x2000#64]) empty trivial rfl
  have unsaved : ∀ b ch, pendingFor created.engine b ch = none := fun _ _ => rfl
  have allowed : Disciplined created (.transfer 1 0 secondDword none 0 : Call ℕ) := by
    intro buf live _
    cases live
    refine ⟨fun _ => by decide, fun _ other data record => ?_, fun named other _ _ data record => ?_⟩
    · rw [unsaved] at record
      cases record
    · rw [unsaved] at record
      cases record
  have two : (engineSystem ℕ).ReachableUnder Disciplined (readOnce created) :=
    one.next allowed rfl
  exact ⟨_, rfl, (lists_intact_in_disciplined_runs two).1 0 _ rfl rfl⟩

/-- The second read moves the descriptor again and ends past the list, where no record
is made. -/
theorem unwaited_reads_break_the_list :
    ∃ world buf, (engineSystem ℕ).Reachable world ∧ world.bufs 0 = some buf ∧
      buf.hasList = true ∧ ¬ListIntact world 0 buf := by
  have empty : (engineSystem ℕ).Reachable emptyWorld := .start ⟨fun _ => rfl, fun _ => rfl⟩
  have run : (engineSystem ℕ).runFrom emptyWorld [.create 0 onePiece [0x2000#64],
      .transfer 1 0 secondDword none 0, .getStatus 1, .transfer 1 0 secondDword none 0] =
      some (readOnce (readOnce created)) := rfl
  refine ⟨readOnce (readOnce created), _,
    System.reachable_of_run _ empty (fun _ _ _ => trivial) run, rfl, rfl, ?_⟩
  intro either
  rcases either with same | ⟨ch, -, -, result⟩
  · exact absurd same (by decide)
  · rcases channel_cases ch with rfl | rfl
    · exact absurd result (by decide)
    · exact absurd result (by decide)

end FpgaPcie.Mprace
