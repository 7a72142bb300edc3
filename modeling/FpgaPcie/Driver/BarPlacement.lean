import FpgaPcie.Driver.BarMapping
import FpgaPcie.Lib.Keyed
import FpgaPcie.Lib.Mutex

/-!
# BAR mappings land on their BARs

The mode and the area are set and used inside of the mutex, so an `mmap` finds the BAR that
was selected for it. The driver starts at the page frame of the BAR and the library adds the
position in that page again. Mappings have pages of their own, so each can be taken away
alone.
-/

namespace FpgaPcie.Driver.BarMapping

open FpgaPcie.AddressSpace FpgaPcie.Keyed FpgaPcie.Mutex FpgaPcie.PageTable FpgaPcie.Transition
open FpgaPcie.Driver.Resources (Bar Bars)

set_option autoImplicit false

theorem pagemask_loop_bits {halve : U32 → U32}
    (halves : ∀ temp : U32, temp.toNat < 2 ^ 31 → (halve temp).toNat = temp.toNat / 2)
    (order bits fuel : ℕ) (temp mask : U32) (power : temp.toNat = 2 ^ order)
    (ones : mask.toNat + 1 = 2 ^ bits) (small : order + bits < 31) (enough : order < fuel) :
    (pagemaskLoop halve fuel temp mask).toNat + 1 = 2 ^ (order + bits) := by
  induction order generalizing bits fuel temp mask with
  | zero =>
      have one : temp = 1#32 := BitVec.eq_of_toNat_eq power
      cases fuel with
      | zero => cases enough
      | succ fuel =>
          rw [pagemaskLoop, if_neg (not_not.mpr one), Nat.zero_add]
          exact ones
  | succ order ih =>
      have larger : 2 ^ (order + 1) < 2 ^ 31 := Nat.pow_lt_pow_right (by decide) (by omega)
      have room : 2 ^ (bits + 1) < 2 ^ 31 := Nat.pow_lt_pow_right (by decide) (by omega)
      have some_ := Nat.two_pow_pos order
      cases fuel with
      | zero => cases enough
      | succ fuel =>
          have more : temp ≠ 1#32 := by
            intro same
            subst same
            rw [pow_succ] at power
            simp only [BitVec.toNat_ofNat] at power
            omega
          have half : (halve temp).toNat = 2 ^ order := by
            rw [halves temp (by omega), power, pow_succ]
            omega
          have longer : (mask <<< 1 + 1#32).toNat + 1 = 2 ^ (bits + 1) := by
            rw [pow_succ] at room ⊢
            simp only [BitVec.toNat_add, BitVec.toNat_shiftLeft, BitVec.toNat_ofNat,
              Nat.shiftLeft_eq, pow_one]
            omega
          rw [pagemaskLoop, if_pos more, Nat.add_right_comm]
          exact ih (bits + 1) fuel _ _ half longer (by omega) (by omega)

section Masks

variable {setup : Setup}

theorem getpagesize_toNat (small : setup.pageShift < 31) :
    setup.getpagesize.toNat = 2 ^ setup.pageShift := by
  have bound : 2 ^ setup.pageShift < 2 ^ 32 := Nat.pow_lt_pow_right (by decide) (by omega)
  rw [Setup.getpagesize, BitVec.toNat_shiftLeft, Nat.shiftLeft_eq]
  simpa using Nat.mod_eq_of_lt bound

theorem pagemask_toNat (small : setup.pageShift < 31) :
    (pagemask setup.getpagesize).toNat = 2 ^ setup.pageShift - 1 := by
  have halves : ∀ temp : U32, temp.toNat < 2 ^ 31 → (temp >>> 1).toNat = temp.toNat / 2 := by
    intro temp _
    rw [BitVec.toNat_ushiftRight, Nat.shiftRight_eq_div_pow, pow_one]
  have bits : (pagemask setup.getpagesize).toNat + 1 = 2 ^ setup.pageShift :=
    pagemask_loop_bits halves setup.pageShift 0 32 setup.getpagesize 0#32
      (getpagesize_toNat small) rfl (by omega) (by omega)
  omega

/-- `pagesize` is positive, so the signed shift is the same. -/
theorem pd_getpagemask_toNat (small : setup.pageShift < 31) :
    (pdGetpagemask setup.getpagesize).toNat = 2 ^ setup.pageShift - 1 := by
  have halves : ∀ temp : U32, temp.toNat < 2 ^ 31 →
      (temp.sshiftRight 1).toNat = temp.toNat / 2 := by
    intro temp positive
    have sign : temp.msb = false := by
      rw [BitVec.msb_eq_false_iff_two_mul_lt]
      omega
    rw [BitVec.sshiftRight_eq_of_msb_false sign, BitVec.toNat_ushiftRight,
      Nat.shiftRight_eq_div_pow, pow_one]
  have bits : (pdGetpagemask setup.getpagesize).toNat + 1 = 2 ^ setup.pageShift :=
    pagemask_loop_bits halves setup.pageShift 0 32 setup.getpagesize 0#32
      (getpagesize_toNat small) rfl (by omega) (by omega)
  omega

theorem page_pos (setup : Setup) : 0 < setup.page := Nat.two_pow_pos _

/-- Both libraries come to the position of the BAR in its first page. -/
theorem offset_toNat (small : setup.pageShift < 31) (bar : Fin 6) :
    (setup.offset bar).toNat = (setup.bars bar).start.toNat % setup.page := by
  have below : (setup.bars bar).start.toNat % setup.page < 2 ^ 31 :=
    (Nat.mod_lt _ (page_pos setup)).trans (Nat.pow_lt_pow_right (by decide) small)
  have masked : ∀ mask : U64, mask.toNat = 2 ^ setup.pageShift - 1 →
      (((setup.bars bar).start &&& mask).setWidth 32).toNat =
        (setup.bars bar).start.toNat % setup.page := by
    intro mask ones
    rw [BitVec.toNat_setWidth, BitVec.toNat_and, ones, Nat.and_two_pow_sub_one_eq_mod]
    exact Nat.mod_eq_of_lt (below.trans (by decide))
  have fits : 2 ^ setup.pageShift - 1 < 2 ^ 31 :=
    (Nat.sub_le _ _).trans_lt (Nat.pow_lt_pow_right (by decide) small)
  rw [Setup.offset]
  cases setup.api with
  | cpp =>
      apply masked
      rw [BitVec.toNat_setWidth, pagemask_toNat small]
      exact Nat.mod_eq_of_lt (fits.trans (by decide))
  | c =>
      apply masked
      have mask := pd_getpagemask_toNat small
      have sign : (pdGetpagemask setup.getpagesize).msb = false := by
        rw [BitVec.msb_eq_false_iff_two_mul_lt]
        omega
      rw [BitVec.signExtend_eq_setWidth_of_msb_false sign, BitVec.toNat_setWidth, mask]
      exact Nat.mod_eq_of_lt (fits.trans (by decide))

end Masks

section Addresses

variable {setup : Setup} {start pages : ℕ} {space : Space}

theorem address_toNat (fits : start * setup.page < 2 ^ 64) :
    (setup.address start).toNat = start * setup.page := by
  rw [Setup.address, BitVec.toNat_ofNat]
  exact Nat.mod_eq_of_lt fits

theorem readjust_adjust (setup : Setup) (bar : Fin 6) (mem : U64) :
    setup.readjust bar (setup.adjust bar mem) = mem := by
  rw [Setup.readjust, Setup.adjust]
  split
  · exact BitVec.add_sub_cancel _ _
  · rfl

theorem adjust_toNat (small : setup.pageShift < 31) (bar : Fin 6)
    (fits : (start + 1) * setup.page < 2 ^ 64) :
    (setup.adjust bar (setup.address start)).toNat =
      start * setup.page + (setup.bars bar).start.toNat % setup.page := by
  have short := Nat.mod_lt (setup.bars bar).start.toNat (page_pos setup)
  have offset := offset_toNat small bar
  rw [Nat.succ_mul] at fits
  have mem := @address_toNat setup start (by omega)
  rw [Setup.adjust]
  split
  · rw [BitVec.toNat_add, BitVec.toNat_setWidth, mem, offset]
    rw [Nat.mod_eq_of_lt (by omega : _ % setup.page < 2 ^ 64), Nat.mod_eq_of_lt (by omega)]
  · rename_i none_
    have zero : setup.offset bar = 0#32 := not_not.mp none_
    rw [zero] at offset
    rw [mem, ← offset]
    rfl

theorem munmap_own (fits : start * setup.page < 2 ^ 64) {length : U64} (some_ : length ≠ 0#64) :
    setup.munmap space (setup.address start) length = space.unmap start (setup.pages length) := by
  rw [Setup.munmap, address_toNat fits, Nat.mul_mod_left, Nat.mul_div_cancel _ (page_pos setup)]
  exact if_pos ⟨rfl, some_⟩

end Addresses

section Mmap

variable {setup : Setup} {driver : Privdata} {space after : Space} {length : U64}
  {answer : MmapAnswer}

/-- The mapping is given up or refused and other pages stay, or there is a new mapping. -/
inductive MmapEffect (setup : Setup) (driver : Privdata) (length : U64) (space : Space) :
    Space × Option Placement → Prop where
  | nowhere : MmapEffect setup driver length space (space, none)
  | abandoned {start pages first frame count : ℕ} {after : Space}
      (available : setup.Available space start pages)
      (given : space.abandon start pages first frame count = some after) :
      MmapEffect setup driver length space (after, none)
  | made {start first frame count : ℕ} {after : Space}
      (available : setup.Available space start (setup.pages length))
      (mapped : space.map start (setup.pages length) first frame count = some after)
      (own : driver.mmapMode = .pci → first = start ∧
        frame = ((setup.bars driver.mmapArea).start >>> setup.pageShift).toNat ∧
        count = setup.pages (setup.bars driver.mmapArea).length) :
      MmapEffect setup driver length space
        (after, some ⟨space.created, start, setup.pages length⟩)

/-- In the mode for BARs the driver asks for the BAR of the area, from the start of the
vma on. -/
theorem pci_call {vma : Vma} {remapped : Bool} {call : Remap} (mode : driver.mmapMode = .pci)
    (called : (pcidriverMmap setup.pageShift setup.bars setup.virtToPfn driver vma remapped).remap =
      some call) :
    call = ⟨vma.vmStart, (setup.bars driver.mmapArea).start >>> setup.pageShift,
      (setup.bars driver.mmapArea).length⟩ := by
  rw [pcidriverMmap, mode] at called
  exact (mmap_pci_checks setup.pageShift (setup.bars driver.mmapArea) vma).call called

theorem mmap_effect {result : Option Placement}
    (mmapped : setup.mmap driver space length answer = some (after, result)) :
    MmapEffect setup driver length space (after, result) := by
  cases answer with
  | refused =>
      cases mmapped
      exact .nowhere
  | found start stopsAfter =>
      simp only [Setup.mmap] at mmapped
      split at mmapped
      · rename_i available
        have fits : start * setup.page < 2 ^ 64 :=
          (Nat.mul_le_mul_right _ (Nat.le_add_right _ _)).trans_lt available.2.2.1
        split at mmapped
        · obtain ⟨given, abandoned, same⟩ := Option.map_eq_some_iff.mp mmapped
          cases same
          exact .abandoned available abandoned
        · rename_i call called
          cases stopsAfter with
          | none =>
              obtain ⟨given, mapped, same⟩ := Option.map_eq_some_iff.mp mmapped
              cases same
              refine .made available mapped ?_
              intro mode
              rw [pci_call mode called]
              refine ⟨?_, rfl, rfl⟩
              rw [Setup.vma, address_toNat fits, Nat.mul_div_cancel _ (page_pos setup)]
          | some entered =>
              simp only at mmapped
              split at mmapped
              · obtain ⟨given, abandoned, same⟩ := Option.map_eq_some_iff.mp mmapped
                cases same
                exact .abandoned available abandoned
              · cases mmapped
      · cases mmapped

end Mmap

/-- A mapping with the length it was made for; one of a BAR shows consecutive frames. -/
structure Held where
  mem : Placement
  length : U64
  frame : Option ℕ

structure Stands (setup : Setup) (space : Space) (mine : Held) : Prop where
  owns : space.Owns mine.mem
  pages : mine.mem.pages = setup.pages mine.length
  some_ : 0 < mine.mem.pages
  fits : (mine.mem.start + mine.mem.pages) * setup.page < 2 ^ 64
  shows : ∀ frame ∈ mine.frame, space.Shows mine.mem frame

structure Mapped {Owner : Type} (setup : Setup) (space : Space) (held : Owner → Option Held) :
    Prop where
  numbered : space.Numbered
  stands : ∀ owner mine, held owner = some mine → Stands setup space mine
  apart : ∀ left right one two, held left = some one → held right = some two →
    one.mem.number = two.mem.number → left = right

namespace Mapped

variable {Owner : Type} {setup : Setup} {space after : Space}
  {held : Owner → Option Held} {owner next : Owner} {mine : Held}
  {start pages first frame count : ℕ} {length : U64}

theorem abandoned (mapped : Mapped setup space held)
    (available : setup.Available space start pages)
    (given : space.abandon start pages first frame count = some after) :
    Mapped setup after held := by
  constructor
  · exact abandon_numbered mapped.numbered given
  · intro other one found
    have stood := mapped.stands other one found
    exact ⟨abandon_owns stood.owns given, stood.pages, stood.some_, stood.fits,
      fun frame its => abandon_shows available.2.2.2 stood.owns (stood.shows frame its) given⟩
  · exact mapped.apart

variable [DecidableEq Owner]

theorem made (mapped : Mapped setup space held) (owner : Owner) {frames : Option ℕ}
    (available : setup.Available space start (setup.pages length))
    (new : space.map start (setup.pages length) first frame count = some after)
    (shows : ∀ frame ∈ frames, after.Shows ⟨space.created, start, setup.pages length⟩ frame) :
    Mapped setup after (Function.update held owner
      (some ⟨⟨space.created, start, setup.pages length⟩, length, frames⟩)) := by
  have unused : ∀ other one, held other = some one → one.mem.number ≠ space.created :=
    fun other one found => ((mapped.stands other one found).owns.made).ne
  constructor
  · exact map_numbered mapped.numbered new
  · intro other one found
    rcases update_some_cases found with ⟨-, rfl⟩ | ⟨-, old⟩
    · exact ⟨map_owns_new mapped.numbered new, rfl, available.1, available.2.2.1, shows⟩
    · have stood := mapped.stands other one old
      exact ⟨map_owns available.2.2.2 stood.owns new, stood.pages, stood.some_, stood.fits,
        fun frame its => map_shows (stood.shows frame its) new⟩
  · intro left right one two atLeft atRight same
    rcases update_some_cases atLeft with ⟨rfl, rfl⟩ | ⟨-, oldLeft⟩
    · rcases update_some_cases atRight with ⟨rfl, -⟩ | ⟨-, oldRight⟩
      · rfl
      · exact absurd same.symm (unused right two oldRight)
    · rcases update_some_cases atRight with ⟨rfl, rfl⟩ | ⟨-, oldRight⟩
      · exact absurd same (unused left one oldLeft)
      · exact mapped.apart left right one two oldLeft oldRight same

theorem moved (mapped : Mapped setup space held) (has : held owner = some mine) :
    Mapped setup space
      (Function.update (Function.update held owner none) next (some mine)) := by
  have is : ∀ other one,
      Function.update (Function.update held owner none) next (some mine) other = some one →
      (other = next ∧ one = mine) ∨ (other ≠ owner ∧ held other = some one) := by
    intro other one found
    rcases update_some_cases found with new | ⟨-, old⟩
    · exact Or.inl new
    · exact Or.inr (update_none_cases old)
  constructor
  · exact mapped.numbered
  · intro other one found
    rcases is other one found with ⟨-, rfl⟩ | ⟨-, old⟩
    · exact mapped.stands owner one has
    · exact mapped.stands other one old
  · intro left right one two atLeft atRight same
    rcases is left one atLeft with ⟨rfl, rfl⟩ | ⟨differsLeft, oldLeft⟩
    · rcases is right two atRight with ⟨rfl, -⟩ | ⟨differsRight, oldRight⟩
      · rfl
      · exact absurd (mapped.apart owner right one two has oldRight same).symm differsRight
    · rcases is right two atRight with ⟨rfl, rfl⟩ | ⟨differsRight, oldRight⟩
      · exact absurd (mapped.apart left owner one two oldLeft has same) differsLeft
      · exact mapped.apart left right one two oldLeft oldRight same

theorem removed (mapped : Mapped setup space held) (has : held owner = some mine) :
    Mapped setup (space.unmap mine.mem.start mine.mem.pages)
      (Function.update held owner none) := by
  have removes := unmap_removes (mapped.stands owner mine has).owns
  constructor
  · exact unmap_numbered mapped.numbered _ _
  · intro other one found
    obtain ⟨differs, old⟩ := update_none_cases found
    have stood := mapped.stands other one old
    have foreign : one.mem.number ≠ mine.mem.number :=
      fun same => differs (mapped.apart other owner one mine old has same)
    exact ⟨removes_owns removes rfl stood.owns foreign, stood.pages, stood.some_, stood.fits,
      fun frame its => removes_shows removes stood.owns foreign (stood.shows frame its)⟩
  · intro left right one two atLeft atRight same
    exact mapped.apart left right one two (update_none_cases atLeft).2 (update_none_cases atRight).2
      same

end Mapped

def Setup.frame (setup : Setup) (bar : Fin 6) : ℕ :=
  ((setup.bars bar).start >>> setup.pageShift).toNat

def Setup.heldBar (setup : Setup) (bar : Fin 6) (mem : Placement) : Held :=
  ⟨mem, (setup.bars bar).length, some (setup.frame bar)⟩

namespace Phase

def held (setup : Setup) : Phase → Option Held
  | .barMapped bar mem | .unmapping bar _ mem => some (setup.heldBar bar mem)
  | .mapped handle mem => some ⟨mem, handle.size, none⟩
  | _ => none

def critical : Phase → Bool
  | .barLocked _ | .barModeSet _ | .barAreaSet _ | .barMapped _ _ | .barMapFailed | .locked _
  | .modeSet _ | .mapped _ _ | .mapFailed _ => true
  | _ => false

def relies : Phase → MmapMode × Fin 6 → Prop
  | .barModeSet _, selected => selected.1 = .pci
  | .barAreaSet bar, selected => selected = (.pci, bar)
  | _, _ => True

/-- A pointer that is to be unmapped is one that `mapBAR` made. -/
def Adjusted (setup : Setup) : Phase → Prop
  | .unmapping bar ptr mem => ptr = setup.adjust bar (setup.address mem.start)
  | _ => True

end Phase

namespace Returned

def held (setup : Setup) : Returned → Held
  | .bar number _ mem => setup.heldBar number mem
  | .memory handle mem => ⟨mem, handle.size, none⟩

def Adjusted (setup : Setup) : Returned → Prop
  | .bar number ptr mem => ptr = setup.adjust number (setup.address mem.start)
  | .memory _ _ => True

end Returned

def heldBy (setup : Setup) (phase : ThreadId → Phase) (objects : ObjectId → Option Returned) :
    ObjectId ⊕ ThreadId → Option Held
  | .inl object => (objects object).map (Returned.held setup)
  | .inr thread => (phase thread).held setup

structure Settled (setup : Setup) (process : Process) : Prop where
  guarded : Guarded Phase.critical Phase.relies process.holder process.phase
    (process.driver.mmapMode, process.driver.mmapArea)
  mapped : Mapped setup process.space (heldBy setup process.phase process.objects)
  pointers : ∀ object value, process.objects object = some value → value.Adjusted setup
  unmapping : ∀ thread, (process.phase thread).Adjusted setup

section Claims

variable (setup : Setup) (phase : ThreadId → Phase) (objects : ObjectId → Option Returned)

theorem held_by_phase (thread : ThreadId) (next : Phase) :
    heldBy setup (Function.update phase thread next) objects =
      Function.update (heldBy setup phase objects) (.inr thread) (next.held setup) := by
  funext owner
  cases owner with
  | inl object => rfl
  | inr other =>
      by_cases same : other = thread
      · subst same
        simp [heldBy]
      · simp [heldBy, same]

theorem held_by_object (object : ObjectId) (value : Option Returned) :
    heldBy setup phase (Function.update objects object value) =
      Function.update (heldBy setup phase objects) (.inl object)
        (value.map (Returned.held setup)) := by
  funext owner
  cases owner with
  | inr thread => rfl
  | inl other =>
      by_cases same : other = object
      · subst same
        simp [heldBy]
      · simp [heldBy, same]

theorem held_by_kept {thread : ThreadId} {next : Phase}
    (same : next.held setup = (phase thread).held setup) :
    heldBy setup (Function.update phase thread next) objects = heldBy setup phase objects := by
  rw [held_by_phase, same]
  exact Function.update_eq_self (Sum.inr thread) (heldBy setup phase objects)

end Claims

theorem relies_quiet (phase : Phase) (outside : phase.critical = false)
    (selected : MmapMode × Fin 6) : phase.relies selected := by
  cases phase with
  | barModeSet bar => cases outside
  | barAreaSet bar => cases outside
  | _ => trivial

section Steps

variable {setup : Setup} {process : Process} {thread : ThreadId}

theorem adjusted_update (unmapping : ∀ thread, (process.phase thread).Adjusted setup)
    {next : Phase} (own : next.Adjusted setup) :
    ∀ other, (Function.update process.phase thread next other).Adjusted setup := by
  apply (Function.forall_update_iff process.phase fun _ phase => phase.Adjusted setup).mpr
  constructor
  · exact own
  · exact fun other _ => unmapping other

theorem Settled.mapped_kept (settled : Settled setup process) {next : Phase}
    (same : next.held setup = (process.phase thread).held setup) :
    Mapped setup process.space
      (heldBy setup (Function.update process.phase thread next) process.objects) := by
  rw [held_by_kept setup process.phase process.objects same]
  exact settled.mapped

/-- A thread moves on without touching a mapping, the mode or the area. -/
theorem Settled.keep (settled : Settled setup process) {driver : Privdata} {next : Phase}
    (mode : driver.mmapMode = process.driver.mmapMode)
    (area : driver.mmapArea = process.driver.mmapArea)
    (same : next.held setup = (process.phase thread).held setup)
    (inside : next.critical → (process.phase thread).critical)
    (own : next.relies (process.driver.mmapMode, process.driver.mmapArea))
    (adjusted : next.Adjusted setup) :
    Settled setup ({ process with driver := driver }.setPhase thread next) where
  guarded := by
    show Guarded _ _ process.holder _ (driver.mmapMode, driver.mmapArea)
    rw [mode, area]
    exact settled.guarded.keep inside own
  mapped := settled.mapped_kept same
  pointers := settled.pointers
  unmapping := adjusted_update settled.unmapping adjusted

theorem Settled.select (settled : Settled setup process) {driver : Privdata} {next : Phase}
    (inside : (process.phase thread).critical)
    (same : next.held setup = (process.phase thread).held setup)
    (own : next.relies (driver.mmapMode, driver.mmapArea)) (adjusted : next.Adjusted setup) :
    Settled setup ({ process with driver := driver }.setPhase thread next) where
  guarded := settled.guarded.set relies_quiet inside own
  mapped := settled.mapped_kept same
  pointers := settled.pointers
  unmapping := adjusted_update settled.unmapping adjusted

theorem Settled.acquired (settled : Settled setup process) {next : Phase} {after : Process}
    (step : process.acquire thread next = some after)
    (same : next.held setup = (process.phase thread).held setup)
    (own : ∀ selected, next.relies selected) (adjusted : next.Adjusted setup) :
    Settled setup after := by
  rw [Process.acquire] at step
  split at step
  · rename_i free
    cases step
    constructor
    · have guarded := settled.guarded
      rw [free] at guarded
      exact guarded.acquire (own _)
    · exact settled.mapped_kept same
    · exact settled.pointers
    · exact adjusted_update settled.unmapping adjusted
  · cases step

theorem Settled.released (settled : Settled setup process) {next : Phase}
    (inside : (process.phase thread).critical)
    (same : next.held setup = (process.phase thread).held setup)
    (outside : next.critical = false) (adjusted : next.Adjusted setup) :
    Settled setup (process.release thread next) where
  guarded := settled.guarded.release inside outside (relies_quiet next outside _)
  mapped := settled.mapped_kept same
  pointers := settled.pointers
  unmapping := adjusted_update settled.unmapping adjusted

/-- A mapping that was made is handed over to the caller with the mutex. -/
theorem Settled.delivered (settled : Settled setup process) {object : ObjectId}
    {value : Returned} {after : Process}
    (step : process.deliver thread object value = some after)
    (inside : (process.phase thread).critical)
    (has : (process.phase thread).held setup = some (value.held setup))
    (adjusted : value.Adjusted setup) : Settled setup after := by
  rw [Process.deliver] at step
  cases free : process.objects object with
  | some other => simp [free] at step
  | none =>
      simp only [free, Option.some.injEq] at step
      subst step
      constructor
      · exact settled.guarded.release inside rfl trivial
      · show Mapped setup process.space (heldBy setup (Function.update process.phase thread .idle)
          (Function.update process.objects object (some value)))
        rw [held_by_object, held_by_phase]
        exact settled.mapped.moved has
      · intro other its is
        rcases update_some_cases is with ⟨-, rfl⟩ | ⟨-, old⟩
        · exact adjusted
        · exact settled.pointers other its old
      · exact adjusted_update settled.unmapping trivial

/-- An `mmap` in the mutex. Where it makes a mapping of a BAR, the BAR is the one selected. -/
theorem Settled.mmapped (settled : Settled setup process) {length : U64} {answer : MmapAnswer}
    {space : Space} {result : Option Placement} {next : Option Placement → Phase}
    (inside : (process.phase thread).critical)
    (none_ : (process.phase thread).held setup = none)
    (failed : (next none).held setup = none)
    (outcome : ∀ mem, (next mem).critical ∧ (∀ selected, (next mem).relies selected) ∧
      (next mem).Adjusted setup)
    {frames : Option ℕ} (made : ∀ mem, (next (some mem)).held setup = some ⟨mem, length, frames⟩)
    (selected : ∀ frame ∈ frames, process.driver.mmapMode = .pci ∧
      frame = setup.frame process.driver.mmapArea ∧
      length = (setup.bars process.driver.mmapArea).length)
    (mmapped : setup.mmap process.driver process.space length answer = some (space, result)) :
    Settled setup ({ process with space := space }.setPhase thread (next result)) := by
  obtain ⟨critical, relies, adjusted⟩ := outcome result
  constructor
  · exact settled.guarded.set relies_quiet inside (relies _)
  · show Mapped setup space (heldBy setup (Function.update process.phase thread (next result))
      process.objects)
    rw [held_by_phase]
    have kept : ∀ {after : Space}, Mapped setup after (heldBy setup process.phase process.objects) →
        Mapped setup after (Function.update (heldBy setup process.phase process.objects)
          (.inr thread) ((next none).held setup)) := by
      intro after mapped
      rw [failed]
      have nothing : heldBy setup process.phase process.objects (.inr thread) = none := none_
      rw [← nothing]
      rwa [Function.update_eq_self]
    cases mmap_effect mmapped with
    | nowhere => exact kept settled.mapped
    | abandoned available given => exact kept (settled.mapped.abandoned available given)
    | made available new own =>
        rw [made]
        apply settled.mapped.made (.inr thread) available new
        intro frame its
        obtain ⟨mode, is, long⟩ := selected frame its
        obtain ⟨first, begins, count⟩ := own mode
        rw [first, begins, ← Setup.frame, ← is] at new
        exact map_shows_new (by rw [count, long]) new
  · exact settled.pointers
  · exact adjusted_update settled.unmapping adjusted

theorem Settled.unmapped (settled : Settled setup process) {owner : ObjectId ⊕ ThreadId}
    {mine : Held} (has : heldBy setup process.phase process.objects owner = some mine) :
    setup.munmap process.space (setup.address mine.mem.start) mine.length =
      process.space.unmap mine.mem.start mine.mem.pages := by
  have stood := settled.mapped.stands owner mine has
  have fits : mine.mem.start * setup.page < 2 ^ 64 :=
    (Nat.mul_le_mul_right _ (Nat.le_add_right _ _)).trans_lt stood.fits
  have long : mine.length ≠ 0#64 := by
    intro zero
    have some_ := stood.some_
    rw [stood.pages, zero, Setup.pages, pagesFor] at some_
    have positive := page_pos setup
    rw [Nat.div_eq_of_lt (by simp only [BitVec.toNat_ofNat]; omega)] at some_
    exact lt_irrefl 0 some_
  rw [munmap_own fits long, stood.pages]

theorem Settled.begin (settled : Settled setup process) {action : Action} {after : Process}
    (idle : process.phase thread = .idle)
    (step : process.begin setup thread action = some after) : Settled setup after := by
  have nothing : (process.phase thread).held setup = none := by
    rw [idle]
    rfl
  cases action with
  | mapBAR bar pciInfo =>
      simp only [Process.begin] at step
      split at step
      · split at step
        · cases step
          exact settled.keep rfl rfl nothing.symm nofun trivial trivial
        · cases step
          exact settled
      · cases step
        exact settled
  | unmapBAR object pciInfo =>
      simp only [Process.begin] at step
      split at step
      · rename_i bar ptr mem found
        split at step
        · cases step
          have has : heldBy setup process.phase process.objects (.inl object) =
              some (setup.heldBar bar mem) := by
            rw [heldBy, found]
            rfl
          constructor
          · exact settled.guarded.keep nofun trivial
          · show Mapped setup process.space (heldBy setup
              (Function.update process.phase thread (.unmapping bar ptr mem))
              (Function.update process.objects object none))
            rw [held_by_phase, held_by_object]
            exact settled.mapped.moved has
          · intro other value is
            exact settled.pointers other value (update_none_cases is).2
          · exact adjusted_update settled.unmapping (settled.pointers object _ found)
        · cases step
          exact settled
      · cases step
  | construct size outcome =>
      simp only [Process.begin] at step
      cases step
      cases outcome <;> exact settled.keep rfl rfl nothing.symm nofun trivial trivial
  | delete object =>
      simp only [Process.begin] at step
      split at step
      · rename_i handle mem found
        cases step
        have has : heldBy setup process.phase process.objects (.inl object) =
            some ⟨mem, handle.size, none⟩ := by
          rw [heldBy, found]
          rfl
        constructor
        · exact settled.guarded.keep nofun trivial
        · have gone := settled.mapped.removed has
          rw [← settled.unmapped has] at gone
          show Mapped setup _ (heldBy setup
            (Function.update process.phase thread (.releasing handle))
            (Function.update process.objects object none))
          rw [@held_by_kept setup process.phase _ thread (.releasing handle) nothing.symm,
            held_by_object]
          exact gone
        · intro other value is
          exact settled.pointers other value (update_none_cases is).2
        · exact adjusted_update settled.unmapping trivial
      · cases step
  | _ => cases step

theorem held_by_unmapping (setup : Setup) {phase : ThreadId → Phase}
    (objects : ObjectId → Option Returned) {thread : ThreadId} {bar : Fin 6} {ptr : U64}
    {mem : Placement} (current : phase thread = .unmapping bar ptr mem) :
    heldBy setup phase objects (.inr thread) = some (setup.heldBar bar mem) := by
  rw [heldBy, current]
  rfl

theorem Settled.munmapped (settled : Settled setup process) {bar : Fin 6} {ptr : U64}
    {mem : Placement} (current : process.phase thread = .unmapping bar ptr mem) :
    setup.munmap process.space (setup.readjust bar ptr) (setup.bars bar).length =
      process.space.unmap mem.start mem.pages := by
  have has := held_by_unmapping setup process.objects current
  have made : ptr = setup.adjust bar (setup.address mem.start) := by
    have adjusted := settled.unmapping thread
    rwa [current] at adjusted
  rw [made, readjust_adjust]
  exact settled.unmapped has

theorem Settled.step (settled : Settled setup process) {action : Action} {after : Process}
    (step : process.step setup ⟨thread, action⟩ = some after) : Settled setup after := by
  cases current : process.phase thread with
  | idle =>
      simp only [Process.step, current] at step
      exact settled.begin current step
  | barWaiting bar =>
      cases action <;> simp only [Process.step, current, reduceCtorEq] at step
      exact settled.acquired step (by rw [current]; rfl) (fun _ => trivial) trivial
  | barLocked bar =>
      cases action <;> simp only [Process.step, current, reduceCtorEq] at step
      split at step
      · cases step
        exact settled.select (by rw [current]; rfl) (by rw [current]; rfl) rfl trivial
      · cases step
        exact settled.keep rfl rfl (by rw [current]; rfl) nofun trivial trivial
  | barModeSet bar =>
      cases action <;> simp only [Process.step, current, reduceCtorEq] at step
      have mode : process.driver.mmapMode = .pci := by
        have relied := settled.guarded.relied thread
        rwa [current] at relied
      split at step
      · cases step
        exact settled.select (by rw [current]; rfl) (by rw [current]; rfl)
          (congrArg (fun mode => (mode, bar)) mode) trivial
      · cases step
        exact settled.keep rfl rfl (by rw [current]; rfl) nofun trivial trivial
  | barAreaSet bar =>
      cases action <;> simp only [Process.step, current, reduceCtorEq] at step
      rename_i answer
      obtain ⟨⟨space, result⟩, mmapped, rfl⟩ := Option.map_eq_some_iff.mp step
      have selected : process.driver.mmapMode = .pci ∧ process.driver.mmapArea = bar := by
        have relied := settled.guarded.relied thread
        rw [current] at relied
        exact ⟨congrArg Prod.fst relied, congrArg Prod.snd relied⟩
      have settles := @Settled.mmapped setup process thread settled (setup.bars bar).length answer
        space result (fun mem => mem.elim .barMapFailed (.barMapped bar)) (by rw [current]; rfl)
        (by rw [current]; rfl) rfl (by rintro (_ | mem) <;> exact ⟨rfl, fun _ => trivial, trivial⟩)
        (some (setup.frame bar)) (fun _ => rfl) ?_ mmapped
      · cases result <;> exact settles
      · intro frame its
        rw [selected.2]
        exact ⟨selected.1, (Option.some.inj its).symm, rfl⟩
  | barMapped bar mem =>
      cases action <;> simp only [Process.step, current, reduceCtorEq] at step
      exact settled.delivered step (by rw [current]; rfl) (by rw [current]; rfl) rfl
  | barMapFailed =>
      cases action <;> simp only [Process.step, current, reduceCtorEq] at step
      cases step
      exact settled.released (by rw [current]; rfl) (by rw [current]; rfl) rfl trivial
  | unmapping bar ptr mem =>
      cases action <;> simp only [Process.step, current, reduceCtorEq] at step
      cases step
      have has := held_by_unmapping setup process.objects current
      rw [settled.munmapped current]
      constructor
      · exact settled.guarded.keep nofun trivial
      · show Mapped setup _ (heldBy setup (Function.update process.phase thread .idle)
          process.objects)
        rw [held_by_phase]
        exact settled.mapped.removed has
      · exact settled.pointers
      · exact adjusted_update settled.unmapping trivial
  | allocated handle =>
      cases action <;> simp only [Process.step, current, reduceCtorEq] at step
      exact settled.acquired step (by rw [current]; rfl) (fun _ => trivial) trivial
  | locked handle =>
      cases action <;> simp only [Process.step, current, reduceCtorEq] at step
      split at step
      · cases step
        exact settled.select (by rw [current]; rfl) (by rw [current]; rfl) trivial trivial
      · cases step
        exact settled.keep rfl rfl (by rw [current]; rfl) (fun _ => by rw [current]; rfl) trivial
          trivial
  | modeSet handle =>
      cases action <;> simp only [Process.step, current, reduceCtorEq] at step
      rename_i answer
      obtain ⟨⟨space, result⟩, mmapped, rfl⟩ := Option.map_eq_some_iff.mp step
      have settles := @Settled.mmapped setup process thread settled handle.size answer space result
        (fun mem => mem.elim (.mapFailed handle) (.mapped handle)) (by rw [current]; rfl)
        (by rw [current]; rfl) rfl (by rintro (_ | mem) <;> exact ⟨rfl, fun _ => trivial, trivial⟩)
        none (fun _ => rfl) nofun mmapped
      cases result <;> exact settles
  | mapped handle mem =>
      cases action <;> simp only [Process.step, current, reduceCtorEq] at step
      exact settled.delivered step (by rw [current]; rfl) (by rw [current]; rfl) trivial
  | mapFailed handle =>
      cases action <;> simp only [Process.step, current, reduceCtorEq] at step
      cases step
      exact settled.released (by rw [current]; rfl) (by rw [current]; rfl) rfl trivial
  | releasing handle =>
      cases action <;> simp only [Process.step, current, reduceCtorEq] at step
      cases step
      have same : ∀ free : Option Privdata, (∀ driver ∈ free,
          driver.mmapMode = process.driver.mmapMode ∧ driver.mmapArea = process.driver.mmapArea) →
          Settled setup ({ process with driver := free.getD process.driver }.setPhase thread .idle)
          := by
        intro free kept
        cases free with
        | none => exact settled.keep rfl rfl (by rw [current]; rfl) nofun trivial trivial
        | some driver =>
            obtain ⟨mode, area⟩ := kept driver rfl
            exact settled.keep mode area (by rw [current]; rfl) nofun trivial trivial
      apply same
      intro driver freed
      obtain ⟨entry, -, rfl⟩ := Option.map_eq_some_iff.mp freed
      exact ⟨rfl, rfl⟩

end Steps

section Alignment

variable {setup : Setup} {space : Space} {bar : Fin 6} {mem : Placement}

/-- A BAR of a page or more begins a page, a shorter one lies within a page. -/
theorem aligned_within {start length page : ℕ} (pageOrder order : ℕ) (isPage : page = 2 ^ pageOrder)
    (isLength : length = 2 ^ order) (multiple : 2 ^ order ∣ start) :
    start % page + length ≤ pagesFor page length * page := by
  have positive : 0 < page := isPage ▸ Nat.two_pow_pos pageOrder
  have covers := @size_le_round_up page length positive
  rcases Nat.le_total pageOrder order with long | short
  · have whole : page ∣ start := isPage ▸ (Nat.pow_dvd_pow 2 long).trans multiple
    rw [Nat.mod_eq_zero_of_dvd whole, Nat.zero_add]
    exact covers
  · have parts : length ∣ page := isPage ▸ isLength ▸ Nat.pow_dvd_pow 2 short
    have some_ : 0 < length := isLength ▸ Nat.two_pow_pos order
    have inside := Nat.mod_lt start positive
    rw [pages_for_one some_ (Nat.le_of_dvd positive parts), Nat.one_mul]
    -- the position is a multiple of the length, as the page is
    obtain ⟨count, isCount⟩ := parts
    obtain ⟨position, at_⟩ : length ∣ start % page :=
      (Nat.dvd_mod_iff ⟨count, isCount⟩).mpr (isLength ▸ multiple)
    rw [at_, isCount] at inside ⊢
    rw [← Nat.mul_succ]
    exact Nat.mul_le_mul_left _ (Nat.lt_of_mul_lt_mul_left inside)

theorem frame_eq (setup : Setup) (bar : Fin 6) :
    setup.frame bar = (setup.bars bar).start.toNat / setup.page := by
  rw [Setup.frame, BitVec.toNat_ushiftRight, Nat.shiftRight_eq_div_pow]
  rfl

/-- A mapping of a BAR, with the position of the BAR added, leads to its bytes. -/
theorem lands_of_stands (small : setup.pageShift < 31)
    (aligned : NaturallyAligned (setup.bars bar))
    (stood : Stands setup space (setup.heldBar bar mem)) :
    Lands setup space (setup.bars bar) (setup.adjust bar (setup.address mem.start)) mem := by
  obtain ⟨order, isLength, multiple⟩ := aligned
  have positive := page_pos setup
  have within := @aligned_within _ _ setup.page setup.pageShift order rfl isLength multiple
  have pages : pagesFor setup.page (setup.bars bar).length.toNat = mem.pages := stood.pages.symm
  rw [pages] at within
  have fits : (mem.start + 1) * setup.page < 2 ^ 64 :=
    (Nat.mul_le_mul_right _ (Nat.add_le_add_left stood.some_ _)).trans_lt stood.fits
  have ptr := adjust_toNat small bar fits
  have split : ∀ i, (setup.adjust bar (setup.address mem.start)).toNat + i =
      ((setup.bars bar).start.toNat % setup.page + i) + setup.page * mem.start := by
    intro i
    rw [ptr, Nat.mul_comm]
    omega
  have index : ∀ i, ((setup.adjust bar (setup.address mem.start)).toNat + i) / setup.page =
      mem.start + ((setup.bars bar).start.toNat % setup.page + i) / setup.page := by
    intro i
    rw [split, Nat.add_mul_div_left _ _ positive, Nat.add_comm]
  have inside : ∀ i < (setup.bars bar).length.toNat, mem.Has
      (((setup.adjust bar (setup.address mem.start)).toNat + i) / setup.page) := by
    intro i below
    rw [index]
    refine ⟨Nat.le_add_right _ _, Nat.add_lt_add_left ?_ _⟩
    rw [Nat.div_lt_iff_lt_mul positive]
    omega
  constructor
  · intro i below
    have shown := stood.shows (setup.frame bar) rfl _ (inside i below)
    rw [translate_eq shown, index, split, Nat.add_mul_mod_self_left]
    show some ((setup.frame bar + (mem.start + _ - mem.start)) * setup.page + _) = _
    rw [Nat.add_sub_cancel_left, frame_eq, Nat.add_mul]
    have start := Nat.div_add_mod (setup.bars bar).start.toNat setup.page
    have rest := Nat.div_add_mod ((setup.bars bar).start.toNat % setup.page + i) setup.page
    rw [Nat.mul_comm] at start rest
    rw [Option.some.injEq]
    omega
  · intro i below
    exact (stood.owns.owned _).mpr (inside i below)

end Alignment

theorem reachable_settled {setup : Setup} {process : Process}
    (reached : (barSystem setup).Reachable process) : Settled setup process := by
  apply System.invariant _ _ reached
  · intro process initial
    rcases initial with ⟨-, -, idle, none_, free⟩
    have nothing : ∀ owner, heldBy setup process.phase process.objects owner = none := by
      intro owner
      cases owner with
      | inl object => simp [heldBy, none_ object]
      | inr thread => simp [heldBy, idle thread, Phase.held]
    constructor
    · constructor
      · intro thread inside
        rw [idle] at inside
        cases inside
      · intro thread
        rw [idle]
        trivial
    · constructor
      · intro index number owned
        rw [free] at owned
        cases owned
      · intro owner mine has
        rw [nothing] at has
        cases has
      · intro left right one two has
        rw [nothing] at has
        cases has
    · intro object value is
      rw [none_] at is
      cases is
    · intro thread
      rw [idle]
      trivial
  · intro process label after settled step
    rcases label with ⟨thread, action⟩
    exact settled.step step

/-- On every interleaving the pointers that `mapBAR` returned land on their BARs, and unmapping
one takes exactly its own mapping away. -/
theorem bars_land (setup : Setup) (small : setup.pageShift < 31)
    (aligned : ∀ bar, (setup.bars bar).io = false → (setup.bars bar).length ≠ 0#64 →
      NaturallyAligned (setup.bars bar))
    (process : Process) (reached : (barSystem setup).Reachable process) :
    BarsLand setup process := by
  have settled := reachable_settled reached
  constructor
  · intro object bar ptr mem is memory
    have has : heldBy setup process.phase process.objects (.inl object) =
        some (setup.heldBar bar mem) := by
      rw [heldBy, is]
      rfl
    have stood := settled.mapped.stands _ _ has
    have made : ptr = setup.adjust bar (setup.address mem.start) := settled.pointers object _ is
    rw [made]
    by_cases none_ : (setup.bars bar).length = 0#64
    · constructor
      · intro i below
        rw [none_] at below
        cases below
      · intro i below
        rw [none_] at below
        cases below
    · exact lands_of_stands small (aligned bar memory none_) stood
  · intro thread bar ptr mem current
    have has := held_by_unmapping setup process.objects current
    have stepped : process.step setup ⟨thread, .munmap⟩ = some ({ process with
        space := setup.munmap process.space (setup.readjust bar ptr) (setup.bars bar).length
        }.setPhase thread .idle) := by
      simp only [Process.step, current]
    refine ⟨_, stepped, rfl, ?_⟩
    show Space.Removes mem.number process.space (setup.munmap process.space _ _)
    rw [settled.munmapped current]
    exact unmap_removes (settled.mapped.stands _ _ has).owns

def twoBars : Setup where
  api := .c
  pageShift := 12
  bars bar :=
    if bar.val = 0 then ⟨0xfebff400#64, 0x400#64, false⟩
    else if bar.val = 2 then ⟨0xe0000000#64, 0x2000#64, false⟩
    else ⟨0#64, 0#64, false⟩
  virtToPfn cpua := cpua >>> 12

def openedDevice : Process where
  driver := ⟨[], 0#32, .kmem, ⟨0, by decide⟩⟩
  holder := none
  phase := fun _ => .idle
  space := ⟨fun _ => none, fun _ => none, 0⟩
  objects := fun _ => none

/-- The second thread selects its own mode while the first is about to return, and maps three
pages into a vma of one. -/
def threeMappings : List Step :=
  [⟨0, .mapBAR 0#32 true⟩, ⟨1, .construct 0x1000#32 (.granted 0x8000#64 0x8000#64)⟩, ⟨0, .lock⟩,
    ⟨0, .mmapMode true⟩, ⟨2, .construct 0x3000#32 (.granted 0x10000#64 0x10000#64)⟩,
    ⟨0, .mmapArea true⟩, ⟨0, .mmap (.found 5 none)⟩, ⟨0, .unlock 0⟩, ⟨1, .lock⟩,
    ⟨1, .mmapMode true⟩, ⟨1, .mmap (.found 6 none)⟩, ⟨1, .unlock 1⟩, ⟨0, .mapBAR 2#32 true⟩,
    ⟨0, .lock⟩, ⟨0, .mmapMode true⟩, ⟨0, .mmapArea true⟩, ⟨0, .mmap (.found 16 none)⟩,
    ⟨0, .unlock 2⟩, ⟨1, .unmapBAR 2 true⟩]

theorem bars_land_three : ∃ process, (barSystem twoBars).runFrom openedDevice threeMappings =
      some process ∧ process.objects 0 = some (.bar 0 0x5400#64 ⟨0, 5, 1⟩) ∧
    process.phase 1 = .unmapping 2 0x10000#64 ⟨2, 16, 2⟩ ∧ process.space.table 8 = some 18 ∧
    BarsLand twoBars process := by
  have aligned : ∀ bar, (twoBars.bars bar).io = false → (twoBars.bars bar).length ≠ 0#64 →
      NaturallyAligned (twoBars.bars bar) := by
    intro bar _ some_
    by_cases first : bar.val = 0
    · rw [Fin.ext (b := ⟨0, by decide⟩) first]
      exact ⟨10, by decide, by decide⟩
    · by_cases third : bar.val = 2
      · rw [Fin.ext (b := ⟨2, by decide⟩) third]
        exact ⟨13, by decide, by decide⟩
      · simp only [twoBars, first, third, if_false] at some_
        exact absurd rfl some_
  have start : (barSystem twoBars).Reachable openedDevice :=
    .start ⟨rfl, rfl, fun _ => rfl, fun _ => rfl, fun _ => rfl⟩
  have shown : ((barSystem twoBars).runFrom openedDevice threeMappings).map (fun process =>
      (process.objects 0, process.phase 1, process.space.table 8)) =
      some (some (.bar 0 0x5400#64 ⟨0, 5, 1⟩), .unmapping 2 0x10000#64 ⟨2, 16, 2⟩, some 18) := by
    decide +kernel
  obtain ⟨process, run, facts⟩ := Option.map_eq_some_iff.mp shown
  simp only [Prod.mk.injEq] at facts
  obtain ⟨object, phase, entry⟩ := facts
  have reached := System.reachable_of_run threeMappings start (fun _ _ _ => trivial) run
  exact ⟨process, run, object, phase, entry, bars_land twoBars (by decide) aligned process reached⟩

end FpgaPcie.Driver.BarMapping
