import FpgaPcie.Creotech.Pcie
import FpgaPcie.Lib.Holdings

/-!
# Claiming and releasing the fpga_pcie device

`fpga_probe` takes the resources of the device one after the other, and where that fails it
jumps into a ladder that gives back what it has; `fpga_remove` gives back those of a claimed
device. The record of both has the latest event first.
-/

namespace FpgaPcie.CreotechProbe

open FpgaPcie.Holdings
open FpgaPcie.Creotech (bufSize)

set_option autoImplicit false

/-- The buffer is known by its size and where it lies, the handler by its irq number. -/
inductive Resource where
  | device
  | region (bar : ℕ)
  | mapping (region : U64)
  | msi
  | irq (irq : U32)
  | dma (channel : ℕ)
  | coherent (size : ℕ) (buffer : U64)
  | misc
  deriving DecidableEq, Repr

/-- `pci_resource_start` and `pci_resource_end` of the BARs, and `dev->irq`. -/
structure PciDev where
  resourceStart : ℕ → U64
  resourceEnd : ℕ → U64
  irq : U32

/-- How the calls of a probe go. A result of zero is success, and so is a pointer other than
`NULL`; an enabled MSI has `msiIrq` for its number. -/
structure ProbeAnswers where
  pciEnableDevice : ℤ
  pciRequestRegions : ℤ
  ioremap : U64
  pciEnableMsi : ℤ
  msiIrq : U32
  requestIrq : ℤ
  pciSetDmaMask : ℤ
  requestDma : ℤ
  pciAllocConsistent : U64
  miscRegister : ℤ

/-- The fields of `pcie_descr` that a removal comes back to. -/
structure ProbeDescr where
  region : U64
  irq : U32
  buffer : U64
  deriving DecidableEq, Repr

/-- `irq` is `dev->irq`, and `descr` is there where the probe returned `SUCCESS`. -/
structure Claimed where
  record : List (Event Resource)
  irq : U32
  descr : Option ProbeDescr

namespace PciDev

def baseLen (dev : PciDev) : U64 := dev.resourceEnd 0 - dev.resourceStart 0 + 1#64

def resourceLen (dev : PciDev) (bar : ℕ) : U64 :=
  if dev.resourceStart bar = 0#64 ∧ dev.resourceEnd bar = dev.resourceStart bar then 0#64
  else dev.resourceEnd bar - dev.resourceStart bar + 1#64

/-- What `pci_request_regions` requests: all BARs that there are. -/
def regions (dev : PciDev) : List ℕ := (List.range 6).filter fun bar => dev.resourceLen bar ≠ 0#64

def baseMissing (dev : PciDev) : Prop := dev.resourceStart 0 = 0#64 ∨ dev.baseLen = 0#64

instance (dev : PciDev) : Decidable dev.baseMissing := inferInstanceAs (Decidable (_ ∨ _))

end PciDev

-- The labels of `fpga_probe`, the last one first.

def errBaseAddress (record : List (Event Resource)) : List (Event Resource) :=
  .given .device :: record

def errIoremap (record : List (Event Resource)) : List (Event Resource) :=
  errBaseAddress (.given (.region 0) :: record)

def errIrqRequest (region : U64) (record : List (Event Resource)) : List (Event Resource) :=
  errIoremap (if region ≠ 0#64 then .given (.mapping region) :: record else record)

def errDmaMask (descr : ProbeDescr) (record : List (Event Resource)) : List (Event Resource) :=
  errIrqRequest descr.region (.given .msi :: .given (.irq descr.irq) :: record)

def errBuffer (descr : ProbeDescr) (record : List (Event Resource)) : List (Event Resource) :=
  errDmaMask descr (.given (.dma 1) :: record)

def errCharDev (descr : ProbeDescr) (record : List (Event Resource)) : List (Event Resource) :=
  errBuffer descr (.given (.coherent bufSize descr.buffer) :: record)

def probeBuffer (descr : ProbeDescr) (answers : ProbeAnswers) (record : List (Event Resource)) :
    Claimed :=
  let descr := { descr with buffer := answers.pciAllocConsistent }
  if descr.buffer = 0#64 then ⟨errBuffer descr record, descr.irq, none⟩
  else
    let record := .taken (.coherent (2 * bufSize) descr.buffer) :: record
    if answers.miscRegister ≠ 0 then ⟨errCharDev descr record, descr.irq, none⟩
    else ⟨.taken .misc :: record, descr.irq, some descr⟩

def probeIrq (descr : ProbeDescr) (answers : ProbeAnswers) (record : List (Event Resource)) :
    Claimed :=
  if 0 > answers.requestIrq then ⟨errIrqRequest descr.region record, descr.irq, none⟩
  else
    let record := .taken (.irq descr.irq) :: record
    if answers.pciSetDmaMask ≠ 0 then ⟨errDmaMask descr record, descr.irq, none⟩
    else if 0 > answers.requestDma then ⟨errDmaMask descr record, descr.irq, none⟩
    else probeBuffer descr answers (.taken (.dma 1) :: record)

/-- From the mapping of the BAR on. Where the MSI cannot be enabled it is disabled, and the
probe goes on. -/
def probeMapping (dev : PciDev) (answers : ProbeAnswers) (record : List (Event Resource)) :
    Claimed :=
  if answers.ioremap = 0#64 then ⟨errIoremap record, dev.irq, none⟩
  else
    let record := .taken (.mapping answers.ioremap) :: record
    if answers.pciEnableMsi ≠ 0 then
      probeIrq ⟨answers.ioremap, dev.irq, 0#64⟩ answers (.given .msi :: record)
    else probeIrq ⟨answers.ioremap, answers.msiIrq, 0#64⟩ answers (.taken .msi :: record)

def fpgaProbe (dev : PciDev) (answers : ProbeAnswers) : Claimed :=
  if answers.pciEnableDevice ≠ 0 then ⟨[], dev.irq, none⟩
  else
    let record := [.taken .device]
    if dev.baseMissing then ⟨errBaseAddress record, dev.irq, none⟩
    else if answers.pciRequestRegions ≠ 0 then ⟨errBaseAddress record, dev.irq, none⟩
    else
      probeMapping dev answers
        (((dev.regions.map .region).map Event.taken).reverse ++ record)

def fpgaRemove (descr : ProbeDescr) (irq : U32) (record : List (Event Resource)) :
    List (Event Resource) :=
  let record := .given (.dma 1) :: .given .msi :: .given (.irq irq) ::
    .given (.coherent bufSize descr.buffer) :: record
  let record := if descr.region ≠ 0#64 then .given (.mapping descr.region) :: record else record
  .given .misc :: .given .device :: .given (.region 0) :: record

def Claimed.life (claimed : Claimed) : List (Event Resource) :=
  match claimed.descr with
  | none => claimed.record
  | some descr => fpgaRemove descr claimed.irq claimed.record

/-- What code of the driver may touch. The DMA channel is requested and never used. -/
def Resource.touched : Resource → Bool
  | .device => true
  | .region _ => true
  | .mapping _ => true
  | .msi => true
  | .coherent _ _ => true
  | .irq _ => false
  | .dma _ => false
  | .misc => false

/-- What a call of the misc device can use, which waits for the handler too, and what the
handler can. -/
def Resource.uses (user resource : Resource) : Bool :=
  match user with
  | .misc =>
      match resource with
      | .irq _ => true
      | other => other.touched
  | .irq _ => resource.touched
  | _ => false

/-- Everything taken is given back, once and with the same extent; nothing else is; and nothing
while it can be used. -/
structure GivesBack (record : List (Event Resource)) : Prop where
  all : ∀ resource, held record resource = 0
  orderly : Orderly (fun user resource => user.uses resource = true) record

/-- The resources of the device and its regions, the latest first. -/
def enabled (dev : PciDev) : List Resource := (dev.regions.map .region).reverse ++ [.device]

/-- The probe fails before it has the regions; or BAR 0 is the only one there is, and it fails at
the mapping or, with the MSI enabled, behind the interrupt handler and before the buffer. -/
def FailsCleanly (dev : PciDev) (answers : ProbeAnswers) : Prop :=
  answers.pciEnableDevice ≠ 0 ∨ dev.baseMissing ∨ answers.pciRequestRegions ≠ 0 ∨
    dev.regions = [0] ∧ (answers.ioremap = 0#64 ∨
      answers.pciEnableMsi = 0 ∧ ¬0 > answers.requestIrq ∧
        (answers.pciSetDmaMask ≠ 0 ∨ 0 > answers.requestDma ∨ answers.pciAllocConsistent = 0#64))

theorem uses_irreflexive (resource : Resource) : ¬resource.uses resource = true := by
  cases resource with
  | device | region | mapping | msi | irq | dma | coherent | misc =>
      intro uses
      cases uses

theorem unwound_gives_back {stack : List Resource} (distinct : stack.Nodup)
    (apart : stack.Pairwise fun later earlier => ¬earlier.uses later = true) :
    GivesBack (unwound stack) :=
  ⟨held_unwound stack, unwound_orderly uses_irreflexive distinct apart⟩

section Ladder

variable {record : List (Event Resource)} {acquired released : List Resource}
variable {descr : ProbeDescr}

theorem err_ioremap_moves (moves : Moves [] record acquired released) :
    Moves [] (errIoremap record) acquired (.device :: .region 0 :: released) :=
  (moves.give _).give _

theorem err_irq_request_moves {region : U64} (mapped : region ≠ 0#64)
    (moves : Moves [] record acquired released) :
    Moves [] (errIrqRequest region record) acquired
      (.device :: .region 0 :: .mapping region :: released) := by
  rw [errIrqRequest, if_pos mapped]
  exact err_ioremap_moves (moves.give _)

theorem err_dma_mask_moves (mapped : descr.region ≠ 0#64)
    (moves : Moves [] record acquired released) :
    Moves [] (errDmaMask descr record) acquired
      (.device :: .region 0 :: .mapping descr.region :: .msi :: .irq descr.irq :: released) :=
  err_irq_request_moves mapped ((moves.give _).give _)

theorem err_buffer_moves (mapped : descr.region ≠ 0#64)
    (moves : Moves [] record acquired released) :
    Moves [] (errBuffer descr record) acquired (.device :: .region 0 :: .mapping descr.region ::
      .msi :: .irq descr.irq :: .dma 1 :: released) :=
  err_dma_mask_moves mapped (moves.give _)

theorem err_char_dev_moves (mapped : descr.region ≠ 0#64)
    (moves : Moves [] record acquired released) :
    Moves [] (errCharDev descr record) acquired (.device :: .region 0 :: .mapping descr.region ::
      .msi :: .irq descr.irq :: .dma 1 :: .coherent bufSize descr.buffer :: released) :=
  err_buffer_moves mapped (moves.give _)

theorem remove_moves {irq : U32} (mapped : descr.region ≠ 0#64)
    (moves : Moves [] record acquired released) :
    Moves [] (fpgaRemove descr irq record) acquired
      (.misc :: .device :: .region 0 :: .mapping descr.region :: .dma 1 :: .msi :: .irq irq ::
        .coherent bufSize descr.buffer :: released) := by
  rw [fpgaRemove, if_pos mapped]
  exact (((((((moves.give _).give _).give _).give _).give _).give _).give _).give _

theorem GivesBack.perm (back : GivesBack record) (moves : Moves [] record acquired released) :
    acquired.Perm released := by
  apply moves.kept_iff.mp
  intro resource
  rw [back.all]
  rfl

/-- One resource is given back more or less often than it was taken. -/
theorem not_given_back (moves : Moves [] record acquired released) (resource : Resource)
    (differs : acquired.count resource ≠ released.count resource) : ¬GivesBack record := by
  intro back
  exact differs ((back.perm moves).count_eq resource)

end Ladder

section Probe

variable {dev : PciDev} {answers : ProbeAnswers} {record : List (Event Resource)}
variable {acquired released : List Resource}

theorem enabled_moves (dev : PciDev) :
    Moves [] (((dev.regions.map .region).map Event.taken).reverse ++ [.taken .device])
      (enabled dev) [] :=
  ((Moves.refl []).take Resource.device).take_all _

theorem enabled_count {resource : Resource} (device : resource ≠ .device)
    (region : ∀ bar, resource ≠ .region bar) : (enabled dev).count resource = 0 := by
  apply List.count_eq_zero_of_not_mem
  intro member
  rw [enabled, List.mem_append, List.mem_reverse, List.mem_map, List.mem_singleton] at member
  rcases member with region' | device'
  · rcases region' with ⟨bar, _, is⟩
    exact region bar is.symm
  · exact device device'

theorem base_region (base : ¬dev.baseMissing) : 0 ∈ dev.regions := by
  rw [PciDev.baseMissing, not_or] at base
  rw [PciDev.regions, List.mem_filter]
  apply And.intro (by decide)
  rw [decide_eq_true_eq, PciDev.resourceLen, if_neg (fun empty => base.1 empty.1)]
  exact base.2

/-- As many regions are given back as there are only if there is one. -/
theorem only_region (base : ¬dev.baseMissing) {more : List Resource}
    (same : (more ++ enabled dev).Perm released) (length : released.length = more.length + 2) :
    dev.regions = [0] := by
  have lengths := same.length_eq
  rw [List.length_append, enabled, List.length_append, List.length_reverse, List.length_map,
    List.length_singleton, length] at lengths
  have one : dev.regions.length = 1 := by omega
  rcases List.length_eq_one_iff.mp one with ⟨bar, is⟩
  have here := base_region base
  rw [is, List.mem_singleton] at here
  rw [is, ← here]

theorem buffer_given_back {descr : ProbeDescr} (mapped : descr.region ≠ 0#64)
    (moves : Moves [] record acquired released)
    (other : ∀ buffer, released.count (.coherent (2 * bufSize) buffer) = 0)
    (back : GivesBack (probeBuffer descr answers record).life) :
    answers.pciAllocConsistent = 0#64 := by
  by_contra there
  have taken := moves.take (.coherent (2 * bufSize) answers.pciAllocConsistent)
  have size : bufSize ≠ 2 * bufSize := by decide
  simp only [probeBuffer, if_neg there] at back
  split at back
  · have ladder := @err_char_dev_moves _ _ _ { descr with buffer := answers.pciAllocConsistent }
      mapped taken
    apply not_given_back ladder (.coherent (2 * bufSize) answers.pciAllocConsistent) _ back
    simp [other, size]
  · have removed := @remove_moves _ _ _ { descr with buffer := answers.pciAllocConsistent }
      descr.irq mapped (taken.take .misc)
    apply not_given_back removed (.coherent (2 * bufSize) answers.pciAllocConsistent) _ back
    simp [other, size]

/-- Without an MSI there is one release too many, whatever else happens. -/
theorem probe_irq_unbalanced {descr : ProbeDescr} (mapped : descr.region ≠ 0#64)
    (moves : Moves [] record acquired [.msi]) (without : acquired.count .msi = 0) :
    ¬GivesBack (probeIrq descr answers record).life := by
  simp only [probeIrq]
  split
  · apply not_given_back (err_irq_request_moves mapped moves) .msi
    simp [without]
  · split
    · apply not_given_back (err_dma_mask_moves mapped (moves.take (.irq descr.irq))) .msi
      simp [without]
    · split
      · apply not_given_back (err_dma_mask_moves mapped (moves.take (.irq descr.irq))) .msi
        simp [without]
      · intro back
        have taken := (moves.take (.irq descr.irq)).take (.dma 1)
        have noBuffer := buffer_given_back mapped taken (by simp) back
        simp only [probeBuffer, if_pos noBuffer] at back
        have ladder := @err_buffer_moves _ _ _ { descr with buffer := answers.pciAllocConsistent }
          mapped taken
        apply not_given_back ladder .msi _ back
        simp [without]

/-- With an MSI the ladder from the interrupt handler on forgets nothing but regions. -/
theorem probe_irq_iff {descr : ProbeDescr} (mapped : descr.region ≠ 0#64)
    (base : ¬dev.baseMissing)
    (moves : Moves [] record (.msi :: .mapping descr.region :: enabled dev) [])
    (is : dev.regions = [0] → record =
      [.taken .msi, .taken (.mapping descr.region), .taken (.region 0), .taken .device]) :
    GivesBack (probeIrq descr answers record).life ↔
      dev.regions = [0] ∧ ¬0 > answers.requestIrq ∧
        (answers.pciSetDmaMask ≠ 0 ∨ 0 > answers.requestDma ∨
          answers.pciAllocConsistent = 0#64) := by
  have requested := moves.take (.irq descr.irq)
  have ladder := err_dma_mask_moves mapped requested
  have masked : GivesBack (errDmaMask descr (.taken (.irq descr.irq) :: record)) ↔
      dev.regions = [0] := by
    constructor
    · intro back
      exact @only_region dev _ base [.irq descr.irq, .msi, .mapping descr.region]
        (back.perm ladder) rfl
    · intro only
      rw [is only, errDmaMask, errIrqRequest, if_pos mapped]
      have stack : GivesBack (unwound
          [.irq descr.irq, .msi, .mapping descr.region, .region 0, .device]) := by
        apply unwound_gives_back
        · simp
        · simp [Resource.uses, Resource.touched]
      exact stack
  simp only [probeIrq]
  split
  · rename_i fails
    apply iff_of_false
    · apply not_given_back (err_irq_request_moves mapped moves) .msi
      simp [@enabled_count dev .msi (by simp) (by simp)]
    · intro holds
      exact holds.2.1 fails
  · rename_i handler
    split
    · rename_i mask
      rw [Claimed.life, masked]
      exact ⟨fun only => ⟨only, handler, Or.inl mask⟩, fun holds => holds.1⟩
    · rename_i mask
      split
      · rename_i channel
        rw [Claimed.life, masked]
        exact ⟨fun only => ⟨only, handler, Or.inr (Or.inl channel)⟩, fun holds => holds.1⟩
      · rename_i channel
        have taken := requested.take (.dma 1)
        constructor
        · intro back
          have noBuffer := buffer_given_back mapped taken (by simp) back
          simp only [probeBuffer, if_pos noBuffer] at back
          have ladder := @err_buffer_moves _ _ _
            { descr with buffer := answers.pciAllocConsistent } mapped taken
          have only := @only_region dev _ base
            [.dma 1, .irq descr.irq, .msi, .mapping descr.region] (back.perm ladder) rfl
          exact ⟨only, handler, Or.inr (Or.inr noBuffer)⟩
        · intro holds
          rcases holds with ⟨only, _, fails⟩
          have noBuffer := (fails.resolve_left mask).resolve_left channel
          simp only [probeBuffer, if_pos noBuffer]
          rw [Claimed.life, is only, errBuffer, errDmaMask, errIrqRequest, if_pos mapped]
          have stack : GivesBack (unwound
              [.dma 1, .irq descr.irq, .msi, .mapping descr.region, .region 0, .device]) := by
            apply unwound_gives_back
            · simp
            · simp [Resource.uses, Resource.touched]
          exact stack

theorem probe_mapping_iff (base : ¬dev.baseMissing) :
    GivesBack (probeMapping dev answers
        (((dev.regions.map .region).map Event.taken).reverse ++ [.taken .device])).life ↔
      dev.regions = [0] ∧ (answers.ioremap = 0#64 ∨
        answers.pciEnableMsi = 0 ∧ ¬0 > answers.requestIrq ∧ (answers.pciSetDmaMask ≠ 0 ∨
          0 > answers.requestDma ∨ answers.pciAllocConsistent = 0#64)) := by
  have moves := enabled_moves dev
  simp only [probeMapping]
  split
  · rename_i unmapped
    have ladder := err_ioremap_moves moves
    rw [Claimed.life]
    constructor
    · intro back
      exact ⟨@only_region dev _ base [] (back.perm ladder) rfl, Or.inl unmapped⟩
    · intro holds
      rw [holds.1]
      have stack : GivesBack (unwound [.region 0, .device]) := by
        apply unwound_gives_back
        · simp
        · simp [Resource.uses]
      exact stack
  · rename_i mapped
    have taken := moves.take (.mapping answers.ioremap)
    split
    · rename_i msi
      apply iff_of_false
      · refine @probe_irq_unbalanced answers _ _ ⟨answers.ioremap, dev.irq, 0#64⟩ mapped
          (taken.give .msi) ?_
        simp [@enabled_count dev .msi (by simp) (by simp)]
      · intro holds
        rcases holds.2 with unmapped | fails
        · exact mapped unmapped
        · exact msi fails.1
    · rename_i msi
      have is : dev.regions = [0] → Event.taken Resource.msi ::
          .taken (.mapping answers.ioremap) ::
            (((dev.regions.map .region).map Event.taken).reverse ++ [.taken .device]) =
          [.taken .msi, .taken (.mapping answers.ioremap), .taken (.region 0), .taken .device] := by
        intro only
        rw [only]
        rfl
      rw [@probe_irq_iff dev answers _ ⟨answers.ioremap, answers.msiIrq, 0#64⟩ mapped base
        (taken.take .msi) is]
      constructor
      · intro holds
        exact ⟨holds.1, Or.inr ⟨not_not.mp msi, holds.2⟩⟩
      · intro holds
        exact ⟨holds.1, (holds.2.resolve_left mapped).2⟩

end Probe

/-- A probe and a later removal balance exactly if the probe fails cleanly. -/
theorem probe_remove_balance_iff (dev : PciDev) (answers : ProbeAnswers) :
    GivesBack (fpgaProbe dev answers).life ↔ FailsCleanly dev answers := by
  have early : GivesBack (errBaseAddress [.taken .device]) := by
    have stack : GivesBack (unwound [.device]) := by
      apply unwound_gives_back
      · simp
      · simp
    exact stack
  have nothing : GivesBack [] := by
    have stack : GivesBack (unwound []) := unwound_gives_back List.nodup_nil List.Pairwise.nil
    exact stack
  simp only [fpgaProbe]
  split
  · rename_i disabled
    exact iff_of_true nothing (Or.inl disabled)
  · rename_i isEnabled
    split
    · rename_i missing
      exact iff_of_true early (Or.inr (Or.inl missing))
    · rename_i base
      split
      · rename_i refused
        exact iff_of_true early (Or.inr (Or.inr (Or.inl refused)))
      · rename_i requested
        rw [probe_mapping_iff base]
        constructor
        · intro holds
          exact Or.inr (Or.inr (Or.inr holds))
        · intro fails
          exact ((fails.resolve_left isEnabled).resolve_left base).resolve_left requested

def oneBar : PciDev where
  resourceStart bar := if bar = 0 then 0xfe000000#64 else 0#64
  resourceEnd bar := if bar = 0 then 0xfe000fff#64 else 0#64
  irq := 11#32

def allSucceed : ProbeAnswers where
  pciEnableDevice := 0
  pciRequestRegions := 0
  ioremap := 0xc0000000#64
  pciEnableMsi := 0
  msiIrq := 24#32
  requestIrq := 0
  pciSetDmaMask := 0
  requestDma := 0
  pciAllocConsistent := 0xd0000000#64
  miscRegister := 0

/-- The removal gives back half of the buffer. Where the handler cannot be requested, the MSI
stays. -/
theorem claimed_device_leaks :
    held (fpgaProbe oneBar allSucceed).life (.coherent (2 * bufSize) 0xd0000000#64) = 1 ∧
      held (fpgaProbe oneBar allSucceed).life (.coherent bufSize 0xd0000000#64) = -1 ∧
      ¬GivesBack (fpgaProbe oneBar allSucceed).life ∧
      held (fpgaProbe oneBar { allSucceed with requestIrq := -16 }).life .msi = 1 ∧
      ¬GivesBack (fpgaProbe oneBar { allSucceed with requestIrq := -16 }).life := by
  have buffer : held (fpgaProbe oneBar allSucceed).life
      (.coherent (2 * bufSize) 0xd0000000#64) = 1 := by decide
  have msi : held (fpgaProbe oneBar { allSucceed with requestIrq := -16 }).life .msi = 1 := by
    decide
  refine ⟨buffer, by decide, ?_, msi, ?_⟩
  · intro back
    rw [back.all] at buffer
    cases buffer
  · intro back
    rw [back.all] at msi
    cases msi

end FpgaPcie.CreotechProbe
