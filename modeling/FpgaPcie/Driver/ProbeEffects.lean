import FpgaPcie.Driver.Probe
import Mathlib.Data.List.FinRange

/-!
# What a probe takes

For each way through `pcidriver_probe`: what it returns, what it does to the count of
devices and which resources it takes and gives back. A probe that gets to its end has the
same resources that `pcidriver_remove` gives back.
-/

namespace FpgaPcie.Driver.Resources

open FpgaPcie.Holdings
open FpgaPcie.Driver.Umem (Page)

set_option autoImplicit false

def barResources (barsKmapped : Fin 6 → Bool) (list : List (Fin 6)) : List Resource :=
  list.flatMap fun bar => if barsKmapped bar then [.region bar, .barMapping bar] else []

def isBarResource : Resource → Bool
  | .region _ | .barMapping _ => true
  | _ => false

/-- A BAR of the list that the driver wants cannot be requested or mapped. -/
def BarFails (bars : Bars) (answers : ProbeAnswers) (list : List (Fin 6)) : Prop :=
  ∃ bar ∈ list, (bars bar).isMemory ∧ (answers.pciRequestRegion bar ≠ 0 ∨ !answers.ioremap bar)

section BarLoops

variable {before record : List (Event Resource)} {acquired released : List Resource}

theorem irq_unmap_moves (barsKmapped : Fin 6 → Bool)
    (moves : Moves before record acquired released) :
    Moves before (irqUnmapBars barsKmapped record) acquired
      (barResources barsKmapped (List.finRange 6) ++ released) := by
  rw [irqUnmapBars]
  generalize List.finRange 6 = list
  induction list generalizing record released with
  | nil => exact moves
  | cons bar rest ih =>
      rw [List.foldl_cons, barResources, List.flatMap_cons]
      by_cases mapped : barsKmapped bar
      · rw [if_pos mapped, if_pos mapped]
        apply (ih ((moves.give (.barMapping bar)).give (.region bar))).perm (.refl _)
        rw [List.append_assoc]
        exact List.perm_append_comm_assoc _ [_, _] _
      · rw [if_neg mapped, if_neg mapped]
        exact ih moves

def BarError (answers : ProbeAnswers) (err : ℤ) : Prop :=
  err = -eio ∨ ∃ bar, err = answers.pciRequestRegion bar

/-- The loop ends without an error, and then it took the resources of the BARs it mapped, or
at a BAR that fails. -/
structure BarsEffect (bars : Bars) (answers : ProbeAnswers) (list : List (Fin 6))
    (probe after : IrqProbe) : Prop where
  deviceCount : after.host.deviceCount = probe.host.deviceCount
  irqEnabled : after.irqEnabled = probe.irqEnabled
  others : ∀ bar ∉ list, after.barsKmapped bar = probe.barsKmapped bar
  ends : ∃ acquired, Moves probe.host.record after.host.record acquired [] ∧
    (∀ resource ∈ acquired, isBarResource resource) ∧
    (after.err = 0 ∧ ¬BarFails bars answers list ∧
        acquired.Perm (barResources after.barsKmapped list) ∨
      after.err ≠ 0 ∧ BarError answers after.err ∧ BarFails bars answers list)

theorem BarsEffect.skip {bars : Bars} {answers : ProbeAnswers} {bar : Fin 6}
    {rest : List (Fin 6)} {probe after : IrqProbe} (other : ¬(bars bar).isMemory)
    (fresh : bar ∉ rest) (unmapped : probe.barsKmapped bar = false)
    (effect : BarsEffect bars answers rest probe after) :
    BarsEffect bars answers (bar :: rest) probe after := by
  obtain ⟨deviceCount, irqEnabled, others, acquired, moves, kinds, ends⟩ := effect
  have fails_iff : BarFails bars answers (bar :: rest) ↔ BarFails bars answers rest := by
    simp [BarFails, other]
  refine ⟨deviceCount, irqEnabled, fun bar outside => others bar
    (List.not_mem_of_not_mem_cons outside), acquired, moves, kinds, ?_⟩
  rw [fails_iff, barResources, List.flatMap_cons, others bar fresh, unmapped]
  exact ends

theorem BarsEffect.take {bars : Bars} {answers : ProbeAnswers} {bar : Fin 6}
    {rest : List (Fin 6)} {probe after : IrqProbe}
    (request : answers.pciRequestRegion bar = 0) (remap : answers.ioremap bar) (fresh : bar ∉ rest)
    (effect : BarsEffect bars answers rest
      { probe with
        host := (probe.host.take (.region bar)).take (.barMapping bar)
        barsKmapped := Function.update probe.barsKmapped bar true } after) :
    BarsEffect bars answers (bar :: rest) probe after := by
  obtain ⟨deviceCount, irqEnabled, others, acquired, moves, kinds, ends⟩ := effect
  have fails_iff : BarFails bars answers (bar :: rest) ↔ BarFails bars answers rest := by
    simp [BarFails, request, remap]
  have mapped : after.barsKmapped bar = true := (others bar fresh).trans (Function.update_self _ _ _)
  have first := ((Moves.refl probe.host.record).take (.region bar)).take (.barMapping bar)
  refine ⟨deviceCount, irqEnabled, ?_, acquired ++ [.barMapping bar, .region bar],
    first.trans moves, ?_, ?_⟩
  · intro other outside
    obtain ⟨differ, elsewhere⟩ : other ≠ bar ∧ other ∉ rest := by simpa using outside
    exact (others other elsewhere).trans (Function.update_of_ne differ _ _)
  · intro resource member
    rcases List.mem_append.mp member with later | now
    · exact kinds resource later
    · simp only [List.mem_cons, List.not_mem_nil, or_false] at now
      rcases now with rfl | rfl <;> rfl
  · rw [fails_iff, barResources, List.flatMap_cons, mapped, if_pos rfl]
    rcases ends with ⟨err, fine, same⟩ | failed
    · refine Or.inl ⟨err, fine, List.perm_append_comm.trans ?_⟩
      exact (List.Perm.swap _ _ _).append same
    · exact Or.inr failed

theorem probe_bars_effect (bars : Bars) (answers : ProbeAnswers) (list : List (Fin 6))
    (nodup : list.Nodup) (probe : IrqProbe) (fine : probe.err = 0)
    (unmapped : ∀ bar ∈ list, probe.barsKmapped bar = false) :
    BarsEffect bars answers list probe (probeBars bars answers list probe) := by
  induction list generalizing probe with
  | nil =>
      exact ⟨rfl, rfl, fun _ _ => rfl, [], .refl _, nofun,
        Or.inl ⟨fine, fun ⟨_, member, _⟩ => absurd member List.not_mem_nil, .refl _⟩⟩
  | cons bar rest ih =>
      obtain ⟨fresh, nodupRest⟩ := List.nodup_cons.mp nodup
      have later : ∀ other ∈ rest, probe.barsKmapped other = false :=
        fun other member => unmapped other (List.mem_cons_of_mem _ member)
      by_cases memory : (bars bar).isMemory
      · by_cases request : answers.pciRequestRegion bar = 0
        · by_cases remap : answers.ioremap bar
          · have goes : probeBars bars answers (bar :: rest) probe = probeBars bars answers rest
                { probe with
                  host := (probe.host.take (.region bar)).take (.barMapping bar)
                  barsKmapped := Function.update probe.barsKmapped bar true } := by
              simp [probeBars, memory, request, remap]
            rw [goes]
            refine .take request remap fresh (ih nodupRest _ fine ?_)
            intro other member
            have differ : other ≠ bar := fun same => fresh (same ▸ member)
            exact (Function.update_of_ne differ _ _).trans (later other member)
          · have stops : probeBars bars answers (bar :: rest) probe =
                { probe with host := probe.host.take (.region bar), err := -eio } := by
              simp [probeBars, memory, request, remap]
            rw [stops]
            refine ⟨rfl, rfl, fun _ _ => rfl, [.region bar],
              (Moves.refl probe.host.record).take (.region bar), ?_,
              Or.inr ⟨(by decide : -eio ≠ 0), Or.inl rfl, ?_⟩⟩
            · intro resource member
              rw [List.mem_singleton.mp member]
              rfl
            · exact ⟨bar, List.mem_cons_self, memory, Or.inr (by simp [remap])⟩
        · have stops : probeBars bars answers (bar :: rest) probe =
              { probe with err := answers.pciRequestRegion bar } := by
            simp [probeBars, memory, request]
          rw [stops]
          exact ⟨rfl, rfl, fun _ _ => rfl, [], .refl _, nofun,
            Or.inr ⟨request, Or.inr ⟨bar, rfl⟩, bar, List.mem_cons_self, memory, Or.inl request⟩⟩
      · have skips : probeBars bars answers (bar :: rest) probe =
            probeBars bars answers rest probe := by
          simp [probeBars, memory]
        rw [skips]
        exact (ih nodupRest probe fine later).skip memory fresh (unmapped bar List.mem_cons_self)

end BarLoops

section Steps

variable {bars : Bars} {answers : ProbeAnswers} {host : Host}

/-- `pcidriver_probe_irq` fails only at a BAR; where it does not it may also have the
interrupt handler. -/
structure IrqEffect (bars : Bars) (answers : ProbeAnswers) (host : Host) (irq : IrqProbe) : Prop where
  deviceCount : irq.host.deviceCount = host.deviceCount
  ends : ∃ acquired, Moves host.record irq.host.record acquired [] ∧
    (irq.err = 0 ∧ ¬BarFails bars answers (List.finRange 6) ∧
        acquired.Perm ((if irq.irqEnabled then [.irqHandler] else []) ++
          barResources irq.barsKmapped (List.finRange 6)) ∨
      irq.err ≠ 0 ∧ BarError answers irq.err ∧ BarFails bars answers (List.finRange 6) ∧
        ∀ resource ∈ acquired, isBarResource resource)

theorem probe_irq_effect (bars : Bars) (answers : ProbeAnswers) (host : Host) :
    IrqEffect bars answers host (probeIrq bars answers host) := by
  obtain ⟨deviceCount, irqEnabled, -, acquired, moves, kinds, ends⟩ :=
    probe_bars_effect bars answers (List.finRange 6) (List.nodup_finRange 6)
      ⟨host, fun _ => false, false, 0⟩ rfl fun _ _ => rfl
  rw [probeIrq]
  generalize probeBars bars answers (List.finRange 6) ⟨host, fun _ => false, false, 0⟩ = probe at *
  rcases ends with ⟨err, fine, same⟩ | ⟨err, error, fails⟩
  · have without : IrqEffect bars answers host probe :=
      ⟨deviceCount, acquired, moves, Or.inl ⟨err, fine, by rw [irqEnabled]; exact same⟩⟩
    have handler : IrqEffect bars answers host
        { probe with host := probe.host.take .irqHandler, irqEnabled := true } :=
      ⟨deviceCount, _, moves.take .irqHandler, Or.inl ⟨err, fine, List.Perm.cons _ same⟩⟩
    rw [if_neg (not_not.mpr err)]
    split
    · exact without
    split
    · exact without
    split
    · exact without
    · exact handler
  · simp only [ne_eq, err, not_false_eq_true, if_true]
    exact ⟨deviceCount, acquired, moves, Or.inr ⟨err, error, fails, kinds⟩⟩

theorem create_files_effect (answers : ProbeAnswers) (list : List DeviceAttribute) (host : Host) :
    let made := createFiles answers list host
    made.1.deviceCount = host.deviceCount ∧ (made.2 ↔ ∀ attr ∈ list, answers.createFile attr) ∧
      ∃ acquired : List DeviceAttribute,
        Moves host.record made.1.record (acquired.map .attributeFile) [] ∧
        (made.2 → acquired.Perm list) := by
  induction list generalizing host with
  | nil => exact ⟨rfl, by simp [createFiles], [], .refl _, fun _ => .refl _⟩
  | cons attr rest ih =>
      by_cases makes : answers.createFile attr
      · obtain ⟨deviceCount, all, acquired, moves, same⟩ := ih (host.take (.attributeFile attr))
        have goes : createFiles answers (attr :: rest) host =
            createFiles answers rest (host.take (.attributeFile attr)) := by
          simp [createFiles, makes]
        rw [goes]
        refine ⟨deviceCount, by simpa [makes] using all, acquired ++ [attr], ?_, ?_⟩
        · rw [List.map_append]
          exact ((Moves.refl host.record).take (.attributeFile attr)).trans moves
        · intro done
          exact (List.perm_append_singleton _ _).trans (.cons _ (same done))
      · have stops : createFiles answers (attr :: rest) host = (host, false) := by
          simp [createFiles, makes]
        rw [stops]
        exact ⟨rfl, by simp [makes], [], .refl _, nofun⟩

end Steps

def deviceHolds (barsKmapped : Fin 6 → Bool) (irqEnabled : Bool) : List Resource :=
  .charDevice :: (deviceAttributes.map .attributeFile ++
    ((if irqEnabled then [.irqHandler] else []) ++ barResources barsKmapped (List.finRange 6) ++
      [.classDevice, .privdata, .pciDevice]))

def Host.Full (host : Host) : Prop := maxdevices.toInt ≤ host.deviceCount.toInt

instance (host : Host) : Decidable host.Full := inferInstanceAs (Decidable (_ ≤ _))

def FileFails (answers : ProbeAnswers) : Prop :=
  ∃ attr ∈ deviceAttributes, answers.createFile attr = false

def LaterStepFails (bars : Bars) (answers : ProbeAnswers) : Prop :=
  BarFails bars answers (List.finRange 6) ∨ FileFails answers ∨ answers.cdevAdd ≠ 0

inductive ProbeEffect (major : U32) (bars : Bars) (locked : Page → Bool) (host : Host)
    (answers : ProbeAnswers) : Probed → Prop where
  | disabled (fails : answers.pciEnableDevice ≠ 0) :
      ProbeEffect major bars locked host answers ⟨host, answers.pciEnableDevice, none⟩
  | refused {probed : Probed} (enabled : answers.pciEnableDevice = 0) (full : host.Full)
      (none_ : probed.bound = none) (err : probed.err = -enomsg)
      (deviceCount : probed.host.deviceCount = host.deviceCount + 1#32)
      (moves : Moves host.record probed.host.record [.pciDevice] [.pciDevice]) :
      ProbeEffect major bars locked host answers probed
  | noMemory {probed : Probed} (enabled : answers.pciEnableDevice = 0) (room : ¬host.Full)
      (fails : answers.kcallocPrivdata = false) (none_ : probed.bound = none)
      (err : probed.err = -enomem) (deviceCount : probed.host.deviceCount = host.deviceCount)
      (moves : Moves host.record probed.host.record [.pciDevice] [.pciDevice]) :
      ProbeEffect major bars locked host answers probed
  | failed {probed : Probed} (enabled : answers.pciEnableDevice = 0) (room : ¬host.Full)
      (privdata : answers.kcallocPrivdata = true) (fails : LaterStepFails bars answers)
      (none_ : probed.bound = none) (deviceCount : probed.host.deviceCount = host.deviceCount)
      (err : probed.err = 0 ∧ ¬BarFails bars answers (List.finRange 6) ∧ FileFails answers ∨
        probed.err ≠ 0 ∧ (BarError answers probed.err ∨ probed.err = answers.cdevAdd))
      (classDevice : held probed.host.record .classDevice = held host.record .classDevice + 1) :
      ProbeEffect major bars locked host answers probed
  | bound {probed : Probed} {device : Device} (enabled : answers.pciEnableDevice = 0)
      (room : ¬host.Full) (privdata : answers.kcallocPrivdata = true)
      (fine : ¬LaterStepFails bars answers) (is : probed.bound = some device)
      (err : probed.err = 0) (deviceCount : probed.host.deviceCount = host.deviceCount + 1#32)
      (devno : device.devno = mkdev major (minornr + host.deviceCount))
      (kmemList : device.kmemList = []) (umemList : device.umemList = [])
      (lockBits : device.locked = locked)
      (moves : Moves host.record device.record
        (deviceHolds device.barsKmapped device.irqEnabled) []) :
      ProbeEffect major bars locked host answers probed

section Probe

variable {major : U32} {bars : Bars} {locked : Page → Bool} {host : Host} {answers : ProbeAnswers}

theorem bar_resources_kinds (barsKmapped : Fin 6 → Bool) (list : List (Fin 6)) :
    ∀ resource ∈ barResources barsKmapped list, isBarResource resource := by
  intro resource member
  obtain ⟨bar, -, inside⟩ := List.mem_flatMap.mp member
  by_cases mapped : barsKmapped bar
  · rw [if_pos mapped] at inside
    simp only [List.mem_cons, List.not_mem_nil, or_false] at inside
    rcases inside with rfl | rfl <;> rfl
  · rw [if_neg mapped] at inside
    exact absurd inside List.not_mem_nil

theorem bar_resources_count (barsKmapped : Fin 6 → Bool) (list : List (Fin 6))
    {resource : Resource} (other : ¬isBarResource resource) :
    (barResources barsKmapped list).count resource = 0 :=
  List.count_eq_zero_of_not_mem fun member => other (bar_resources_kinds _ _ _ member)

/-- The label behind a failing step gives back nothing of the class device. -/
theorem probe_irq_probe_fail_effect {before : Host} {acquired : List Resource}
    (barsKmapped : Fin 6 → Bool) (err : ℤ)
    (moves : Moves before.record host.record (acquired ++ [.classDevice, .privdata, .pciDevice]) [])
    (others : Resource.classDevice ∉ acquired) :
    held (probeIrqProbeFail host barsKmapped err).host.record .classDevice =
      held before.record .classDevice + 1 := by
  have unmapped := ((irq_unmap_moves barsKmapped moves).give .privdata).give .pciDevice
  have result : (probeIrqProbeFail host barsKmapped err).host.record = .given .pciDevice ::
      .given .privdata :: irqUnmapBars barsKmapped host.record := rfl
  have none_ : (barResources barsKmapped (List.finRange 6)).count .classDevice = 0 :=
    bar_resources_count _ _ (by decide)
  rw [result, unmapped.held_eq]
  simp [List.count_eq_zero_of_not_mem others, none_]

theorem class_device_apart {acquired : List Resource} {files : List DeviceAttribute}
    (apart : Resource.classDevice ∉ acquired) :
    Resource.classDevice ∉ files.map Resource.attributeFile ++ acquired := by
  intro member
  rcases List.mem_append.mp member with file | earlier
  · obtain ⟨attr, -, same⟩ := List.mem_map.mp file
    cases same
  · exact apart earlier

theorem probe_privdata_effect (enabled : answers.pciEnableDevice = 0) (room : ¬host.Full)
    (privdata : answers.kcallocPrivdata = true) :
    ProbeEffect major bars locked host answers (probePrivdata major bars locked host.deviceCount
      { host.take .pciDevice with deviceCount := host.deviceCount + 1#32 } answers) := by
  have start := (((Moves.refl host.record).take .pciDevice).take .privdata).take .classDevice
  have counted : host.deviceCount + 1#32 - 1#32 = host.deviceCount := by
    simp
  obtain ⟨irqCount, irqAcquired, irqMoves, irqEnds⟩ := probe_irq_effect bars answers
    (({ host.take .pciDevice with deviceCount := host.deviceCount + 1#32 } : Host).take .privdata
      |>.take .classDevice)
  rw [probePrivdata]
  generalize probeIrq bars answers _ = irq at *
  have taken := start.trans irqMoves
  rcases irqEnds with ⟨err, fine, same⟩ | ⟨err, error, fails, kinds⟩
  · have apart : Resource.classDevice ∉ irqAcquired := by
      rw [same.mem_iff, List.mem_append]
      intro either
      rcases either with handler | bar
      · split at handler <;> simp at handler
      · exact absurd (bar_resources_kinds _ _ _ bar) (by decide)
    obtain ⟨fileCount, all, files, fileMoves, filesSame⟩ :=
      create_files_effect answers deviceAttributes irq.host
    have filed := taken.trans fileMoves
    rw [if_neg (not_not.mpr err)]
    cases made : createFiles answers deviceAttributes irq.host with
    | mk after done =>
        rw [made] at fileCount all fileMoves filesSame filed
        cases done with
        | false =>
            have fails : FileFails answers := by
              by_contra none_
              refine absurd (all.mpr ?_) Bool.false_ne_true
              intro attr member
              by_contra off
              exact none_ ⟨attr, member, by simpa using off⟩
            refine .failed enabled room privdata (Or.inr (Or.inl fails)) rfl ?_
              (Or.inl ⟨err, fine, fails⟩) ?_
            · exact (congrArg (· - 1#32) (fileCount.trans irqCount)).trans counted
            · rw [← List.append_assoc] at filed
              exact probe_irq_probe_fail_effect irq.barsKmapped irq.err filed
                (class_device_apart apart)
        | true =>
            have noFile : ¬FileFails answers := by
              intro present
              rcases present with ⟨attr, member, off⟩
              rw [all.mp rfl attr member] at off
              cases off
            by_cases cdev : answers.cdevAdd = 0
            · simp only [cdev, ne_eq, not_true_eq_false, if_false]
              refine .bound enabled room privdata ?_ rfl rfl ?_ rfl rfl rfl rfl ?_
              · intro either
                rcases either with bar | file | last
                · exact fine bar
                · exact noFile file
                · exact last cdev
              · exact fileCount.trans irqCount
              · refine (filed.take .charDevice).perm ?_ (.refl _)
                exact .cons _ (((filesSame rfl).map _).append (same.append_right _))
            · simp only [ne_eq, cdev, not_false_eq_true, if_true]
              refine .failed enabled room privdata (Or.inr (Or.inr cdev)) rfl ?_
                (Or.inr ⟨cdev, Or.inr rfl⟩) ?_
              · exact (congrArg (· - 1#32) (fileCount.trans irqCount)).trans counted
              · rw [← List.append_assoc] at filed
                exact probe_irq_probe_fail_effect irq.barsKmapped answers.cdevAdd filed
                  (class_device_apart apart)
  · have apart : Resource.classDevice ∉ irqAcquired :=
      fun member => absurd (kinds _ member) (by decide)
    rw [if_pos err]
    refine .failed enabled room privdata (Or.inl fails) rfl ?_ (Or.inr ⟨err, Or.inl error⟩) ?_
    · exact (congrArg (· - 1#32) irqCount).trans counted
    · exact probe_irq_probe_fail_effect irq.barsKmapped irq.err taken apart

theorem probe_effect (major : U32) (bars : Bars) (locked : Page → Bool) (host : Host)
    (answers : ProbeAnswers) :
    ProbeEffect major bars locked host answers (probe major bars locked host answers) := by
  by_cases enabled : answers.pciEnableDevice = 0
  · have first := (Moves.refl host.record).take .pciDevice
    have counted : host.deviceCount + 1#32 - 1#32 = host.deviceCount := by
      simp
    by_cases full : host.Full
    · have refuses : probe major bars locked host answers = probeMaxdevicesFail
          { host.take .pciDevice with deviceCount := host.deviceCount + 1#32 } (-enomsg) := by
        rw [probe, if_neg (not_not.mpr enabled)]
        exact if_pos full
      rw [refuses]
      exact .refused enabled full rfl rfl rfl (first.give .pciDevice)
    · cases privdata : answers.kcallocPrivdata with
      | false =>
          have stops : probe major bars locked host answers = probeNomem
              { host.take .pciDevice with deviceCount := host.deviceCount + 1#32 } (-enomem) := by
            rw [probe, if_neg (not_not.mpr enabled)]
            exact (if_neg full).trans (if_pos (by rw [privdata]; rfl))
          rw [stops]
          exact .noMemory enabled full privdata rfl rfl counted (first.give .pciDevice)
      | true =>
          have goes : probe major bars locked host answers = probePrivdata major bars locked
              host.deviceCount { host.take .pciDevice with deviceCount := host.deviceCount + 1#32 }
              answers := by
            rw [probe, if_neg (not_not.mpr enabled)]
            exact (if_neg full).trans (if_neg (by rw [privdata]; decide))
          rw [goes]
          exact probe_privdata_effect enabled full privdata
  · have stops : probe major bars locked host answers = ⟨host, answers.pciEnableDevice, none⟩ := by
      rw [probe, if_pos enabled]
    rw [stops]
    exact .disabled enabled

end Probe

end FpgaPcie.Driver.Resources
