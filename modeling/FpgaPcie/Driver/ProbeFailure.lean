import FpgaPcie.Driver.ProbeEffects

/-!
# A failing probe

A probe that does not bind its device should return an error, with everything as it was.
It does where the device cannot be enabled or there is no memory for the private data. At
the limit of devices the count stays raised; behind the class device every failing step
leaves that, and where a sysfs file cannot be made the probe returns zero.
-/

namespace FpgaPcie.Driver.Resources

open FpgaPcie.Holdings
open FpgaPcie.Driver.Umem (Page)

set_option autoImplicit false

/-- The probe reports an error, and the count and everything held are as before. -/
structure LeavesNothing (host : Host) (probed : Probed) : Prop where
  err : probed.err ≠ 0
  deviceCount : probed.host.deviceCount = host.deviceCount
  held : ∀ resource, held probed.host.record resource = held host.record resource

/-- The device is enabled, and it is one too many or a step behind the private data fails. -/
def ProbeFailsLate (bars : Bars) (host : Host) (answers : ProbeAnswers) : Prop :=
  answers.pciEnableDevice = 0 ∧
    (host.Full ∨ answers.kcallocPrivdata = true ∧ LaterStepFails bars answers)

/-- A probe that fails leaves nothing behind exactly if it does not fail late. -/
theorem failed_probe_clean_iff (major : U32) (bars : Bars) (locked : Page → Bool) (host : Host)
    (answers : ProbeAnswers) :
    ((probe major bars locked host answers).bound = none →
        LeavesNothing host (probe major bars locked host answers)) ↔
      ¬ProbeFailsLate bars host answers := by
  have effect := probe_effect major bars locked host answers
  generalize probe major bars locked host answers = probed at *
  cases effect with
  | disabled fails =>
      exact iff_of_true (fun _ => ⟨fails, rfl, fun _ => rfl⟩) (fun late => fails late.1)
  | refused enabled full none_ err deviceCount moves =>
      refine iff_of_false ?_ (not_not.mpr ⟨enabled, Or.inl full⟩)
      intro clean
      have same := (clean none_).deviceCount
      rw [deviceCount] at same
      bv_omega
  | noMemory enabled room fails none_ err deviceCount moves =>
      refine iff_of_true (fun _ => ⟨?_, deviceCount, moves.kept_iff.mpr (.refl _)⟩) ?_
      · rw [err]
        decide
      · intro facts
        rcases facts with ⟨-, full | ⟨memory, -⟩⟩
        · exact room full
        · exact absurd (memory.symm.trans fails) (by decide)
  | failed enabled room privdata fails none_ deviceCount err classDevice =>
      refine iff_of_false ?_ (not_not.mpr ⟨enabled, Or.inr ⟨privdata, fails⟩⟩)
      intro clean
      have same := (clean none_).held .classDevice
      omega
  | bound enabled room privdata fine is err deviceCount devno kmemList umemList lockBits moves =>
      apply iff_of_true (fun none_ => absurd (is.symm.trans none_) (Option.some_ne_none _))
      intro facts
      rcases facts with ⟨-, full | ⟨-, fails⟩⟩
      · exact room full
      · exact fine fails

/-- The file `kbuffers` cannot be made. -/
def noKbuffersFile : ProbeAnswers :=
  { allSucceeds with createFile := fun attr => decide (attr ≠ .kbuffers) }

/-- The probe returns zero, with the interrupt handler still there. -/
theorem failed_file_reports_success :
    let probed := probe 250#32 oneBar (fun _ => false) ⟨0#32, []⟩ noKbuffersFile
    probed.bound = none ∧ ¬LeavesNothing ⟨0#32, []⟩ probed ∧
      held probed.host.record .irqHandler = 1 := by
  have err : (probe 250#32 oneBar (fun _ => false) ⟨0#32, []⟩ noKbuffersFile).err = 0 := by
    decide
  exact ⟨rfl, fun clean => clean.err err, by decide⟩

end FpgaPcie.Driver.Resources
