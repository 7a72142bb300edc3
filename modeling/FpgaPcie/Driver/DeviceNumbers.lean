import FpgaPcie.Driver.ProbeEffects
import FpgaPcie.Lib.Transition

/-!
# The numbers of devices

`pcidriver_deviceCount` gives a probed device its number and is compared with the limit.
Removing a device and refusing one at the limit do not lower it, so numbers are used up; as
long as that is not felt, bound devices differ in number and a probe is refused exactly at
the limit.
-/

namespace FpgaPcie.Driver.Resources

open FpgaPcie.Transition

set_option autoImplicit false

/-- The count, and the device numbers of the devices that the kernel takes for bound. -/
structure Plugged where
  deviceCount : U32
  bound : List U32

inductive PlugAction where
  | probe (bars : Bars) (answers : ProbeAnswers)
  | remove (devno : U32)

/-- No function that the probe calls returns `-ENOMSG`. -/
structure ProbeAnswers.OtherErrors (answers : ProbeAnswers) : Prop where
  pciEnableDevice : answers.pciEnableDevice ≠ -enomsg
  pciRequestRegion : ∀ bar, answers.pciRequestRegion bar ≠ -enomsg
  cdevAdd : answers.cdevAdd ≠ -enomsg

namespace Plugged

section Major

variable (major : U32)

def probed (plugged : Plugged) (bars : Bars) (answers : ProbeAnswers) : Probed :=
  probe major bars (fun _ => false) ⟨plugged.deviceCount, []⟩ answers

def nextDevno (plugged : Plugged) : U32 := mkdev major (minornr + plugged.deviceCount)

def plug (plugged : Plugged) (bars : Bars) (answers : ProbeAnswers) : Plugged :=
  let result := plugged.probed major bars answers
  { deviceCount := result.host.deviceCount
    bound := if result.err = 0 then plugged.bound ++ [plugged.nextDevno major] else plugged.bound }

end Major

def unplug (plugged : Plugged) (devno : U32) : Plugged :=
  { plugged with bound := plugged.bound.erase devno }

end Plugged

/-- The history of a loaded driver: `pcidriver_init` sets the count to zero. -/
def plugSystem (major : U32) : System Plugged PlugAction where
  initial plugged := plugged.deviceCount = 0#32 ∧ plugged.bound = []
  step plugged
    | .probe bars answers => some (plugged.plug major bars answers)
    | .remove devno => if devno ∈ plugged.bound then some (plugged.unplug devno) else none

/-- The probe finds a number left and no file fails; or all devices are bound, and the
count has not run over. -/
def CountFits (plugged : Plugged) : PlugAction → Prop
  | .probe bars answers => answers.pciEnableDevice = 0 →
      plugged.deviceCount.toNat < maxdevices.toNat ∧
          ¬(answers.kcallocPrivdata ∧ ¬BarFails bars answers (List.finRange 6) ∧
            FileFails answers) ∨
        plugged.bound.length = maxdevices.toNat ∧ plugged.deviceCount.toNat < 2 ^ 31
  | .remove _ => True

theorem minor_of_mkdev (major : U32) {minor : U32} (small : minor.toNat < 2 ^ 20) :
    minorOf (mkdev major minor) = minor := by
  apply BitVec.eq_of_toNat_eq
  have mask : (0xfffff#32).toNat = 2 ^ 20 - 1 := rfl
  rw [minorOf, mkdev, BitVec.toNat_and, BitVec.toNat_or, mask, Nat.and_two_pow_sub_one_eq_mod,
    Nat.or_mod_two_pow, BitVec.toNat_shiftLeft, Nat.shiftLeft_eq, Nat.mod_eq_of_lt small]
  have shifted : major.toNat * 2 ^ 20 % 2 ^ 32 % 2 ^ 20 = 0 := by omega
  rw [shifted, Nat.zero_or]

/-- Bound devices differ in number, and their numbers are those of the driver. -/
structure Numbered (plugged : Plugged) : Prop where
  distinct : plugged.bound.Nodup
  minor : ∀ devno ∈ plugged.bound, (minorOf devno).toNat < minornr.toNat + maxdevices.toNat

structure Counted (major : U32) (plugged : Plugged) : Prop where
  distinct : plugged.bound.Nodup
  drawn : ∀ devno ∈ plugged.bound, ∃ devid : U32, devno = mkdev major (minornr + devid) ∧
    devid.toNat < maxdevices.toNat ∧ devid.toNat < plugged.deviceCount.toNat
  length : plugged.bound.length ≤ plugged.deviceCount.toNat
  limit : plugged.bound.length ≤ maxdevices.toNat
  range : plugged.deviceCount.toNat ≤ 2 ^ 31

section History

variable {major : U32} {plugged : Plugged} {bars : Bars} {answers : ProbeAnswers}

theorem minor_of_drawn {devid : U32} (small : devid.toNat < maxdevices.toNat) :
    minorOf (mkdev major (minornr + devid)) = devid := by
  have zero : minornr + devid = devid := BitVec.zero_add devid
  rw [zero]
  apply minor_of_mkdev
  have four : maxdevices.toNat = 4 := rfl
  omega

theorem Counted.numbered (counted : Counted major plugged) : Numbered plugged where
  distinct := counted.distinct
  minor devno member := by
    obtain ⟨devid, rfl, small, -⟩ := counted.drawn devno member
    rw [minor_of_drawn small]
    exact small.trans_le (Nat.le_add_left _ _)

theorem full_iff (range : plugged.deviceCount.toNat < 2 ^ 31) :
    Host.Full ⟨plugged.deviceCount, []⟩ ↔ maxdevices.toNat ≤ plugged.deviceCount.toNat := by
  have four : maxdevices.toInt = 4 := rfl
  have also : maxdevices.toNat = 4 := rfl
  have positive : plugged.deviceCount.toInt = plugged.deviceCount.toNat :=
    BitVec.toInt_eq_toNat_of_lt (by omega)
  rw [Host.Full, four, also, positive]
  omega

/-- A probe that comes past `pci_enable_device` is refused or finds a number. -/
theorem Counted.full_or_room (counted : Counted major plugged)
    (fits : CountFits plugged (.probe bars answers)) (enabled : answers.pciEnableDevice = 0) :
    Host.Full ⟨plugged.deviceCount, []⟩ ∧ plugged.bound.length = maxdevices.toNat ∧
        plugged.deviceCount.toNat < 2 ^ 31 ∨
      ¬Host.Full ⟨plugged.deviceCount, []⟩ ∧ plugged.bound.length < maxdevices.toNat ∧
        plugged.deviceCount.toNat < maxdevices.toNat ∧
        ¬(answers.kcallocPrivdata ∧ ¬BarFails bars answers (List.finRange 6) ∧
          FileFails answers) := by
  have four : maxdevices.toNat = 4 := rfl
  have length := counted.length
  rcases fits enabled with ⟨room, files⟩ | ⟨all, range⟩
  · refine Or.inr ⟨?_, by omega, room, files⟩
    rw [full_iff (by omega)]
    omega
  · refine Or.inl ⟨?_, all, range⟩
    rw [full_iff range]
    omega

theorem Counted.next_fresh (counted : Counted major plugged)
    (room : plugged.deviceCount.toNat < maxdevices.toNat) :
    plugged.nextDevno major ∉ plugged.bound := by
  intro member
  obtain ⟨devid, same, small, drawn⟩ := counted.drawn _ member
  have minors := congrArg minorOf same
  rw [Plugged.nextDevno, minor_of_drawn room, minor_of_drawn small] at minors
  rw [minors] at drawn
  exact lt_irrefl _ drawn

/-- A device that is bound takes the number that the count stands at. -/
theorem Counted.bind (counted : Counted major plugged)
    (room : plugged.deviceCount.toNat < maxdevices.toNat) :
    Counted major ⟨plugged.deviceCount + 1#32, plugged.bound ++ [plugged.nextDevno major]⟩ := by
  have four : maxdevices.toNat = 4 := rfl
  have length := counted.length
  have next : (plugged.deviceCount + 1#32).toNat = plugged.deviceCount.toNat + 1 := by bv_omega
  constructor
  · exact List.nodup_append.mpr ⟨counted.distinct, List.nodup_singleton _,
      fun devno member other is same =>
        counted.next_fresh room (List.mem_singleton.mp is ▸ same ▸ member)⟩
  · intro devno member
    rcases List.mem_append.mp member with earlier | new
    · obtain ⟨devid, same, small, drawn⟩ := counted.drawn devno earlier
      exact ⟨devid, same, small, by simp only [next]; omega⟩
    · exact ⟨plugged.deviceCount, List.mem_singleton.mp new, room, by simp only [next]; omega⟩
  · simp only [List.length_append, List.length_singleton, next]
    omega
  · simp only [List.length_append, List.length_singleton]
    omega
  · simp only [next]
    omega

theorem Counted.refuse (counted : Counted major plugged)
    (range : plugged.deviceCount.toNat < 2 ^ 31) :
    Counted major ⟨plugged.deviceCount + 1#32, plugged.bound⟩ := by
  have next : (plugged.deviceCount + 1#32).toNat = plugged.deviceCount.toNat + 1 := by bv_omega
  have length := counted.length
  refine ⟨counted.distinct, ?_, ?_, counted.limit, ?_⟩
  · intro devno member
    obtain ⟨devid, same, small, drawn⟩ := counted.drawn devno member
    exact ⟨devid, same, small, by simp only [next]; omega⟩
  · simp only [next]
    omega
  · simp only [next]
    omega

theorem Counted.unplug (counted : Counted major plugged) (devno : U32) :
    Counted major (plugged.unplug devno) := by
  have shorter := (@List.erase_sublist _ _ devno plugged.bound).length_le
  exact ⟨counted.distinct.erase devno,
    fun other member => counted.drawn other (List.mem_of_mem_erase member),
    shorter.trans counted.length, shorter.trans counted.limit, counted.range⟩

theorem Plugged.probed_effect (major : U32) (plugged : Plugged) (bars : Bars)
    (answers : ProbeAnswers) :
    ProbeEffect major bars (fun _ => false) ⟨plugged.deviceCount, []⟩ answers
      (plugged.probed major bars answers) :=
  probe_effect major bars _ _ answers

theorem Counted.plug (counted : Counted major plugged)
    (fits : CountFits plugged (.probe bars answers)) :
    Counted major (plugged.plug major bars answers) := by
  have effect := plugged.probed_effect major bars answers
  have ways := counted.full_or_room fits
  change Counted major ⟨(plugged.probed major bars answers).host.deviceCount,
    if (plugged.probed major bars answers).err = 0 then _ else _⟩
  generalize plugged.probed major bars answers = probed at *
  cases effect with
  | disabled fails =>
      rw [if_neg fails]
      exact counted
  | refused enabled full none_ err deviceCount moves =>
      rw [if_neg (by rw [err]; decide), deviceCount]
      rcases ways enabled with ⟨-, -, range⟩ | ⟨room, -⟩
      · exact counted.refuse range
      · exact absurd full room
  | noMemory enabled room fails none_ err deviceCount moves =>
      rw [if_neg (by rw [err]; decide), deviceCount]
      exact counted
  | failed enabled room privdata fails none_ deviceCount err classDevice =>
      rcases ways enabled with ⟨full, -⟩ | ⟨-, -, -, files⟩
      · exact absurd full room
      · rcases err with ⟨-, bars_, file⟩ | ⟨nonzero, -⟩
        · exact absurd ⟨privdata, bars_, file⟩ files
        · rw [if_neg nonzero, deviceCount]
          exact counted
  | bound enabled room privdata fine is err deviceCount devno kmemList umemList lockBits moves =>
      rw [if_pos err, deviceCount]
      rcases ways enabled with ⟨full, -⟩ | ⟨-, -, below, -⟩
      · exact absurd full room
      · exact counted.bind below

theorem counted_start (initial : (plugSystem major).initial plugged) : Counted major plugged := by
  obtain ⟨count, bound⟩ := plugged
  obtain ⟨rfl, rfl⟩ := initial
  exact ⟨List.nodup_nil, fun _ member => absurd member List.not_mem_nil, Nat.zero_le _,
    Nat.zero_le _, by decide⟩

theorem counted_step {after : Plugged} {action : PlugAction} (counted : Counted major plugged)
    (fits : CountFits plugged action)
    (step : (plugSystem major).step plugged action = some after) : Counted major after := by
  cases action with
  | probe bars answers =>
      cases step
      exact counted.plug fits
  | remove devno =>
      simp only [plugSystem] at step
      split_ifs at step
      cases step
      exact counted.unplug devno

theorem reached_counted (reached : (plugSystem major).ReachableUnder CountFits plugged) :
    Counted major plugged :=
  System.invariant_under (fun _ => counted_start) (fun _ _ _ => counted_step) reached

theorem Counted.refused_iff (counted : Counted major plugged) (otherErrors : answers.OtherErrors)
    (fits : CountFits plugged (.probe bars answers))
    (comes : answers.pciEnableDevice = 0 ∨ plugged.bound.length ≠ maxdevices.toNat) :
    (plugged.probed major bars answers).err = -enomsg ↔
      plugged.bound.length = maxdevices.toNat := by
  have effect := plugged.probed_effect major bars answers
  have ways := counted.full_or_room fits
  have room_left : ∀ enabled : answers.pciEnableDevice = 0,
      ¬Host.Full ⟨plugged.deviceCount, []⟩ → plugged.bound.length ≠ maxdevices.toNat := by
    intro enabled room
    rcases ways enabled with ⟨full, -⟩ | ⟨-, fewer, -⟩
    · exact absurd full room
    · exact fewer.ne
  generalize plugged.probed major bars answers = probed at *
  cases effect with
  | disabled fails =>
      exact iff_of_false otherErrors.pciEnableDevice (comes.resolve_left fails)
  | refused enabled full none_ err deviceCount moves =>
      rcases ways enabled with ⟨-, all, -⟩ | ⟨room, -⟩
      · exact iff_of_true err all
      · exact absurd full room
  | noMemory enabled room fails none_ err deviceCount moves =>
      exact iff_of_false (by rw [err]; decide) (room_left enabled room)
  | failed enabled room privdata fails none_ deviceCount err classDevice =>
      refine iff_of_false ?_ (room_left enabled room)
      rcases err with ⟨zero, -⟩ | ⟨-, (eio | ⟨bar, request⟩) | cdev⟩
      · rw [zero]
        decide
      · rw [eio]
        decide
      · rw [request]
        exact otherErrors.pciRequestRegion bar
      · rw [cdev]
        exact otherErrors.cdevAdd
  | bound enabled room privdata fine is err deviceCount devno kmemList umemList lockBits moves =>
      exact iff_of_false (by rw [err]; decide) (room_left enabled room)

end History

/-- In every history in which the drift of the count is not felt, bound devices differ in
number and a probe is refused exactly where all devices are bound. -/
theorem device_numbers_stay_correct (major : U32) {plugged : Plugged}
    (reached : (plugSystem major).ReachableUnder CountFits plugged) :
    Numbered plugged ∧ ∀ (bars : Bars) (answers : ProbeAnswers), answers.OtherErrors →
      CountFits plugged (.probe bars answers) →
      answers.pciEnableDevice = 0 ∨ plugged.bound.length ≠ maxdevices.toNat →
      ((plugged.probed major bars answers).err = -enomsg ↔
        plugged.bound.length = maxdevices.toNat) := by
  have counted := reached_counted reached
  exact ⟨counted.numbered, fun _ _ otherErrors fits comes =>
    counted.refused_iff otherErrors fits comes⟩

def nothingPlugged : Plugged := ⟨0#32, []⟩

/-- Two devices are bound, one of them is removed and a third one comes. -/
theorem device_numbers_stay_correct_replugged : ∃ plugged,
    (plugSystem 250#32).ReachableUnder CountFits plugged ∧
    plugged.bound = [mkdev 250#32 1#32, mkdev 250#32 2#32] ∧ Numbered plugged ∧
    ((plugged.probed 250#32 oneBar allSucceeds).err = -enomsg ↔
      plugged.bound.length = maxdevices.toNat) := by
  have files : ¬FileFails allSucceeds := by
    intro present
    rcases present with ⟨attr, -, fails⟩
    exact Bool.false_ne_true fails.symm
  have fits : ∀ plugged : Plugged, plugged.deviceCount.toNat < maxdevices.toNat →
      CountFits plugged (.probe oneBar allSucceeds) :=
    fun plugged room _ => Or.inl ⟨room, fun fails => files fails.2.2⟩
  let one := nothingPlugged.plug 250#32 oneBar allSucceeds
  let two := one.plug 250#32 oneBar allSucceeds
  let removed := two.unplug (mkdev 250#32 0#32)
  have first : (plugSystem 250#32).ReachableUnder CountFits one :=
    .next (.start ⟨rfl, rfl⟩) (fits nothingPlugged (by decide)) rfl
  have second : (plugSystem 250#32).ReachableUnder CountFits two :=
    first.next (fits one (by decide)) rfl
  have left : (plugSystem 250#32).step two (.remove (mkdev 250#32 0#32)) = some removed := rfl
  have remove : CountFits two (.remove (mkdev 250#32 0#32)) := trivial
  have third : (plugSystem 250#32).ReachableUnder CountFits
      (removed.plug 250#32 oneBar allSucceeds) :=
    (second.next remove left).next (fits removed (by decide)) rfl
  have correct := device_numbers_stay_correct 250#32 third
  exact ⟨_, third, by decide, correct.1, correct.2 oneBar allSucceeds
    ⟨by decide, by decide, by decide⟩ (fits _ (by decide)) (Or.inl rfl)⟩

/-- Four devices are bound and one of them is removed; the next one is refused. -/
theorem replugged_device_refused :
    ∃ plugged, (plugSystem 250#32).Reachable plugged ∧ plugged.bound.length = 3 ∧
      ¬((plugged.probed 250#32 oneBar allSucceeds).err = -enomsg ↔
        plugged.bound.length = maxdevices.toNat) := by
  let plug := PlugAction.probe oneBar allSucceeds
  have run : (plugSystem 250#32).runFrom nothingPlugged
      [plug, plug, plug, plug, .remove (mkdev 250#32 2#32)] =
        some ⟨4#32, [mkdev 250#32 0#32, mkdev 250#32 1#32, mkdev 250#32 3#32]⟩ := rfl
  refine ⟨_, System.reachable_of_run _ (.start ⟨rfl, rfl⟩) (fun _ _ _ => trivial) run, rfl, ?_⟩
  decide

end FpgaPcie.Driver.Resources
