import FpgaPcie.Driver.Interface
import FpgaPcie.Lib.Serial

/-!
# The frequency synthesizer

`set` programs the synthesizer through its three-wire interface. A field is sent from its most
significant bit on. The waiting times between the edges are left out.
-/

namespace FpgaPcie.Mprace.ICS8430I

open FpgaPcie.Serial

set_option autoImplicit false

inductive Pin where
  | sClock
  | sData
  | sLoad
  deriving DecidableEq, Repr

def wiring : Wiring Pin where
  clock := .sClock
  data := .sData
  load := .sLoad
  data_clock := by decide
  load_clock := by decide
  data_load := by decide

/-- What was written to the pins, the oldest first, and the settings that are kept. -/
structure Synthesizer where
  drives : List (Drive Pin)
  m : U32
  n : U32
  deriving Repr

namespace Pin

def write (pin : Pin) (level : Bool) (device : Synthesizer) : Synthesizer :=
  { device with drives := device.drives ++ [(pin, level)] }

def set (pin : Pin) : Synthesizer → Synthesizer := pin.write true

def clear (pin : Pin) : Synthesizer → Synthesizer := pin.write false

end Pin

def sendBit (temp : U32) (device : Synthesizer) : Synthesizer :=
  let put := if temp &&& 0x80000000 ≠ 0 then Pin.sData.set device else Pin.sData.clear device
  Pin.sClock.clear (Pin.sClock.set put)

def sendLoop : ℕ → U32 → Synthesizer → Synthesizer
  | 0, _, device => device
  | count + 1, temp, device => sendLoop count (temp <<< 1) (sendBit temp device)

/-- The counter `i` is compared with `width-1` as an unsigned number. -/
def sendBits (width value : U32) : Synthesizer → Synthesizer :=
  sendLoop (width - 1).toNat (value <<< (32 - width).toNat)

def set (T M N : U32) (device : Synthesizer) : Synthesizer :=
  let cleared := Pin.sLoad.clear (Pin.sClock.clear device)
  let sent := sendBits 8 M (sendBits 3 N (sendBits 2 T cleared))
  let pulsed := Pin.sLoad.clear (Pin.sLoad.set sent)
  { pulsed with m := M, n := N }

def field (width : ℕ) (value : U32) : List Bool :=
  (List.range width).map fun k => value.getLsbD (width - 1 - k)

theorem top_bit (temp : U32) : temp &&& 0x80000000 ≠ 0 ↔ temp.getMsbD 0 = true := by
  have mask : (0x80000000 : U32) = BitVec.twoPow 32 31 := rfl
  have bit : temp.getMsbD 0 = temp.getLsbD 31 := by simp [BitVec.getMsbD_eq_getLsbD]
  rw [mask, BitVec.and_twoPow, bit]
  cases temp.getLsbD 31 <;> simp

theorem send_bit_drives (temp : U32) (device : Synthesizer) :
    (sendBit temp device).drives = device.drives ++ bitDrives wiring (temp.getMsbD 0) := by
  unfold sendBit
  simp only [top_bit]
  cases temp.getMsbD 0 <;>
    simp [Pin.set, Pin.clear, Pin.write, bitDrives, wiring]

theorem send_loop_drives (count : ℕ) (temp : U32) (device : Synthesizer) :
    (sendLoop count temp device).drives =
      device.drives ++ ((List.range count).map temp.getMsbD).flatMap (bitDrives wiring) := by
  induction count generalizing temp device with
  | zero => simp [sendLoop]
  | succ count ih =>
      have later : (temp <<< 1).getMsbD = fun k => temp.getMsbD (k + 1) := by
        funext k
        exact BitVec.getMsbD_shiftLeft temp 1
      rw [sendLoop, ih, send_bit_drives, later, List.range_succ_eq_map, List.map_cons,
        List.map_map, List.flatMap_cons, List.append_assoc]
      rfl

theorem send_bits_drives {width : U32} (some_ : 1 ≤ width.toNat) (small : width.toNat ≤ 32)
    (value : U32) (device : Synthesizer) :
    (sendBits width value device).drives =
      device.drives ++ (field width.toNat value).dropLast.flatMap (bitDrives wiring) := by
  have one : (1 : U32).toNat = 1 := rfl
  have word : (32 : U32).toNat = 32 := rfl
  have count : (width - 1).toNat = width.toNat - 1 := by
    rw [BitVec.toNat_sub_of_le (by rw [BitVec.le_def, one]; exact some_), one]
  have shift : (32 - width).toNat = 32 - width.toNat := by
    rw [BitVec.toNat_sub_of_le (by rw [BitVec.le_def, word]; exact small), word]
  have bits : (List.range (width.toNat - 1)).map (value <<< (32 - width.toNat)).getMsbD =
      (field width.toNat value).dropLast := by
    obtain ⟨last, own⟩ : ∃ last, width.toNat = last + 1 := ⟨width.toNat - 1, by omega⟩
    unfold field
    rw [own, List.range_succ, List.map_append, List.map_singleton, List.dropLast_concat]
    apply List.map_congr_left
    intro k member
    have inside := List.mem_range.mp member
    rw [BitVec.getMsbD_shiftLeft, BitVec.getMsbD_eq_getLsbD, decide_eq_true (by omega),
      Bool.true_and]
    congr 1
    omega
  unfold sendBits
  rw [send_loop_drives, count, shift, bits]

theorem field_length (width : ℕ) (value : U32) : (field width value).length = width := by
  rw [field, List.length_map, List.length_range]

section Shifted

variable (levels : Levels Pin) (device : Synthesizer)

/-- What the chip has done since power-up, when the pins were at `levels`. -/
def shifted : List Seen := seen wiring levels device.drives

/-- `sendBits` clocks the field in, the most significant bit first. -/
def SendsField (width value : U32) : Prop :=
  shifted levels (sendBits width value device) =
    shifted levels device ++ (field width.toNat value).map .shift

/-- `set` clocks in T1 to T0, N2 to N0 and M8 to M0 and then loads them. -/
def SetsFields (T M N : U32) : Prop :=
  shifted levels (set T M N device) =
    shifted levels device ++ ((field 2 T ++ field 3 N ++ field 9 M).map .shift ++ [.load])

variable {levels device}

/-- What `sendBits` really clocks in. With a clock that was high there is no first edge. -/
theorem send_bits_shifted {width : U32} (some_ : 1 ≤ width.toNat) (small : width.toNat ≤ 32)
    (value : U32) : shifted levels (sendBits width value device) =
      shifted levels device ++
        (if settled levels device.drives .sClock then (field width.toNat value).dropLast.tail
          else (field width.toNat value).dropLast).map .shift := by
  unfold shifted
  rw [send_bits_drives some_ small, seen_append, seen_bits]
  rfl

/-- The bits that `set` really sends: T1, N2, N1 and M7 to M1. -/
def sentBits (T M N : U32) : List Bool :=
  (field 2 T).dropLast ++ (field 3 N).dropLast ++ (field 8 M).dropLast

variable (device) in
/-- The clock and the load wire are low before the first bit. -/
def clearedDrives : List (Drive Pin) := device.drives ++ [(.sClock, false)] ++ [(.sLoad, false)]

theorem cleared_clock : settled levels (clearedDrives device) wiring.clock = false := by
  unfold clearedDrives
  rw [settled_append, settled_other _ (by simp [wiring])]
  exact settled_low levels device.drives .sClock

theorem cleared_load : settled levels (clearedDrives device) wiring.load = false :=
  settled_low levels (device.drives ++ [(.sClock, false)]) Pin.sLoad

theorem cleared_shifted : seen wiring levels (clearedDrives device) = shifted levels device := by
  unfold clearedDrives
  rw [seen_append, seen_append, seen_low, seen_low, List.append_nil, List.append_nil]
  rfl

theorem set_drives (T M N : U32) : (set T M N device).drives = clearedDrives device ++
    ((sentBits T M N).flatMap (bitDrives wiring) ++ pulseDrives wiring) := by
  unfold set Pin.set Pin.clear Pin.write sentBits clearedDrives
  simp only [send_bits_drives (show 1 ≤ (8 : U32).toNat by decide) (by decide),
    send_bits_drives (show 1 ≤ (3 : U32).toNat by decide) (by decide),
    send_bits_drives (show 1 ≤ (2 : U32).toNat by decide) (by decide),
    List.flatMap_append, List.append_assoc]
  rfl

theorem set_shifted (T M N : U32) : shifted levels (set T M N device) =
    shifted levels device ++ ((sentBits T M N).map .shift ++ [.load]) := by
  have bits := seen_bits wiring (settled levels (clearedDrives device)) (sentBits T M N)
  have load := (settled_bits_load wiring (settled levels (clearedDrives device))
    (sentBits T M N)).trans cleared_load
  rw [cleared_clock] at bits
  unfold shifted
  rw [set_drives, seen_append, cleared_shifted, seen_append, bits, seen_pulse wiring _ load]
  rfl

end Shifted

/-- Each field lacks its last bit, and the one for M its first bit as well. -/
theorem fields_cut_short (levels : Levels Pin) (device : Synthesizer) {width : U32}
    (some_ : 1 ≤ width.toNat) (small : width.toNat ≤ 32) (value T M N : U32) :
    ¬SendsField levels device width value ∧ ¬SetsFields levels device T M N := by
  constructor
  · intro sends
    have bits := field_length width.toNat value
    have lengths := congrArg List.length sends
    rw [send_bits_shifted some_ small, List.length_append, List.length_append, List.length_map,
      List.length_map] at lengths
    split at lengths
    · rw [List.length_tail, List.length_dropLast] at lengths
      omega
    · rw [List.length_dropLast] at lengths
      omega
  · intro sets
    have lengths := congrArg List.length sets
    rw [set_shifted] at lengths
    simp [sentBits, field_length] at lengths

theorem fields_cut_short_byte :
    ¬SendsField (fun _ => false) ⟨[], 0, 0⟩ 8 0xA5 ∧
      ¬SetsFields (fun _ => false) ⟨[], 0, 0⟩ 1 300 2 :=
  fields_cut_short (fun _ => false) ⟨[], 0, 0⟩ (by decide) (by decide) 0xA5 1 300 2

theorem divider_half_sent :
    ¬SendsField (fun _ => false) ⟨[], 0, 0⟩ 3 5 ∧
      ¬SetsFields (fun _ => false) ⟨[], 0, 0⟩ 1 300 5 := by
  unfold SendsField SetsFields
  decide

end FpgaPcie.Mprace.ICS8430I
