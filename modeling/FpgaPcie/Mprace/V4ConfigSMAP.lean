import FpgaPcie.Driver.Interface
import FpgaPcie.Lib.Ram
import FpgaPcie.Lib.TextStream
import Mathlib.Tactic.IntervalCases

/-!
# Reading an RBT bitstream

`config` takes the number of bits from the seventh line of the file, allocates that many bits
and writes four bytes for each further line it gets.
-/

namespace FpgaPcie.Mprace.V4ConfigSMAP

open FpgaPcie.TextStream FpgaPcie.TextPage

set_option autoImplicit false

def isSpace (character : Char) : Bool :=
  character = ' ' || (9 ≤ character.toNat && character.toNat ≤ 13)

/-- A number out of range is stored as the closest `int`. -/
def saturated (value : ℤ) : ℤ := max (-2 ^ 31) (min value (2 ^ 31 - 1))

/-- `itmp_str >> bits`. `none` is a variable left as it was. -/
def extractInt (text : List Char) : Option ℤ :=
  let behind := text.dropWhile isSpace
  if behind = [] then none
  else
    let negative := behind.head? = some '-'
    let unsigned := if negative ∨ behind.head? = some '+' then behind.tail else behind
    let magnitude : ℤ := Nat.ofDigitChars 10 (unsigned.takeWhile Char.isDigit) 0
    some (saturated (if negative then -magnitude else magnitude))

/-- Without a tab the stream is put to position -1 and fails. -/
def bitCount (tmpStr : List Char) : Option ℤ :=
  match tmpStr.dropWhile (· ≠ '\t') with
  | [] => none
  | text => extractInt text

def byteHH (val : U32) : U8 := (val.sshiftRight 24 &&& 0xFF).setWidth 8
def byteLH (val : U32) : U8 := (val.sshiftRight 16 &&& 0xFF).setWidth 8
def byteHL (val : U32) : U8 := (val.sshiftRight 8 &&& 0xFF).setWidth 8
def byteLL (val : U32) : U8 := (val &&& 0xFF).setWidth 8

/-- The loop over a line. The `int` wraps. -/
def lineValue (bitline : List Char) : U32 :=
  bitline.foldl (fun val character =>
    let shifted := val <<< 1
    if character = '1' then shifted + 1 else shifted) 0

/-- The `int` `pos`, and what was written to `bitstream`. -/
structure Fill where
  pos : U32
  writes : List (Ram.Store ℤ U8)
  deriving Repr

def Fill.push (fill : Fill) (value : U8) : Fill :=
  ⟨fill.pos + 1, fill.writes ++ [(fill.pos.toInt, value)]⟩

def fillLine (fill : Fill) (bitline : List Char) : Fill :=
  let val := lineValue (cString bitline)
  (((fill.push (byteHH val)).push (byteLH val)).push (byteHL val)).push (byteLL val)

/-- `undefined` is the use of an `int` that was never set. -/
inductive Outcome where
  | otherType
  | undefined
  | loaded (count : U32) (writes : List (Ram.Store ℤ U8))
  deriving Repr

def signature : List Char := "Xilinx ASCII Bitstream".toList

def config (file : List Char) : Outcome :=
  let str := getline 23 (opened file)
  if cString str.1 ≠ signature then .otherType
  else
    let header1 := getline 256 (seekStart file str.2)
    let bitstreamVersion := getline 256 header1.2
    let designName := getline 256 bitstreamVersion.2
    let archName := getline 256 designName.2
    let partName := getline 256 archName.2
    let dateStr := getline 256 partName.2
    let bitSize := getline 256 dateStr.2
    match bitCount (cString bitSize.1) with
    | none => .undefined
    | some bits =>
        .loaded (BitVec.ofInt 32 (bits.tdiv 8)) (eachLine 256 fillLine bitSize.2 ⟨0, []⟩).writes

def wordWrites (i : ℕ) (val : U32) : List (Ram.Store ℤ U8) :=
  [((4 * i : ℕ), byteHH val), ((4 * i + 1 : ℕ), byteLH val), ((4 * i + 2 : ℕ), byteHL val),
    ((4 * i + 3 : ℕ), byteLL val)]

def linesWrites (first : ℕ) (lines : List (List Char)) : List (Ram.Store ℤ U8) :=
  (lines.zipIdx first).flatMap fun numbered =>
    wordWrites numbered.2 (lineValue (cString numbered.1))

theorem push_at {fill : Fill} {k : ℕ} (here : fill.pos.toNat = k) (small : k < 2 ^ 31)
    (value : U8) : (fill.push value).pos.toNat = k + 1 ∧
      (fill.push value).writes = fill.writes ++ [((k : ℤ), value)] := by
  have one : (1 : U32).toNat = 1 := rfl
  have index : fill.pos.toInt = k := by
    rw [BitVec.toInt_eq_toNat_of_lt (by omega), here]
  unfold Fill.push
  constructor
  · rw [BitVec.toNat_add, here, one]
    omega
  · rw [index]

theorem fill_line {fill : Fill} {i : ℕ} (here : fill.pos.toNat = 4 * i) (small : 4 * i + 3 < 2 ^ 31)
    (bitline : List Char) : (fillLine fill bitline).pos.toNat = 4 * (i + 1) ∧
      (fillLine fill bitline).writes =
        fill.writes ++ wordWrites i (lineValue (cString bitline)) := by
  have high := push_at here (by omega) (byteHH (lineValue (cString bitline)))
  have second := push_at high.1 (by omega) (byteLH (lineValue (cString bitline)))
  have third := push_at second.1 (by omega) (byteHL (lineValue (cString bitline)))
  have low := push_at third.1 small (byteLL (lineValue (cString bitline)))
  constructor
  · exact low.1
  · refine low.2.trans ?_
    rw [third.2, second.2, high.2, List.append_assoc, List.append_assoc, List.append_assoc]
    rfl

theorem fill_lines {fill : Fill} {i : ℕ} {lines : List (List Char)}
    (here : fill.pos.toNat = 4 * i) (small : 4 * (i + lines.length) ≤ 2 ^ 31) :
    (lines.foldl fillLine fill).writes = fill.writes ++ linesWrites i lines := by
  induction lines generalizing fill i with
  | nil => simp [linesWrites]
  | cons line lines ih =>
      rw [List.length_cons] at small
      obtain ⟨next, written⟩ := fill_line here (by omega) line
      rw [List.foldl_cons, ih next (by omega), written, List.append_assoc]
      rfl

theorem fill_keeps (fill : Fill) (lines : List (List Char)) :
    fill.writes <+: (lines.foldl fillLine fill).writes := by
  induction lines generalizing fill with
  | nil => exact List.prefix_refl _
  | cons line lines ih =>
      have first : fill.writes <+: (fillLine fill line).writes := by
        simp [fillLine, Fill.push]
      exact first.trans (ih (fillLine fill line))

theorem word_writes_inside {i : ℕ} {val : U32} {write : Ram.Store ℤ U8}
    (member : write ∈ wordWrites i val) : 4 * i ≤ write.1 ∧ write.1 < 4 * (i + 1) := by
  simp only [wordWrites, List.mem_cons, List.not_mem_nil, or_false] at member
  rcases member with rfl | rfl | rfl | rfl <;> constructor <;> simp <;> omega

theorem lines_writes_inside {first : ℕ} {lines : List (List Char)} {write : Ram.Store ℤ U8}
    (member : write ∈ linesWrites first lines) :
    0 ≤ write.1 ∧ write.1 < 4 * (first + lines.length : ℕ) := by
  obtain ⟨numbered, own, inside⟩ := List.mem_flatMap.mp member
  have below := List.snd_lt_add_of_mem_zipIdx own
  have range := word_writes_inside inside
  omega

theorem lines_writes_keys (first : ℕ) (lines : List (List Char)) :
    (linesWrites first lines).map Prod.fst =
      (List.range' (4 * first) (4 * lines.length)).map Nat.cast := by
  induction lines generalizing first with
  | nil => rfl
  | cons line lines ih =>
      have four : 4 * (lines.length + 1) = 4 + 4 * lines.length := by omega
      have rest := ih (first + 1)
      have word : (wordWrites first (lineValue (cString line))).map Prod.fst =
          (List.range' (4 * first) 4).map Nat.cast := rfl
      rw [List.length_cons, four, ← List.range'_append_1, List.map_append, ← word]
      unfold linesWrites at rest ⊢
      rw [List.zipIdx_cons, List.flatMap_cons, List.map_append, rest]
      rfl

theorem lines_writes_distinct (first : ℕ) (lines : List (List Char)) :
    ((linesWrites first lines).map Prod.fst).Nodup := by
  rw [lines_writes_keys]
  exact List.Nodup.map Nat.cast_injective List.nodup_range'

def digit (word : U32) (k : ℕ) : Char := if word.getMsbD k then '1' else '0'

def spelled (word : U32) : List Char := (List.range 32).map (digit word)

/-- Byte `j` of a word, the most significant one first. -/
def bigEndian (word : U32) (j : ℕ) : U8 := word.extractLsb' (24 - 8 * j) 8

theorem line_value_digit (line : List Char) (word : U32) (k : ℕ) :
    lineValue (line ++ [digit word k]) =
      (lineValue line <<< 1) + (if word.getMsbD k then 1 else 0) := by
  unfold lineValue digit
  rw [List.foldl_append, List.foldl_cons, List.foldl_nil]
  cases word.getMsbD k <;> simp

/-- Behind `k` characters the value is what stands in front of the other bits. -/
theorem line_value_front (word : U32) {k : ℕ} (inside : k ≤ 32) :
    (lineValue ((List.range k).map (digit word))).toNat = word.toNat / 2 ^ (32 - k) := by
  have bound := word.isLt
  induction k with
  | zero => simp [lineValue, Nat.div_eq_of_lt bound]
  | succ k ih =>
      have before := ih (by omega)
      have power : 32 - k = 31 - k + 1 := by omega
      have later : 32 - (k + 1) = 31 - k := by omega
      have bit : word.getMsbD k = decide (word.toNat / 2 ^ (31 - k) % 2 = 1) := by
        rw [BitVec.getMsbD_eq_getLsbD, decide_eq_true (by omega), Bool.true_and,
          BitVec.getLsbD, Nat.testBit_eq_decide_div_mod_eq]
      have half : word.toNat / 2 ^ (31 - k + 1) = word.toNat / 2 ^ (31 - k) / 2 := by
        rw [Nat.pow_succ, Nat.div_div_eq_div_mul]
      have small : word.toNat / 2 ^ (31 - k) < 2 ^ 32 :=
        Nat.lt_of_le_of_lt (Nat.div_le_self _ _) bound
      rw [power, half] at before
      rw [List.range_succ, List.map_append, List.map_singleton, line_value_digit, later,
        BitVec.toNat_add, BitVec.toNat_shiftLeft, before, bit, Nat.shiftLeft_eq]
      have one : (1 : U32).toNat = 1 := rfl
      have zero : (0 : U32).toNat = 0 := rfl
      generalize word.toNat / 2 ^ (31 - k) = front at small ⊢
      by_cases odd : front % 2 = 1
      · rw [decide_eq_true odd, if_pos rfl, one]
        omega
      · rw [decide_eq_false odd, if_neg Bool.false_ne_true, zero]
        omega

theorem line_value_spelled (word : U32) : lineValue (cString (spelled word)) = word := by
  have plain : cString (spelled word) = (List.range 32).map (digit word) := by
    apply List.takeWhile_eq_self_iff.mpr
    intro character member
    obtain ⟨k, -, rfl⟩ := List.mem_map.mp member
    unfold digit
    cases word.getMsbD k <;> decide
  apply BitVec.eq_of_toNat_eq
  rw [plain, line_value_front word (Nat.le_refl 32), Nat.sub_self, Nat.pow_zero, Nat.div_one]

theorem byte_of_shift (word : U32) {shift : ℕ} (inside : shift ≤ 24) :
    (word.sshiftRight shift &&& 0xFF).setWidth 8 = word.extractLsb' shift 8 := by
  apply BitVec.eq_of_getLsbD_eq
  intro i below
  have mask : (0xFF : U32).getLsbD i = true := by interval_cases i <;> rfl
  have own : ¬32 ≤ i := by omega
  have word_ : shift + i < 32 := by omega
  rw [BitVec.getLsbD_setWidth, BitVec.getLsbD_and, BitVec.getLsbD_sshiftRight,
    BitVec.getLsbD_extractLsb', mask]
  simp [own, word_, below]

theorem bytes_big_endian (word : U32) : byteHH word = bigEndian word 0 ∧
    byteLH word = bigEndian word 1 ∧ byteHL word = bigEndian word 2 ∧
      byteLL word = bigEndian word 3 := by
  have low := byte_of_shift word (Nat.zero_le 24)
  rw [BitVec.sshiftRight_zero] at low
  exact ⟨byte_of_shift word (by decide), byte_of_shift word (by decide),
    byte_of_shift word (by decide), low⟩

section Announced

variable {label digits : List Char}

theorem digit_not_low {character low : Char} (decimal : character.isDigit = true)
    (below : low.toNat < 48) : character ≠ low := by
  intro same
  subst same
  exact Nat.not_lt.mpr (Char.isDigit_iff_toNat.mp decimal).1 below

theorem digit_not_space {character : Char} (decimal : character.isDigit = true) :
    isSpace character = false := by
  have range : 48 ≤ character.toNat := (Char.isDigit_iff_toNat.mp decimal).1
  have blank := @digit_not_low character ' ' decimal (by decide)
  simp only [isSpace, blank, decide_false, Bool.false_or, Bool.and_eq_false_iff,
    decide_eq_false_iff_not]
  omega

theorem bit_count_announced (labelled : '\t' ∉ label) (decimal : ∀ c ∈ digits, c.isDigit = true) :
    bitCount (label ++ '\t' :: digits) =
      if digits = [] then none else some (saturated (Nat.ofDigitChars 10 digits 0 : ℕ)) := by
  have dropped : (label ++ '\t' :: digits).dropWhile (· ≠ '\t') = '\t' :: digits := by
    rw [List.dropWhile_append_of_pos]
    · simp
    · intro character member
      exact decide_eq_true fun same => labelled (same ▸ member)
  have taken : digits.takeWhile Char.isDigit = digits := List.takeWhile_eq_self_iff.mpr decimal
  have plain : ('\t' :: digits).dropWhile isSpace = digits := by
    rw [List.dropWhile_cons_of_pos (by decide)]
    cases digits with
    | nil => rfl
    | cons first rest =>
        have own := digit_not_space (decimal first List.mem_cons_self)
        rw [List.dropWhile_cons_of_neg (by simp [own])]
  unfold bitCount
  rw [dropped]
  unfold extractInt
  simp only [plain]
  cases digits with
  | nil => rfl
  | cons first rest =>
      have own := decimal first List.mem_cons_self
      have minus := @digit_not_low first '-' own (by decide)
      have plus := @digit_not_low first '+' own (by decide)
      simp [minus, plus, taken]

theorem no_tab_no_count (missing : '\t' ∉ label) : bitCount label = none := by
  have dropped : label.dropWhile (· ≠ '\t') = [] := by
    apply List.dropWhile_eq_nil_iff.mpr
    intro character member
    exact decide_eq_true fun same => missing (same ▸ member)
  unfold bitCount
  rw [dropped]

theorem cut_number (digits : List Char) {k : ℕ} (cut : k < digits.length) :
    10 * Nat.ofDigitChars 10 (digits.take k) 0 ≤ Nat.ofDigitChars 10 digits 0 := by
  obtain ⟨more, length⟩ : ∃ more, (digits.drop k).length = more + 1 :=
    ⟨digits.length - k - 1, by rw [List.length_drop]; omega⟩
  have whole : Nat.ofDigitChars 10 digits 0 =
      10 ^ (more + 1) * Nat.ofDigitChars 10 (digits.take k) 0 +
        Nat.ofDigitChars 10 (digits.drop k) 0 := by
    rw [← length, ← Nat.ofDigitChars_eq_ofDigitChars_zero, ← Nat.ofDigitChars_append,
      List.take_append_drop]
  have power : 10 ≤ 10 ^ (more + 1) := Nat.le_self_pow (Nat.succ_ne_zero more) 10
  rw [whole]
  exact Nat.le_add_right_of_le (Nat.mul_le_mul_right _ power)

theorem count_of_number (number : ℕ) :
    (BitVec.ofInt 32 ((saturated number).tdiv 8)).toNat = min number (2 ^ 31 - 1) / 8 := by
  have within : saturated number = (min number (2 ^ 31 - 1) : ℕ) := by
    unfold saturated
    omega
  have divided : ((min number (2 ^ 31 - 1) : ℕ) : ℤ).tdiv 8 =
      ((min number (2 ^ 31 - 1) / 8 : ℕ) : ℤ) := rfl
  rw [within, divided, BitVec.ofInt_natCast, BitVec.toNat_ofNat]
  omega

end Announced

/-- A file with the seven header lines of the format. The seventh announces the bits behind a
tab. What follows may be any text. -/
structure RbtFile where
  bitstreamVersion : List Char
  designName : List Char
  archName : List Char
  partName : List Char
  dateStr : List Char
  label : List Char
  bits : ℕ
  rest : List Char
  single : ∀ line ∈ [bitstreamVersion, designName, archName, partName, dateStr, label],
    '\n' ∉ line
  labelled : '\t' ∉ label ∧ nul ∉ label
  whole : 32 ∣ bits

namespace RbtFile

variable (file : RbtFile)

def bitSize : List Char := file.label ++ '\t' :: Nat.toDigits 10 file.bits

def front : List (List Char) :=
  [signature, file.bitstreamVersion, file.designName, file.archName, file.partName, file.dateStr]

def header : List (List Char) := file.front ++ [file.bitSize]

def text : List Char := joined file.header file.rest

def lines : List (List Char) := delivered 256 file.rest

end RbtFile

/-- The array has a byte for each eight bits, nothing is written outside of it, and lines that
spell words leave the bytes of the words. -/
structure Decodes (file : RbtFile) (count : U32) (writes : List (Ram.Store ℤ U8)) : Prop where
  outcome : config file.text = .loaded count writes
  sized : count.toNat = file.bits / 8
  bounded : ∀ write ∈ writes, 0 ≤ write.1 ∧ write.1 < count.toNat
  spells : ∀ words : List U32, textLines file.rest = words.map spelled →
    words.length = file.bits / 32 → ∀ (before : ℤ → U8) (i : ℕ) (inside : i < words.length),
      ∀ j < 4, Ram.contents writes before ((4 * i + j : ℕ) : ℤ) = bigEndian words[i] j

section File

variable {file : RbtFile}

theorem front_single : ∀ line ∈ file.front, '\n' ∉ line := by
  have single := file.single
  have own : '\n' ∉ signature := by decide
  simp only [List.mem_cons, List.not_mem_nil, or_false, forall_eq_or_imp, forall_eq] at single
  simp only [RbtFile.front, List.mem_cons, List.not_mem_nil, or_false, forall_eq_or_imp, forall_eq]
  exact ⟨own, single.1, single.2.1, single.2.2.1, single.2.2.2.1, single.2.2.2.2.1⟩

theorem decimal_digits (number : ℕ) : ∀ c ∈ Nat.toDigits 10 number, c.isDigit = true :=
  fun _ member => Nat.isDigit_of_mem_toDigits (by decide) (by decide) member

theorem bit_size_lacks {character : Char} (label : character ∉ file.label)
    (tab : character ≠ '\t') (low : character.toNat < 48) : character ∉ file.bitSize := by
  intro member
  rcases List.mem_append.mp member with front | behind
  · exact label front
  · rcases List.mem_cons.mp behind with here | digit
    · exact tab here
    · exact digit_not_low (decimal_digits file.bits character digit) low rfl

theorem bit_size_single : '\n' ∉ file.bitSize :=
  bit_size_lacks (file.single file.label (by simp)) (by decide) (by decide)

theorem bit_size_string {stored : List Char} (cut : stored <+: file.bitSize) :
    cString stored = stored := by
  have plain : nul ∉ file.bitSize := bit_size_lacks file.labelled.2 (by decide) (by decide)
  apply List.takeWhile_eq_self_iff.mpr
  intro character member
  exact decide_eq_true fun same => plain (same ▸ cut.subset member)

/-- The first line is recognised, and the file is read again from its start. -/
theorem config_header : config file.text =
    let bitSize := getline 256 (behind 256 6 (opened file.text))
    match bitCount (cString bitSize.1) with
    | none => .undefined
    | some bits =>
        .loaded (BitVec.ofInt 32 (bits.tdiv 8))
          (eachLine 256 fillLine bitSize.2 ⟨0, []⟩).writes := by
  have own : '\n' ∉ signature := by decide
  have first := @getline_short 23 signature (joined (file.header.drop 1) file.rest) own (by decide)
  have text : file.text = signature ++ '\n' :: joined (file.header.drop 1) file.rest := rfl
  have recognised : cString signature = signature := by decide
  have again : seekStart file.text (opened (joined (file.header.drop 1) file.rest)) =
      opened file.text := rfl
  unfold config
  rw [text, first, ← text]
  simp only [recognised, ne_eq, not_true, if_false, again, behind]

theorem text_front : file.text = joined file.front (joined [file.bitSize] file.rest) := by
  unfold RbtFile.text RbtFile.header joined
  rw [List.foldr_append]

theorem config_front_long (long : ∃ line ∈ file.front, 256 ≤ line.length) :
    config file.text = .undefined := by
  have failed := behind_long front_single long (joined [file.bitSize] file.rest)
  rw [← text_front] at failed
  have unread : (getline 256 (behind 256 6 (opened file.text))).1 = [] :=
    congrArg Prod.fst (getline_failed failed)
  rw [config_header]
  simp only [unread]
  rfl

theorem config_front_short (short : ∀ line ∈ file.front, line.length < 256) :
    config file.text =
      let bitSize := getline 256 (opened (file.bitSize ++ '\n' :: file.rest))
      match bitCount (cString bitSize.1) with
      | none => .undefined
      | some bits =>
          .loaded (BitVec.ofInt 32 (bits.tdiv 8))
            (eachLine 256 fillLine bitSize.2 ⟨0, []⟩).writes := by
  have reached := behind_short front_single short (joined [file.bitSize] file.rest)
  have here : behind 256 6 (opened file.text) = opened (file.bitSize ++ '\n' :: file.rest) := by
    rw [text_front]
    exact reached
  rw [config_header, here]

theorem config_read (short : ∀ line ∈ file.header, line.length < 256) :
    ∃ count : U32, count.toNat = min file.bits (2 ^ 31 - 1) / 8 ∧
      config file.text = .loaded count (file.lines.foldl fillLine ⟨0, []⟩).writes := by
  have front : ∀ line ∈ file.front, line.length < 256 :=
    fun line member => short line (List.mem_append_left _ member)
  have last := short file.bitSize (List.mem_append_right _ List.mem_cons_self)
  have string := bit_size_string (List.prefix_refl file.bitSize)
  have number : bitCount file.bitSize = some (saturated file.bits) := by
    unfold RbtFile.bitSize
    rw [bit_count_announced file.labelled.1 (decimal_digits file.bits),
      if_neg Nat.toDigits_ne_nil, Nat.ofDigitChars_toDigits (by decide) (by decide)]
  refine ⟨_, count_of_number file.bits, ?_⟩
  rw [config_front_short front, getline_short bit_size_single last]
  simp only [string, number, each_line_delivered]
  rfl

theorem cut_bit_size (long : 256 ≤ file.bitSize.length) :
    bitCount (file.bitSize.take 255) = none ∨ ∃ number : ℕ,
      bitCount (file.bitSize.take 255) = some (saturated number) ∧ 10 * number ≤ file.bits ∧
        0 < file.bits := by
  have length : file.bitSize.length =
      file.label.length + ((Nat.toDigits 10 file.bits).length + 1) := by
    rw [RbtFile.bitSize, List.length_append, List.length_cons]
  by_cases tab : file.label.length < 255
  · obtain ⟨k, room⟩ : ∃ k, 255 - file.label.length = k + 1 := ⟨254 - file.label.length, by omega⟩
    have cut : k < (Nat.toDigits 10 file.bits).length := by omega
    have taken : file.bitSize.take 255 =
        file.label ++ '\t' :: (Nat.toDigits 10 file.bits).take k := by
      rw [RbtFile.bitSize, List.take_append, List.take_of_length_le (Nat.le_of_lt tab), room,
        List.take_succ_cons]
    have number := cut_number (Nat.toDigits 10 file.bits) cut
    rw [Nat.ofDigitChars_toDigits (by decide) (by decide)] at number
    rw [taken, bit_count_announced file.labelled.1 (fun digit member =>
      decimal_digits file.bits digit (List.mem_of_mem_take member))]
    split
    · exact Or.inl rfl
    · rename_i some_
      refine Or.inr ⟨_, rfl, number, ?_⟩
      by_contra zero
      rw [Nat.eq_zero_of_not_pos zero, Nat.toDigits_zero] at cut some_
      have none_ : k = 0 := Nat.lt_one_iff.mp cut
      rw [none_] at some_
      exact some_ rfl
  · have taken : file.bitSize.take 255 = file.label.take 255 := by
      rw [RbtFile.bitSize, List.take_append_of_le_length (Nat.not_lt.mp tab)]
    rw [taken]
    exact Or.inl (no_tab_no_count fun member => file.labelled.1 (List.mem_of_mem_take member))

/-- A number that does not fit its line is not the one announced. -/
theorem config_cut (front : ∀ line ∈ file.front, line.length < 256)
    (long : 256 ≤ file.bitSize.length) {count : U32} {writes : List (Ram.Store ℤ U8)}
    (outcome : config file.text = .loaded count writes) : count.toNat ≠ file.bits / 8 := by
  have stored := (@getline_long 256 file.bitSize file.rest bit_size_single long).1
  have string := bit_size_string (List.take_prefix 255 file.bitSize)
  have words := Nat.div_mul_cancel file.whole
  rw [config_front_short front] at outcome
  simp only [stored, Nat.add_one_sub_one, string] at outcome
  rcases cut_bit_size long with none_ | ⟨number, own, tenth, positive⟩
  · rw [none_] at outcome
    cases outcome
  · rw [own] at outcome
    cases outcome
    rw [count_of_number]
    omega

theorem surplus_line_outside {lines : List (List Char)} {m : ℕ} (small : 4 * (m + 1) ≤ 2 ^ 31)
    (surplus : m < lines.length) :
    ∃ write ∈ (lines.foldl fillLine ⟨0, []⟩).writes, write.1 = (4 * m : ℕ) := by
  have front := @fill_lines ⟨0, []⟩ 0 (lines.take (m + 1)) rfl (by
    rw [List.length_take]
    omega)
  have kept := fill_keeps ((lines.take (m + 1)).foldl fillLine ⟨0, []⟩) (lines.drop (m + 1))
  have there : (((4 * m : ℕ) : ℤ), byteHH (lineValue (cString lines[m]))) ∈
      linesWrites 0 (lines.take (m + 1)) := by
    apply List.mem_flatMap.mpr
    refine ⟨(lines[m], m), ?_, List.mem_cons_self⟩
    rw [List.mk_mem_zipIdx_iff_getElem?, List.getElem?_take_of_lt (Nat.lt_succ_self m),
      List.getElem?_eq_getElem surplus]
  rw [← List.foldl_append, List.take_append_drop] at kept
  rw [front] at kept
  exact ⟨_, kept.subset there, rfl⟩

theorem spelled_delivered {rest : List Char} {words : List U32}
    (spell : textLines rest = words.map spelled) : delivered 256 rest = words.map spelled := by
  unfold delivered
  rw [spell]
  apply List.takeWhile_eq_self_iff.mpr
  intro line member
  obtain ⟨word, -, rfl⟩ := List.mem_map.mp member
  simp [spelled]

theorem word_contents {words : List U32} (small : 4 * words.length ≤ 2 ^ 31) (before : ℤ → U8)
    {i : ℕ} (inside : i < words.length) {j : ℕ} (byte : j < 4) :
    Ram.contents (((words.map spelled).foldl fillLine ⟨0, []⟩).writes) before
      ((4 * i + j : ℕ) : ℤ) = bigEndian words[i] j := by
  have length : (words.map spelled).length = words.length := List.length_map spelled
  have written := @fill_lines ⟨0, []⟩ 0 (words.map spelled) rfl (by omega)
  have line : (spelled words[i], i) ∈ (words.map spelled).zipIdx 0 := by
    rw [List.mk_mem_zipIdx_iff_getElem?, List.getElem?_map, List.getElem?_eq_getElem inside]
    rfl
  have bytes := bytes_big_endian words[i]
  rw [written]
  apply Ram.contents_distinct (lines_writes_distinct 0 (words.map spelled))
  apply List.mem_flatMap.mpr
  refine ⟨_, line, ?_⟩
  rw [line_value_spelled, wordWrites, bytes.1, bytes.2.1, bytes.2.2.1, bytes.2.2.2]
  interval_cases j <;> simp

theorem Decodes.header_short {count : U32} {writes : List (Ram.Store ℤ U8)}
    (decodes : Decodes file count writes) : ∀ line ∈ file.header, line.length < 256 := by
  have front : ∀ line ∈ file.front, line.length < 256 := by
    intro line member
    by_contra long
    have undefined_ := config_front_long ⟨line, member, Nat.not_lt.mp long⟩
    rw [decodes.outcome] at undefined_
    cases undefined_
  intro line member
  rcases List.mem_append.mp member with own | own
  · exact front line own
  · rw [List.mem_singleton.mp own]
    by_contra long
    exact config_cut front (Nat.not_lt.mp long) decodes.outcome decodes.sized

theorem decodes_few (header : ∀ line ∈ file.header, line.length < 256) (bits : file.bits < 2 ^ 31)
    (few : file.lines.length ≤ file.bits / 32) : ∃ count writes, Decodes file count writes := by
  have words := Nat.div_mul_cancel file.whole
  obtain ⟨count, number, outcome⟩ := config_read header
  have written := @fill_lines ⟨0, []⟩ 0 file.lines rfl (by omega)
  refine ⟨count, _, outcome, by omega, ?_, ?_⟩
  · intro write member
    rw [written] at member
    have range := lines_writes_inside member
    omega
  · intro spelledWords spell length before i inside j byte
    rw [RbtFile.lines, spelled_delivered spell]
    exact word_contents (by omega) before inside byte

/-- The loop takes lines for as long as it gets any, and a header line of more than 255
characters or a number beyond `int` goes wrong before. -/
theorem config_decodes_iff (file : RbtFile) :
    (∃ count writes, Decodes file count writes) ↔
      (∀ line ∈ file.header, line.length ≤ 255) ∧ file.bits < 2 ^ 31 ∧
        file.lines.length ≤ file.bits / 32 := by
  have words := Nat.div_mul_cancel file.whole
  constructor
  · rintro ⟨count, writes, decodes⟩
    have header := decodes.header_short
    have sized := decodes.sized
    obtain ⟨count_, number, outcome⟩ := config_read header
    rw [decodes.outcome] at outcome
    cases outcome
    have bits : file.bits < 2 ^ 31 := by omega
    refine ⟨fun line member => Nat.le_of_lt_succ (header line member), bits, ?_⟩
    by_contra surplus
    obtain ⟨write, member, place⟩ := @surplus_line_outside file.lines (file.bits / 32) (by omega)
      (Nat.not_le.mp surplus)
    have bound := (decodes.bounded write member).2
    omega
  · rintro ⟨header, bits, few⟩
    exact decodes_few (fun line member => Nat.lt_succ_of_le (header line member)) bits few

end File

def oneWord (rest : List Char) : RbtFile where
  bitstreamVersion := "Created by Bitstream".toList
  designName := "Design name: \ttop.ncd".toList
  archName := "Architecture:\tvirtex4".toList
  partName := "Part:        \t4vfx60ff1152".toList
  dateStr := "Date:        \tMon Feb 12 18:09:21 2007".toList
  label := "Bits:        ".toList
  bits := 32
  rest := rest
  single := by decide
  labelled := by decide
  whole := by decide

theorem empty_line_overruns :
    ¬∃ count writes, Decodes (oneWord (spelled 1 ++ ['\n', '\n'])) count writes := by
  rintro ⟨count, writes, decodes⟩
  obtain ⟨own, number, outcome⟩ := @config_read (oneWord (spelled 1 ++ ['\n', '\n'])) (by decide)
  have sized : count.toNat = 4 := decodes.sized
  obtain ⟨write, member, place⟩ := @surplus_line_outside
    (oneWord (spelled 1 ++ ['\n', '\n'])).lines 1 (by decide) (by decide)
  rw [decodes.outcome] at outcome
  cases outcome
  have bound := (decodes.bounded write member).2
  omega

end FpgaPcie.Mprace.V4ConfigSMAP
