import FpgaPcie.Driver.Kmem
import FpgaPcie.Lib.TextPage

/-!
# The buffer listings

`pcidriver_show_kbuffers` and `pcidriver_show_umappings` print one line an entry into the page
that sysfs gives them. The offset counts what would have been printed, so that it runs past
the end of the page; the lines behind are then left out. A text that ends with the page is
neither too long nor has it room for its terminator.
-/

namespace FpgaPcie.Driver.Listings

open FpgaPcie.TextPage

set_option autoImplicit false

def pageSize : U64 := 4096

/-- The fields of `pcidriver_umem_entry_t` that are printed. -/
structure UmemCounts where
  id : U32
  nrPages : U32
  nents : U32
  deriving DecidableEq, Repr

inductive Event where
  | lock
  | unlock
  /-- `snprintf(buf+offset, room, ...)` -/
  | print (offset : U32) (room : U64)
  deriving DecidableEq, Repr

/-- The page by the position from `buf` on, and what was called so far. -/
structure Run where
  page : Memory
  events : List Event

namespace Run

def call (run : Run) (event : Event) : Run := { run with events := run.events ++ [event] }

/-- `offset` is an `int`, and widened to compute the room. -/
def print (run : Run) (offset : U32) (text : List Char) : Run :=
  let room := pageSize - offset.signExtend 64
  ⟨snprintf run.page offset.toInt room.toNat text, run.events ++ [.print offset room]⟩

end Run

def advance (offset : U32) (text : List Char) : U32 := offset + BitVec.ofNat 32 text.length

def showLines : List (List Char) → U32 → Run → Run × U64
  | [], offset, run =>
      (run.call .unlock, if pageSize < offset.signExtend 64 then pageSize
        else (offset + 1).signExtend 64)
  | line :: rest, offset, run =>
      if pageSize < offset.signExtend 64 then (run.call .unlock, pageSize)
      else showLines rest (advance offset line) (run.print offset line)

/-- Both functions, for a header and the lines of the entries. -/
def showListing (header : List Char) (lines : List (List Char)) (page : Memory) : Run × U64 :=
  showLines lines (advance 0 header) (((⟨page, []⟩ : Run).print 0 header).call .lock)

def kbuffersHeader : List Char := "kbuf#\tcpu addr\tsize\n".toList

def kbufferLine (entry : KmemEntry) : List Char :=
  signedDecimal 3 entry.id.toInt ++ '\t' :: (zeroedHex 8 entry.dmaHandle.toNat ++
    '\t' :: (decimal entry.size.toNat ++ ['\n']))

def pcidriverShowKbuffers (kmemList : List KmemEntry) (page : Memory) : Run × U64 :=
  showListing kbuffersHeader (kmemList.map kbufferLine) page

def umappingsHeader : List Char := "umap#\tn_pages\tsg_ents\n".toList

def umappingLine (entry : UmemCounts) : List Char :=
  signedDecimal 3 entry.id.toInt ++ '\t' :: (decimal entry.nrPages.toNat ++
    '\t' :: (decimal entry.nents.toNat ++ ['\n']))

def pcidriverShowUmappings (umemList : List UmemCounts) (page : Memory) : Run × U64 :=
  showListing umappingsHeader (umemList.map umappingLine) page

theorem id_length (id : U32) : (signedDecimal 3 id.toInt).length ≤ 11 := by
  have lower := id.le_toInt
  have upper := id.toInt_lt
  exact @signed_decimal_length 3 10 id.toInt (by decide) (by omega)

theorem kbuffer_line_length (entry : KmemEntry) : (kbufferLine entry).length ≤ 50 := by
  have id := id_length entry.id
  have address := @zeroed_hex_length 8 entry.dmaHandle.toNat 16 (by decide) entry.dmaHandle.isLt
  have size := @decimal_length entry.size.toNat 20 (by decide) (by
    have bound := entry.size.isLt
    omega)
  simp only [kbufferLine, List.length_append, List.length_cons, List.length_nil]
  omega

theorem umapping_line_length (entry : UmemCounts) : (umappingLine entry).length ≤ 50 := by
  have id := id_length entry.id
  have pages := @decimal_length entry.nrPages.toNat 10 (by decide) (by
    have bound := entry.nrPages.isLt
    omega)
  have nents := @decimal_length entry.nents.toNat 10 (by decide) (by
    have bound := entry.nents.isLt
    omega)
  simp only [umappingLine, List.length_append, List.length_cons, List.length_nil]
  omega

theorem widened {offset : U32} (small : offset.toNat < 2 ^ 31) :
    (offset.signExtend 64).toNat = offset.toNat ∧ offset.toInt = offset.toNat := by
  have own : offset.toInt = offset.toNat := by
    rw [BitVec.toInt_eq_toNat_cond]
    omega
  have wide : (offset.signExtend 64).toInt = offset.toInt :=
    BitVec.toInt_signExtend_of_le (by decide)
  rw [own, BitVec.toInt_eq_toNat_cond] at wide
  have bound := (offset.signExtend 64).isLt
  exact ⟨by omega, own⟩

theorem advance_toNat {offset : U32} {text : List Char}
    (small : offset.toNat + text.length < 2 ^ 31) :
    (advance offset text).toNat = offset.toNat + text.length := by
  rw [advance, BitVec.toNat_add, BitVec.toNat_ofNat]
  omega

def Event.Fits : Event → Prop
  | .print offset room => 0 ≤ offset.toInt ∧ offset.toInt + room.toNat = pageSize.toNat
  | _ => True

theorem print_first (page : Memory) (header : List Char) :
    Holds pageSize.toNat page ((⟨page, []⟩ : Run).print 0 header).page header :=
  holds_first (by decide) page header

section Lines

variable {before : Memory} {run : Run} {offset : U32} {shown line : List Char}

theorem room_left (at_ : offset.toNat = shown.length) (inside : shown.length ≤ 4096) :
    offset.toInt = shown.length ∧ (pageSize - offset.signExtend 64).toNat =
      pageSize.toNat - shown.length := by
  have size : pageSize.toNat = 4096 := rfl
  obtain ⟨wide, own⟩ := @widened offset (by omega)
  rw [BitVec.toNat_sub_of_le (by rw [BitVec.le_def]; omega), wide, own, at_]
  exact ⟨rfl, rfl⟩

theorem print_next (holds : Holds pageSize.toNat before run.page shown)
    (at_ : offset.toNat = shown.length) (inside : shown.length ≤ 4096) :
    Holds pageSize.toNat before (run.print offset line).page (shown ++ line) := by
  obtain ⟨own, room⟩ := room_left at_ inside
  simp only [Run.print, own, room]
  exact holds.print (by decide) inside

theorem print_fits (at_ : offset.toNat = shown.length) (inside : shown.length ≤ 4096) :
    Event.Fits (.print offset (pageSize - offset.signExtend 64)) := by
  obtain ⟨own, room⟩ := room_left at_ inside
  have size : pageSize.toNat = 4096 := rfl
  simp only [Event.Fits, own, room]
  omega

end Lines

/-- How a listing of a text ends; the text is counted only as far as it was printed. -/
structure Shown (before : Memory) (run : Run) (full : List Char) (result : Run × U64) :
    Prop where
  text : Holds pageSize.toNat before result.1.page full
  printed : ∃ prints, result.1.events = run.events ++ (prints ++ [.unlock]) ∧
    ∀ event ∈ prints, event.Fits ∧ event ≠ .lock ∧ event ≠ .unlock
  returned : result.2.toNat = if pageSize.toNat < full.length then pageSize.toNat
    else full.length + 1

section Loop

variable {before : Memory} {run : Run} {offset : U32} {shown : List Char}

theorem past_page_iff (at_ : offset.toNat = shown.length) (short : shown.length < 2 ^ 31) :
    pageSize < offset.signExtend 64 ↔ pageSize.toNat < shown.length := by
  obtain ⟨wide, -⟩ := @widened offset (by omega)
  rw [BitVec.lt_def, wide, at_]

theorem show_lines_shown (lines : List (List Char)) (short : ∀ line ∈ lines, line.length ≤ 50)
    (holds : Holds pageSize.toNat before run.page shown) (at_ : offset.toNat = shown.length)
    (near : shown.length ≤ 4146) :
    Shown before run (shown ++ lines.flatten) (showLines lines offset run) := by
  have size : pageSize.toNat = 4096 := rfl
  induction lines generalizing run offset shown with
  | nil =>
      have past := past_page_iff at_ (by omega)
      rw [List.flatten_nil, List.append_nil]
      constructor
      · exact holds
      · exact ⟨[], rfl, nofun⟩
      · unfold showLines
        by_cases longer : pageSize < offset.signExtend 64
        · simp only [if_pos longer, if_pos (past.mp longer)]
        · have next : (offset + 1).toNat = offset.toNat + 1 := by
            have one : (1 : U32).toNat = 1 := rfl
            rw [BitVec.toNat_add, one]
            omega
          obtain ⟨wide, -⟩ := @widened (offset + 1) (by omega)
          simp only [if_neg longer, if_neg (fun less => longer (past.mpr less)), wide, next, at_]
  | cons line rest ih =>
      have past := past_page_iff at_ (by omega)
      have own := short line List.mem_cons_self
      rw [List.flatten_cons]
      unfold showLines
      by_cases longer : pageSize < offset.signExtend 64
      · have full := past.mp longer
        rw [if_pos longer]
        constructor
        · exact holds.longer (by omega) _
        · exact ⟨[], rfl, nofun⟩
        · rw [List.length_append, if_pos (by omega)]
      · have inside : shown.length ≤ 4096 := by
          rw [past] at longer
          omega
        rw [if_neg longer, ← List.append_assoc]
        have later := ih (fun other member => short other (List.mem_cons_of_mem line member))
          (print_next holds at_ inside) (by
            rw [@advance_toNat offset line (by omega), List.length_append, at_])
          (by
            rw [List.length_append]
            omega)
        obtain ⟨prints, events, fits⟩ := later.printed
        constructor
        · exact later.text
        · refine ⟨.print offset (pageSize - offset.signExtend 64) :: prints, ?_, ?_⟩
          · rw [events]
            simp [Run.print]
          · intro event member
            rcases List.mem_cons.mp member with rfl | old
            · exact ⟨print_fits at_ inside, nofun, nofun⟩
            · exact fits event old
        · exact later.returned

end Loop

def Event.onLock : Event → Bool
  | .print _ _ => false
  | _ => true

/-- A listing of a text keeps to its page and to the discipline of the list. -/
structure RespectsPage (before : Memory) (full : List Char) (result : Run × U64) : Prop where
  rooms : ∀ event ∈ result.1.events, event.Fits
  lock : result.1.events.filter Event.onLock = [.lock, .unlock]
  text : Holds pageSize.toNat before result.1.page full
  range : 1 ≤ result.2.toNat ∧ result.2.toNat ≤ pageSize.toNat
  returned : result.2.toNat = min (full.length + 1) pageSize.toNat

section Listing

variable {header : List Char} {lines : List (List Char)}

theorem show_listing_shown (before : Memory) (title : header.length ≤ 50)
    (short : ∀ line ∈ lines, line.length ≤ 50) :
    Shown before (((⟨before, []⟩ : Run).print 0 header).call .lock) (header ++ lines.flatten)
      (showListing header lines before) := by
  have zero : (0 : U32).toNat = 0 := rfl
  apply show_lines_shown lines short
  · exact print_first before header
  · rw [@advance_toNat 0 header (by omega), zero, Nat.zero_add]
  · omega

/-- While lines are printed the list is neither taken nor given back. -/
theorem prints_no_lock {prints : List Event}
    (fits : ∀ event ∈ prints, event.Fits ∧ event ≠ .lock ∧ event ≠ .unlock) :
    prints.filter Event.onLock = [] := by
  rw [List.filter_eq_nil_iff]
  intro event member
  obtain ⟨-, notLock, notUnlock⟩ := fits event member
  cases event with
  | lock => exact absurd rfl notLock
  | unlock => exact absurd rfl notUnlock
  | print offset room => exact Bool.false_ne_true

theorem show_listing_respects_iff (before : Memory) (title : header.length ≤ 50)
    (short : ∀ line ∈ lines, line.length ≤ 50) :
    RespectsPage before (header ++ lines.flatten) (showListing header lines before) ↔
      (header ++ lines.flatten).length ≠ pageSize.toNat := by
  have shown := show_listing_shown before title short
  have size : pageSize.toNat = 4096 := rfl
  have returned := shown.returned
  obtain ⟨prints, events, fits⟩ := shown.printed
  constructor
  · intro respects same
    have range := respects.range
    rw [returned, if_neg (by omega)] at range
    omega
  · intro other
    constructor
    · intro event member
      rw [events] at member
      simp only [Run.call, Run.print, List.mem_append, List.mem_singleton, List.not_mem_nil,
        false_or] at member
      rcases member with (rfl | rfl) | old | rfl
      · exact @print_fits 0 [] rfl (Nat.zero_le _)
      · trivial
      · exact (fits event old).1
      · trivial
    · rw [events, List.filter_append, List.filter_append, prints_no_lock fits]
      rfl
    · exact shown.text
    · rw [returned]
      split <;> omega
    · rw [returned]
      split <;> omega

end Listing

def kbuffersText (kmemList : List KmemEntry) : List Char :=
  kbuffersHeader ++ (kmemList.map kbufferLine).flatten

def umappingsText (umemList : List UmemCounts) : List Char :=
  umappingsHeader ++ (umemList.map umappingLine).flatten

/-- Only a text that ends with the page is counted one byte too far. -/
theorem listings_respect_page_iff (before : Memory) (kmemList : List KmemEntry)
    (umemList : List UmemCounts) :
    (RespectsPage before (kbuffersText kmemList) (pcidriverShowKbuffers kmemList before) ↔
      (kbuffersText kmemList).length ≠ pageSize.toNat) ∧
    (RespectsPage before (umappingsText umemList) (pcidriverShowUmappings umemList before) ↔
      (umappingsText umemList).length ≠ pageSize.toNat) := by
  constructor
  · apply show_listing_respects_iff before (by decide)
    intro line member
    obtain ⟨entry, -, rfl⟩ := List.mem_map.mp member
    exact kbuffer_line_length entry
  · apply show_listing_respects_iff before (by decide)
    intro line member
    obtain ⟨entry, -, rfl⟩ := List.mem_map.mp member
    exact umapping_line_length entry

/-- Buffer `i` of a driver, 64 KiB from the one before it. -/
def plainBuffer (size : U64) (i : ℕ) : KmemEntry :=
  ⟨BitVec.ofNat 32 i, BitVec.ofNat 64 (65536 * i), 0, size⟩

theorem plain_buffer_line {i : ℕ} (few : i < 1000) (size : U64) :
    (kbufferLine (plainBuffer size i)).length = 14 + (decimal size.toNat).length := by
  have own : (BitVec.ofNat 32 i).toInt = i := by
    rw [BitVec.toInt_eq_toNat_cond, BitVec.toNat_ofNat]
    omega
  have digits : (decimal i).length ≤ 3 := decimal_length (by decide) few
  have id : (signedDecimal 3 (BitVec.ofNat 32 i).toInt).length = 3 := by
    rw [own, signedDecimal, padded_length, if_neg (by omega), Int.natAbs_natCast]
    omega
  have address : (zeroedHex 8 (BitVec.ofNat 64 (65536 * i)).toNat).length = 8 := by
    have hex := (@Nat.length_toDigits_le_iff 16 (BitVec.ofNat 64 (65536 * i)).toNat 8 (by decide)
      (by decide)).mpr (by
        rw [BitVec.toNat_ofNat]
        omega)
    rw [zeroedHex, padded_length]
    omega
  simp only [kbufferLine, plainBuffer, List.length_append, List.length_cons, List.length_nil, id,
    address]
  omega

def fullPage : List KmemEntry :=
  (List.range 8).map (plainBuffer 65536) ++ (List.range' 8 218).map (plainBuffer 4096)

theorem full_page_length : (kbuffersText fullPage).length = pageSize.toNat := by
  have large : (List.range 8).map ((List.length ∘ kbufferLine) ∘ plainBuffer 65536) =
      (List.range 8).map fun _ => 19 := by
    apply List.map_congr_left
    intro i member
    have few := List.mem_range.mp member
    exact plain_buffer_line (by omega) 65536
  have small : (List.range' 8 218).map ((List.length ∘ kbufferLine) ∘ plainBuffer 4096) =
      (List.range' 8 218).map fun _ => 18 := by
    apply List.map_congr_left
    intro i member
    have few := List.mem_range'_1.mp member
    exact plain_buffer_line (by omega) 4096
  rw [kbuffersText, fullPage, List.length_append, List.length_flatten, List.map_append,
    List.map_append, List.map_map, List.map_map, List.map_map, List.map_map, List.sum_append, large,
    small, List.map_const', List.map_const', List.sum_replicate_nat, List.sum_replicate_nat,
    List.length_range, List.length_range']
  rfl

theorem full_page_overcounted :
    ¬RespectsPage (fun _ => nul) (kbuffersText fullPage)
      (pcidriverShowKbuffers fullPage fun _ => nul) := by
  have short : ∀ line ∈ fullPage.map kbufferLine, line.length ≤ 50 := by
    intro line member
    obtain ⟨entry, -, rfl⟩ := List.mem_map.mp member
    exact kbuffer_line_length entry
  intro respects
  exact (show_listing_respects_iff (fun _ => nul) (by decide) short).mp respects full_page_length

end FpgaPcie.Driver.Listings
