import FpgaPcie.Lib.TextPage
import Mathlib.Data.List.TakeWhile

/-!
# Lines from a stream of characters

`getline` stores a line of less than `n` characters. A longer one fails the stream, and from a
stream that has failed or come to its end nothing more is read. A loop around `getline` sees
the lines of the text up to the first one that is too long.
-/

namespace FpgaPcie.TextStream

open FpgaPcie.TextPage

set_option autoImplicit false

structure Stream where
  rest : List Char
  eof : Bool
  fail : Bool
  deriving DecidableEq, Repr

def opened (text : List Char) : Stream := ⟨text, false, false⟩

/-- `in.getline(s, n)` with what is stored in front of the terminator. -/
def getline (n : ℕ) (stream : Stream) : List Char × Stream :=
  if stream.eof || stream.fail then ([], { stream with fail := true })
  else
    let line := stream.rest.takeWhile (· ≠ '\n')
    if line.length < n then
      match stream.rest.dropWhile (· ≠ '\n') with
      | [] => (line, ⟨[], true, line.isEmpty⟩)
      | _ :: rest => (line, ⟨rest, false, false⟩)
    else (line.take (n - 1), ⟨stream.rest.drop (n - 1), false, true⟩)

def seekStart (text : List Char) (stream : Stream) : Stream :=
  if stream.fail then { stream with eof := false } else opened text

def cString (stored : List Char) : List Char := stored.takeWhile (· ≠ nul)

section Line

variable {n : ℕ} {line rest : List Char}

theorem take_line (single : '\n' ∉ line) :
    (line ++ '\n' :: rest).takeWhile (· ≠ '\n') = line := by
  rw [List.takeWhile_append_of_pos]
  · simp
  · intro character member
    exact decide_eq_true fun same => single (same ▸ member)

theorem drop_line (single : '\n' ∉ line) :
    (line ++ '\n' :: rest).dropWhile (· ≠ '\n') = '\n' :: rest := by
  rw [List.dropWhile_append_of_pos]
  · simp
  · intro character member
    exact decide_eq_true fun same => single (same ▸ member)

theorem getline_short (single : '\n' ∉ line) (short : line.length < n) :
    getline n (opened (line ++ '\n' :: rest)) = (line, opened rest) := by
  unfold getline opened
  simp only [take_line single, drop_line single, if_pos short]
  rfl

theorem getline_long (single : '\n' ∉ line) (long : n ≤ line.length) :
    (getline n (opened (line ++ '\n' :: rest))).1 = line.take (n - 1) ∧
      (getline n (opened (line ++ '\n' :: rest))).2.fail = true := by
  unfold getline opened
  simp only [take_line single, if_neg (Nat.not_lt.mpr long)]
  exact ⟨rfl, rfl⟩

theorem getline_last (single : '\n' ∉ line) :
    getline n (opened line) = if line.length < n then (line, ⟨[], true, line.isEmpty⟩)
      else (line.take (n - 1), ⟨line.drop (n - 1), false, true⟩) := by
  have all : ∀ character ∈ line, decide (character ≠ '\n') = true :=
    fun character member => decide_eq_true fun same => single (same ▸ member)
  have taken : line.takeWhile (· ≠ '\n') = line := List.takeWhile_eq_self_iff.mpr all
  have dropped : line.dropWhile (· ≠ '\n') = [] := List.dropWhile_eq_nil_iff.mpr all
  unfold getline opened
  simp only [taken, dropped]
  rfl

theorem getline_failed {stream : Stream} (failed : stream.fail = true) :
    getline n stream = ([], stream) := by
  unfold getline
  rw [failed, Bool.or_true, if_pos rfl, ← failed]

theorem getline_ended {stream : Stream} (ended : stream.eof = true) :
    (getline n stream).2.fail = true := by
  unfold getline
  rw [ended, Bool.true_or, if_pos rfl]

end Line

def behind (n : ℕ) : ℕ → Stream → Stream
  | 0, stream => stream
  | count + 1, stream => behind n count (getline n stream).2

def joined (lines : List (List Char)) (rest : List Char) : List Char :=
  lines.foldr (fun line later => line ++ '\n' :: later) rest

section Several

variable {n : ℕ} {lines : List (List Char)}

theorem behind_failed {stream : Stream} (failed : stream.fail = true) (count : ℕ) :
    behind n count stream = stream := by
  induction count with
  | zero => rfl
  | succ count ih => rw [behind, getline_failed failed, ih]

theorem behind_short (single : ∀ line ∈ lines, '\n' ∉ line)
    (short : ∀ line ∈ lines, line.length < n) (rest : List Char) :
    behind n lines.length (opened (joined lines rest)) = opened rest := by
  induction lines with
  | nil => rfl
  | cons line lines ih =>
      have own := @getline_short n line (joined lines rest) (single line List.mem_cons_self)
        (short line List.mem_cons_self)
      have next : opened (joined (line :: lines) rest) =
          opened (line ++ '\n' :: joined lines rest) := rfl
      rw [List.length_cons, behind, next, own]
      apply ih
      · intro other member
        exact single other (List.mem_cons_of_mem line member)
      · intro other member
        exact short other (List.mem_cons_of_mem line member)

theorem behind_long (single : ∀ line ∈ lines, '\n' ∉ line)
    (long : ∃ line ∈ lines, n ≤ line.length) (rest : List Char) :
    (behind n lines.length (opened (joined lines rest))).fail = true := by
  induction lines with
  | nil => simp at long
  | cons line lines ih =>
      have own := single line List.mem_cons_self
      have next : opened (joined (line :: lines) rest) =
          opened (line ++ '\n' :: joined lines rest) := rfl
      rw [List.length_cons, behind, next]
      by_cases short : line.length < n
      · rw [getline_short own short]
        apply ih
        · intro other member
          exact single other (List.mem_cons_of_mem line member)
        · obtain ⟨other, member, tooLong⟩ := long
          rcases List.mem_cons.mp member with rfl | later
          · exact absurd short (Nat.not_lt.mpr tooLong)
          · exact ⟨other, later, tooLong⟩
      · have failed := (@getline_long n line (joined lines rest) own (Nat.not_lt.mp short)).2
        rw [behind_failed failed]
        exact failed

end Several

theorem getline_shorter {n : ℕ} {stream : Stream} (read : ¬(getline n stream).2.fail = true) :
    (getline n stream).2.rest.length < stream.rest.length := by
  cases stream with
  | mk text eof fail =>
      cases fail with
      | true => exact absurd (congrArg (fun next => next.2.fail) (getline_failed rfl)) read
      | false =>
          cases eof with
          | true => exact absurd (getline_ended rfl) read
          | false =>
              by_cases broken : '\n' ∈ text
              · obtain ⟨line, rest, rfl, single⟩ := List.eq_append_cons_of_mem broken
                by_cases short : line.length < n
                · have next := @getline_short n line rest single short
                  unfold opened at next
                  rw [next, List.length_append, List.length_cons]
                  exact Nat.lt_add_left line.length (Nat.lt_succ_self rest.length)
                · exact absurd (getline_long single (Nat.not_lt.mp short)).2 read
              · have next := @getline_last n text broken
                unfold opened at next
                rw [next] at read ⊢
                split at read
                · rename_i short
                  rw [if_pos short]
                  cases text with
                  | nil => exact absurd rfl read
                  | cons first rest => exact Nat.succ_pos rest.length
                · exact absurd rfl read

section EachLine

variable {State : Type*}

/-- `while ( in.getline(s, n) )` around a step. -/
def eachLine (n : ℕ) (step : State → List Char → State) (stream : Stream) (state : State) :
    State :=
  if (getline n stream).2.fail = true then state
  else eachLine n step (getline n stream).2 (step state (getline n stream).1)
termination_by stream.rest.length
decreasing_by exact getline_shorter ‹_›

/-- The lines of a text. What stands behind the last line break is a line unless it is empty. -/
def textLines : List Char → List (List Char)
  | [] => []
  | character :: rest =>
      if character = '\n' then [] :: textLines rest
      else match textLines rest with
        | [] => [[character]]
        | line :: lines => (character :: line) :: lines

def delivered (n : ℕ) (text : List Char) : List (List Char) :=
  (textLines text).takeWhile fun line => line.length < n

theorem text_lines_broken {line : List Char} (single : '\n' ∉ line) (rest : List Char) :
    textLines (line ++ '\n' :: rest) = line :: textLines rest := by
  induction line with
  | nil => simp [textLines]
  | cons character line ih =>
      rw [List.mem_cons, not_or] at single
      rw [List.cons_append, textLines, if_neg (Ne.symm single.1), ih single.2]

theorem text_lines_last {line : List Char} (single : '\n' ∉ line) (some_ : line ≠ []) :
    textLines line = [line] := by
  induction line with
  | nil => exact absurd rfl some_
  | cons character line ih =>
      rw [List.mem_cons, not_or] at single
      rw [textLines, if_neg (Ne.symm single.1)]
      cases line with
      | nil => rfl
      | cons next rest => rw [ih single.2 nofun]

variable {n : ℕ} {step : State → List Char → State}

theorem each_line_failed {stream : Stream} (failed : (getline n stream).2.fail = true)
    (state : State) : eachLine n step stream state = state := by
  rw [eachLine, if_pos failed]

theorem each_line_short {line rest : List Char} (single : '\n' ∉ line) (short : line.length < n)
    (state : State) : eachLine n step (opened (line ++ '\n' :: rest)) state =
      eachLine n step (opened rest) (step state line) := by
  rw [eachLine, getline_short single short]
  rfl

theorem each_line_last {line : List Char} (single : '\n' ∉ line) (some_ : line ≠ [])
    (short : line.length < n) (state : State) :
    eachLine n step (opened line) state = step state line := by
  have read := @getline_last n line single
  rw [if_pos short, List.isEmpty_eq_false_iff.mpr some_] at read
  rw [eachLine, read]
  exact each_line_failed (getline_ended rfl) (step state line)

theorem each_line_delivered (text : List Char) (state : State) :
    eachLine n step (opened text) state = (delivered n text).foldl step state := by
  induction size : text.length using Nat.strong_induction_on generalizing text state with
  | _ size_ ih =>
      unfold delivered
      by_cases broken : '\n' ∈ text
      · obtain ⟨line, rest, rfl, single⟩ := List.eq_append_cons_of_mem broken
        rw [text_lines_broken single]
        by_cases short : line.length < n
        · have shorter : rest.length < size_ := by
            rw [← size, List.length_append, List.length_cons]
            omega
          rw [each_line_short single short, List.takeWhile_cons, if_pos (decide_eq_true short),
            List.foldl_cons]
          exact ih rest.length shorter rest (step state line) rfl
        · have failed := (@getline_long n line rest single (Nat.not_lt.mp short)).2
          rw [each_line_failed failed, List.takeWhile_cons_of_neg (by simpa using short)]
          rfl
      · by_cases none_ : text = []
        · subst none_
          apply each_line_failed
          rw [getline_last broken]
          split <;> rfl
        · rw [text_lines_last broken none_]
          by_cases short : text.length < n
          · rw [each_line_last broken none_ short,
              List.takeWhile_cons, if_pos (decide_eq_true short)]
            rfl
          · rw [List.takeWhile_cons_of_neg (by simpa using short)]
            apply each_line_failed
            rw [getline_last broken, if_neg short]

end EachLine

end FpgaPcie.TextStream
