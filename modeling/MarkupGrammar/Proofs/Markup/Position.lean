import MarkupGrammar.Markup.Position
import Mathlib.Tactic.Common

/-!
# Places by counting

A reader counts: a line feed begins a line, any other code point takes up one column.
`Position.past` is that count, code point by code point, and knows of no offsets. The line index
finds the same place from an offset, by looking among the starts of lines.

## Main results

* `LineIndex.locate_ofText` — the place of an offset is the count over the text before it
-/

namespace MarkupGrammar

namespace Position

/-- The first place of a text. -/
def origin : Position := ⟨1, 1⟩

/-- The place after a code point. -/
def next (p : Position) (c : CodePoint) : Position :=
  if c = CodePoint.ofChar '\n' then ⟨p.line + 1, 1⟩ else ⟨p.line, p.column + 1⟩

/-- The place after a text that begins at a place. -/
def past (p : Position) (t : Text) : Position := t.foldl next p

theorem past_cons (p : Position) (c : CodePoint) (t : Text) :
    p.past (c :: t) = (p.next c).past t := rfl

@[simp] theorem past_append (p : Position) (s t : Text) : p.past (s ++ t) = (p.past s).past t :=
  List.foldl_append

end Position

namespace LineIndex

/-! ### The starts of lines -/

theorem startsAfter_append (offset : Nat) (s t : Text) :
    startsAfter offset (s ++ t) = startsAfter offset s ++ startsAfter (offset + s.length) t := by
  induction s generalizing offset with
  | nil => rfl
  | cons c s ih =>
    have hlength : offset + (c :: s).length = offset + 1 + s.length := by
      rw [List.length_cons]; omega
    rw [List.cons_append, startsAfter, startsAfter, ih, hlength]
    split <;> rfl

/-- Lines that start in a text start after the offset at which it begins, and at most at its end. -/
theorem mem_startsAfter {offset start : Nat} {t : Text} (h : start ∈ startsAfter offset t) :
    offset < start ∧ start ≤ offset + t.length := by
  induction t generalizing offset with
  | nil => exact nomatch h
  | cons c t ih =>
    rw [startsAfter] at h
    rw [List.length_cons]
    split at h
    · rcases List.mem_cons.mp h with rfl | h
      · omega
      · have := ih h
        omega
    · have := ih h
      omega

/-- Counting over a text that begins at an offset, on a line that starts at another: each line feed
adds a line, and the column is counted from the last start. -/
theorem past_eq (line offset start : Nat) (t : Text) :
    Position.past ⟨line, (offset : Int) - start + 1⟩ t
      = ⟨line + (startsAfter offset t).length,
          ((offset + t.length : Nat) : Int)
            - ((startsAfter offset t).getLastD start : Nat) + 1⟩ := by
  induction t generalizing line offset start with
  | nil => rfl
  | cons c t ih =>
    have hlength : offset + (c :: t).length = offset + 1 + t.length := by
      rw [List.length_cons]; omega
    rw [Position.past_cons, Position.next, startsAfter, hlength]
    by_cases hc : c = CodePoint.ofChar '\n'
    · have hline := ih (line + 1) (offset + 1) (offset + 1)
      rw [Int.sub_self, Int.zero_add] at hline
      rw [if_pos hc, if_pos hc, hline, List.length_cons, List.getLastD_cons, Nat.add_assoc,
        Nat.add_comm 1]
    · have hcolumn : (offset : Int) - start + 1 + 1 = ((offset + 1 : Nat) : Int) - start + 1 := by
        omega
      rw [if_neg hc, if_neg hc]
      simp only [hcolumn]
      rw [ih]

/-- The place of an offset is the count over what stands before it. -/
theorem locate_append (before after : Text) :
    (ofText (before ++ after)).locate before.length = Position.origin.past before := by
  have hreached : (0 :: startsAfter 0 (before ++ after)).takeWhile
      (fun start : Nat => decide ((start : Int) ≤ (before.length : Int)))
        = 0 :: startsAfter 0 before := by
    rw [startsAfter_append, ← List.cons_append, List.takeWhile_append_of_pos]
    · rw [Nat.zero_add]
      cases hafter : startsAfter before.length after with
      | nil => rw [List.takeWhile_nil, List.append_nil]
      | cons start starts =>
        have hstart := mem_startsAfter (hafter ▸ List.mem_cons_self (a := start) (l := starts))
        rw [List.takeWhile_cons_of_neg (by simpa using hstart.1), List.append_nil]
    · intro start hstart
      rcases List.mem_cons.mp hstart with rfl | hstart
      · simp
      · have := (mem_startsAfter hstart).2
        simpa using this
  have hpast : Position.origin.past before = _ := past_eq 1 0 0 before
  rw [Nat.add_comm 1, Nat.zero_add] at hpast
  rw [ofText, locate]
  simp only [hreached]
  rw [List.getLastD_cons, List.length_cons, hpast]

/-- **The place of an offset.** Where a beginning of the text ends, the count over it has come. -/
theorem locate_ofText {text before : Text} {offset : Int} (h : before <+: text)
    (hoffset : offset = before.length) :
    (ofText text).locate offset = Position.origin.past before := by
  obtain ⟨after, rfl⟩ := h
  rw [hoffset]
  exact locate_append before after

end LineIndex

end MarkupGrammar
