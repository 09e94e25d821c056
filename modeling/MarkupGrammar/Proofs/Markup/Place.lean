import MarkupGrammar.Proofs.Markup.Extent
import Mathlib.Data.List.DropRight

/-!
# Offsets and places

The line index turns an offset into a place by looking it up among the starts of lines. This module
says what the place is without the table, and that nothing is lost on the way: each offset of a text
has a place of its own, later offsets have later places, and from the place the offset is found
again.

## Places that there are

A text is cut into lines at its line feeds, and a line has one column more than code points: the one
behind its last. `Position.IsIn` lists these places. They are all places of offsets, from the
beginning of the text up to its end, and there are no others.

## Main results

* `Position.past_origin` — the place behind a text, from its line feeds and what stands behind them
* `Position.isIn_iff` — the places of a text are those of its offsets
* `LineIndex.locate_faithful` — places and offsets say the same
-/

namespace MarkupGrammar

/-! ### Lines -/

namespace Text

/-- The lines of a text, without the line feeds between them. -/
def lines (t : Text) : List Text := splitOn (CodePoint.ofChar '\n') t

/-- What stands behind the last line feed of a text. -/
def lastLine (t : Text) : Text := t.rtakeWhile (· != CodePoint.ofChar '\n')

@[simp] theorem lastLine_nil : lastLine [] = [] := rfl

theorem lastLine_concat (t : Text) (c : CodePoint) :
    lastLine (t ++ [c]) = if c = CodePoint.ofChar '\n' then [] else lastLine t ++ [c] := by
  rw [lastLine, List.rtakeWhile_concat, lastLine]
  by_cases hc : c = CodePoint.ofChar '\n' <;> simp [hc]

/-- A text without line feeds is one line. -/
theorem lastLine_of_not_mem {t : Text} (h : CodePoint.ofChar '\n' ∉ t) : lastLine t = t := by
  refine List.rtakeWhile_eq_self_iff.mpr fun c hc => bne_iff_ne.mpr ?_
  rintro rfl
  exact h hc

/-- What stands behind the last line feed is not changed by what stands before it. -/
theorem lastLine_append_of_mem {t : Text} (s : Text) (h : CodePoint.ofChar '\n' ∈ t) :
    lastLine (s ++ t) = lastLine t := by
  induction t using List.reverseRecOn with
  | nil => exact absurd h List.not_mem_nil
  | append_singleton t c ih =>
    rw [← List.append_assoc, lastLine_concat, lastLine_concat]
    by_cases hc : c = CodePoint.ofChar '\n'
    · rw [if_pos hc, if_pos hc]
    · have hmem := (List.mem_append.mp h).resolve_right fun hlast =>
        hc (List.mem_singleton.mp hlast).symm
      rw [if_neg hc, if_neg hc, ih hmem]

theorem lastLine_append_of_not_mem (s : Text) {t : Text} (h : CodePoint.ofChar '\n' ∉ t) :
    lastLine (s ++ t) = lastLine s ++ t := by
  induction t using List.reverseRecOn with
  | nil => rw [List.append_nil, List.append_nil]
  | append_singleton t c ih =>
    have hc : c ≠ CodePoint.ofChar '\n' := fun hc =>
      h (List.mem_append_right t (List.mem_singleton.mpr hc.symm))
    rw [← List.append_assoc, lastLine_concat, if_neg hc,
      ih fun hmem => h (List.mem_append_left [c] hmem), List.append_assoc]

theorem lastLine_cons (c : CodePoint) (t : Text) :
    lastLine (c :: t) =
      if c = CodePoint.ofChar '\n' ∨ CodePoint.ofChar '\n' ∈ t then lastLine t else c :: t := by
  by_cases ht : CodePoint.ofChar '\n' ∈ t
  · rw [if_pos (Or.inr ht)]
    exact lastLine_append_of_mem [c] ht
  · have happend := lastLine_append_of_not_mem [c] ht
    by_cases hc : c = CodePoint.ofChar '\n'
    · rw [if_pos (Or.inl hc), lastLine_of_not_mem ht]
      rw [hc] at happend ⊢
      exact happend
    · rw [if_neg (not_or.mpr ⟨hc, ht⟩), lastLine_of_not_mem]
      exact fun hmem => (List.mem_cons.mp hmem).elim (fun h => hc h.symm) ht

theorem lines_feed (t : Text) : lines (CodePoint.ofChar '\n' :: t) = [] :: lines t := by
  rw [lines, splitOn, if_pos rfl, lines]

/-- A text has a first line, and a code point before it stands on that line. -/
theorem exists_lines_eq (t : Text) : ∃ line rest, lines t = line :: rest ∧
    ∀ c, c ≠ CodePoint.ofChar '\n' → lines (c :: t) = (c :: line) :: rest := by
  obtain ⟨line, rest, heq⟩ : ∃ line rest, lines t = line :: rest := by
    cases t with
    | nil => exact ⟨[], [], rfl⟩
    | cons d t =>
      rw [lines, splitOn]
      split
      · exact ⟨_, _, rfl⟩
      · split <;> exact ⟨_, _, rfl⟩
  refine ⟨line, rest, heq, fun c hc => ?_⟩
  rw [lines, splitOn, if_neg hc]
  rw [lines] at heq
  rw [heq]

/-- The line that a beginning of a text ends on begins with what stands there behind the last line
feed. -/
theorem exists_line_of_append (before after : Text) :
    ∃ line, (lines (before ++ after))[before.count (CodePoint.ofChar '\n')]? = some line ∧
      lastLine before <+: line := by
  induction before with
  | nil =>
    obtain ⟨line, rest, heq, -⟩ := exists_lines_eq after
    exact ⟨line, by rw [List.nil_append, heq]; rfl, List.nil_prefix⟩
  | cons c before ih =>
    obtain ⟨line, hline, hprefix⟩ := ih
    rw [List.cons_append, lastLine_cons]
    by_cases hc : c = CodePoint.ofChar '\n'
    · rw [if_pos (Or.inl hc), hc, lines_feed, List.count_cons_self]
      exact ⟨line, hline, hprefix⟩
    · obtain ⟨first, rest, heq, hcons⟩ := exists_lines_eq (before ++ after)
      rw [hcons c hc, List.count_cons_of_ne hc]
      rw [heq] at hline
      by_cases hmem : CodePoint.ofChar '\n' ∈ before
      · -- the line is none of the first, and stays as it is
        obtain ⟨n, hn⟩ := Nat.exists_eq_succ_of_ne_zero (List.count_pos_iff.mpr hmem).ne'
        rw [hn, List.getElem?_cons_succ] at hline ⊢
        rw [if_pos (Or.inr hmem)]
        exact ⟨line, hline, hprefix⟩
      · rw [List.count_eq_zero.mpr hmem, List.getElem?_cons_zero] at hline ⊢
        obtain rfl := Option.some.inj hline
        rw [lastLine_of_not_mem hmem] at hprefix
        rw [if_neg (not_or.mpr ⟨hc, hmem⟩)]
        exact ⟨c :: first, rfl, (List.prefix_cons_inj c).mpr hprefix⟩

/-- Each line stands in the text, where the line feeds before it have been passed. -/
theorem exists_append_of_line {t line : Text} {n : Nat} (h : (lines t)[n]? = some line) :
    ∃ before after, t = before ++ (line ++ after) ∧
      before.count (CodePoint.ofChar '\n') = n ∧ lastLine before = [] ∧
      CodePoint.ofChar '\n' ∉ line := by
  induction t generalizing n line with
  | nil =>
    obtain ⟨rfl, rfl⟩ : n = 0 ∧ line = [] := by
      cases n with
      | zero => exact ⟨rfl, (Option.some.inj h).symm⟩
      | succ n => exact nomatch h
    exact ⟨[], [], rfl, rfl, rfl, List.not_mem_nil⟩
  | cons c t ih =>
    by_cases hc : c = CodePoint.ofChar '\n'
    · rw [hc, lines_feed] at h
      cases n with
      | zero =>
        obtain rfl := Option.some.inj h
        exact ⟨[], c :: t, rfl, rfl, rfl, List.not_mem_nil⟩
      | succ n =>
        obtain ⟨before, after, rfl, hcount, hlast, hline⟩ := ih h
        refine ⟨c :: before, after, rfl, ?_, ?_, hline⟩
        · rw [hc, List.count_cons_self, hcount]
        · rw [lastLine_cons, if_pos (Or.inl hc), hlast]
    · obtain ⟨first, rest, heq, hcons⟩ := exists_lines_eq t
      rw [hcons c hc] at h
      cases n with
      | zero =>
        obtain rfl := Option.some.inj h
        obtain ⟨before, after, ht, hcount, hlast, hline⟩ := ih (n := 0) (by rw [heq]; rfl)
        rw [lastLine_of_not_mem (List.count_eq_zero.mp hcount)] at hlast
        rw [hlast, List.nil_append] at ht
        refine ⟨[], after, by rw [ht]; rfl, rfl, rfl, ?_⟩
        exact fun hmem => (List.mem_cons.mp hmem).elim (fun h => hc h.symm) hline
      | succ n =>
        obtain ⟨before, after, ht, hcount, hlast, hline⟩ := ih (n := n + 1) (by rw [heq]; exact h)
        have hmem : CodePoint.ofChar '\n' ∈ before := List.count_pos_iff.mp (by omega)
        refine ⟨c :: before, after, by rw [ht]; rfl, ?_, ?_, hline⟩
        · rw [List.count_cons_of_ne hc, hcount]
        · rw [lastLine_cons, if_pos (Or.inr hmem), hlast]

end Text

/-! ### Places -/

namespace Position

/-- The place behind a text: a line for each line feed, a column for each code point behind the
last. -/
theorem past_origin (t : Text) :
    origin.past t
      = ⟨1 + t.count (CodePoint.ofChar '\n'), 1 + (Text.lastLine t).length⟩ := by
  induction t using List.reverseRecOn with
  | nil => rfl
  | append_singleton t c ih =>
    rw [past_append, ih, past_cons, next, List.count_append, Text.lastLine_concat]
    by_cases hc : c = CodePoint.ofChar '\n'
    · rw [if_pos hc, if_pos hc, hc, List.count_singleton_self]
      rfl
    · have hcount : [c].count (CodePoint.ofChar '\n') = 0 :=
        List.count_eq_zero.mpr fun hmem => hc (List.mem_singleton.mp hmem).symm
      rw [if_neg hc, if_neg hc, hcount, List.length_append, List.length_singleton]
      simp [past, Int.add_assoc]

/-- A place of a text: on one of its lines, in a column from the first up to the one behind the
end of the line. -/
def IsIn (t : Text) (p : Position) : Prop :=
  ∃ line, t.lines[p.line - 1]? = some line ∧ 1 ≤ p.line ∧ 1 ≤ p.column ∧
    p.column ≤ line.length + 1

/-- **The places of a text are those of its beginnings.** -/
theorem isIn_iff {t : Text} {p : Position} :
    p.IsIn t ↔ ∃ before, before <+: t ∧ origin.past before = p := by
  constructor
  · rintro ⟨line, hline, hpos, hcolumn, hle⟩
    obtain ⟨before, after, rfl, hcount, hlast, hfeed⟩ := Text.exists_append_of_line hline
    have htake : CodePoint.ofChar '\n' ∉ line.take (p.column.toNat - 1) := fun hmem =>
      hfeed (List.mem_of_mem_take hmem)
    refine ⟨before ++ line.take (p.column.toNat - 1), ?_, ?_⟩
    · rw [List.prefix_append_right_inj]
      exact (List.take_prefix _ line).trans (List.prefix_append line after)
    · rw [past_origin, List.count_append, hcount, List.count_eq_zero.mpr htake,
        Text.lastLine_append_of_not_mem _ htake, hlast, List.nil_append, List.length_take]
      obtain ⟨l, column⟩ := p
      simp only at hpos hcolumn hle ⊢
      rw [Position.mk.injEq]
      omega
  · rintro ⟨before, ⟨after, rfl⟩, rfl⟩
    obtain ⟨line, hline, hprefix⟩ := Text.exists_line_of_append before after
    have hlength := hprefix.length_le
    rw [past_origin]
    refine ⟨line, ?_, ?_, ?_, ?_⟩
    · simp only [Nat.add_sub_cancel_left]
      exact hline
    · simp only
      omega
    · simp only
      omega
    · simp only
      omega

end Position

/-! ### The table of lines -/

namespace LineIndex

/-- Lines start one after the other. -/
theorem pairwise_startsAfter (offset : Nat) (t : Text) :
    (startsAfter offset t).Pairwise (· < ·) := by
  induction t generalizing offset with
  | nil => exact .nil
  | cons c t ih =>
    rw [startsAfter]
    split
    · exact List.pairwise_cons.mpr ⟨fun start hstart => (mem_startsAfter hstart).1, ih _⟩
    · exact ih _

theorem pairwise_starts (t : Text) : (ofText t).starts.Pairwise (· < ·) :=
  List.pairwise_cons.mpr ⟨fun _ hstart => (mem_startsAfter hstart).1, pairwise_startsAfter 0 t⟩

/-- In a table in order, the lines that start up to an offset are the first ones. -/
theorem countP_eq_length_takeWhile {starts : List Nat} (h : starts.Pairwise (· < ·))
    (offset : Nat) : starts.countP (· ≤ offset)
      = (starts.takeWhile fun start : Nat => decide ((start : Int) ≤ (offset : Int))).length := by
  induction starts with
  | nil => rfl
  | cons start starts ih =>
    obtain ⟨hlt, hstarts⟩ := List.pairwise_cons.mp h
    rw [List.countP_cons, List.takeWhile_cons]
    by_cases hle : start ≤ offset
    · rw [if_pos (decide_eq_true hle), if_pos (by simpa using hle), ih hstarts, List.length_cons]
    · rw [if_neg (by simpa using hle), if_neg (by simpa using hle), List.length_nil,
        List.countP_eq_zero.mpr]
      intro later hlater
      have := hlt later hlater
      simp
      omega

/-- The line of an offset is how many lines start up to it. -/
theorem line_locate (t : Text) (i : Nat) :
    ((ofText t).locate i).line = (ofText t).starts.countP (· ≤ i) := by
  rw [countP_eq_length_takeWhile (pairwise_starts t)]
  rfl

/-- The offset of a place: its column, counted from the start of its line. -/
def offset (index : LineIndex) (p : Position) : Int :=
  index.starts.getD (p.line - 1) 0 + (p.column - 1)

/-- **From a place the offset is found again.** -/
theorem offset_locate (t : Text) (i : Nat) : (ofText t).offset ((ofText t).locate i) = i := by
  rw [offset, locate]
  generalize hreached : (ofText t).starts.takeWhile
    (fun start : Nat => decide ((start : Int) ≤ (i : Int))) = reached
  have hne : reached ≠ [] := by
    rw [← hreached, ofText, List.takeWhile_cons_of_pos (by simp)]
    exact List.cons_ne_nil _ _
  have hprefix : reached <+: (ofText t).starts := hreached ▸ List.takeWhile_prefix _
  have hlast : (ofText t).starts[reached.length - 1]? = some (reached.getLast hne) := by
    obtain ⟨rest, hrest⟩ := hprefix
    rw [← hrest, List.getElem?_append_left (Nat.sub_lt (List.length_pos_iff.mpr hne) Nat.one_pos),
      ← List.getLast?_eq_getElem?, List.getLast?_eq_some_getLast hne]
  have hlastD : ∀ d, reached.getLastD d = reached.getLast hne := fun d => by
    rw [List.getLastD_eq_getLast?, List.getLast?_eq_some_getLast hne, Option.getD_some]
  simp only [hlastD, List.getD_eq_getElem?_getD, hlast, Option.getD_some]
  omega

theorem locate_eq {t : Text} {i : Nat} (hi : i ≤ t.length) :
    (ofText t).locate i = Position.origin.past (t.take i) :=
  locate_ofText (List.take_prefix i t) (by rw [List.length_take_of_le hi])

theorem isIn_iff_exists_locate {t : Text} {p : Position} :
    p.IsIn t ↔ ∃ i ≤ t.length, (ofText t).locate i = p := by
  rw [Position.isIn_iff]
  constructor
  · rintro ⟨before, hprefix, rfl⟩
    exact ⟨before.length, hprefix.length_le, locate_ofText hprefix rfl⟩
  · rintro ⟨i, hi, rfl⟩
    exact ⟨t.take i, List.take_prefix i t, (locate_eq hi).symm⟩

/-- **Places and offsets say the same.** The lines of the table are in order, and the line of an
offset is how many of them start up to it. For the offsets of a text, its end included:

* the line is one more than the line feeds before the offset, the column one more than the code
  points behind the last of these;
* later offsets have later places, and so no two have the same;
* their places are the places of the text, and no others;
* from its place each offset is found again, and from the offset of a place the place. -/
theorem locate_faithful (t : Text) :
    ((ofText t).starts.Pairwise (· < ·) ∧
      ∀ i : Nat, ((ofText t).locate i).line = (ofText t).starts.countP (· ≤ i)) ∧
    (∀ i ≤ t.length, (ofText t).locate i
      = ⟨1 + (t.take i).count (CodePoint.ofChar '\n'),
          1 + (Text.lastLine (t.take i)).length⟩) ∧
    (∀ i j : Nat, i < j → j ≤ t.length →
      ((ofText t).locate i).before ((ofText t).locate j) = true) ∧
    (∀ i ≤ t.length, ∀ j ≤ t.length, (ofText t).locate i = (ofText t).locate j → i = j) ∧
    (∀ p : Position, p.IsIn t ↔ ∃ i ≤ t.length, (ofText t).locate i = p) ∧
    (∀ i ≤ t.length, (ofText t).offset ((ofText t).locate i) = i) ∧
    ∀ p : Position, p.IsIn t → (ofText t).locate ((ofText t).offset p) = p := by
  refine ⟨⟨pairwise_starts t, line_locate t⟩, fun i hi => ?_, fun i j => before_locate,
    fun i hi j hj => eq_of_locate_eq hi hj, fun p => isIn_iff_exists_locate,
    fun i _ => offset_locate t i, fun p hp => ?_⟩
  · rw [locate_eq hi, Position.past_origin]
  · obtain ⟨i, -, rfl⟩ := isIn_iff_exists_locate.mp hp
    rw [offset_locate]

/-- A line feed is on the line that it ends, and behind the last code point there is a place. -/
theorem locate_faithful_twoLines :
    (1 < 2 ∧ 2 ≤ (Text.ofString "a\nbc").length) ∧
      (ofText (Text.ofString "a\nbc")).locate 1 = ⟨1, 2⟩ ∧
      ((ofText (Text.ofString "a\nbc")).locate (1 : Nat)).before
        ((ofText (Text.ofString "a\nbc")).locate (2 : Nat)) = true ∧
      (ofText (Text.ofString "a\nbc")).locate 1 ≠ (ofText (Text.ofString "a\nbc")).locate 2 ∧
      Position.IsIn (Text.ofString "a\nbc") ⟨2, 3⟩ ∧
      (ofText (Text.ofString "a\nbc")).locate
        ((ofText (Text.ofString "a\nbc")).offset ⟨2, 3⟩) = ⟨2, 3⟩ := by
  obtain ⟨-, hplace, hbefore, hinjective, hiff, -, hback⟩ :=
    locate_faithful (Text.ofString "a\nbc")
  have hlast : Position.IsIn (Text.ofString "a\nbc") ⟨2, 3⟩ :=
    (hiff _).mpr ⟨4, by decide, hplace 4 (by decide)⟩
  refine ⟨by decide, hplace 1 (by decide), hbefore 1 2 (by decide) (by decide), fun h => ?_, hlast,
    hback _ hlast⟩
  exact absurd (hinjective 1 (by decide) 2 (by decide) h) (by decide)

end LineIndex

end MarkupGrammar
