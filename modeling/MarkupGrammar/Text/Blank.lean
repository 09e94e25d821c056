import MarkupGrammar.Text.Basic

/-!
# Blank code points and line breaks

Three notions of white space meet in a document engine, and they differ.

* *Blank* is the wide notion: every code point that Unicode calls white space, and the four
  information separators. Descriptions are collapsed and trimmed by it.
* *Markup space* is the narrow notion of tags: space, tab, line feed and carriage return.
* A *line break* ends a line of prose. Positions in a document count line feeds only; a description
  ends at any of ten breaks.
-/

namespace MarkupGrammar

namespace CodePoint

/-- The blank code points. -/
def blanks : List Nat :=
  [0x09, 0x0A, 0x0B, 0x0C, 0x0D, 0x1C, 0x1D, 0x1E, 0x1F, 0x20, 0x85, 0xA0, 0x1680, 0x2000, 0x2001,
   0x2002, 0x2003, 0x2004, 0x2005, 0x2006, 0x2007, 0x2008, 0x2009, 0x200A, 0x2028, 0x2029, 0x202F,
   0x205F, 0x3000]

/-- Whether the code point is white space in the wide sense. -/
def isBlank (c : CodePoint) : Bool := blanks.contains c.val

/-- Whether the code point separates the parts of a tag. -/
def isMarkupSpace (c : CodePoint) : Bool :=
  c.val = 0x20 || c.val = 0x09 || c.val = 0x0D || c.val = 0x0A

/-- The code points that end a line of prose. -/
def lineBreaks : List Nat :=
  [0x0A, 0x0B, 0x0C, 0x0D, 0x1C, 0x1D, 0x1E, 0x85, 0x2028, 0x2029]

/-- Whether the code point ends a line of prose. -/
def isLineBreak (c : CodePoint) : Bool := lineBreaks.contains c.val

/-- The white space of tags is blank. -/
theorem isBlank_of_isMarkupSpace {c : CodePoint} (h : c.isMarkupSpace = true) :
    c.isBlank = true := by
  simp only [isMarkupSpace, Bool.or_eq_true, decide_eq_true_eq] at h
  rcases h with ((h | h) | h) | h <;> simp [isBlank, blanks, h]

end CodePoint

namespace Text

/-- The text without the blanks at its beginning. -/
def trimStart (t : Text) : Text := t.dropWhile CodePoint.isBlank

/-- The text without the blanks at its end. -/
def trimEnd (t : Text) : Text := dropEndWhile CodePoint.isBlank t

/-- The text without the blanks at both ends. -/
def trim (t : Text) : Text := trimEnd (trimStart t)

/-- Whether nothing but blanks is in the text. -/
def isBlank (t : Text) : Bool := t.all CodePoint.isBlank

/-- The maximal runs without blanks, in order. -/
def words : Text → List Text
  | [] => []
  | c :: r =>
    if c.isBlank then words r
    else
      match r with
      | [] => [[c]]
      | d :: _ =>
        if d.isBlank then [c] :: words r
        else
          match words r with
          | [] => [[c]]
          | w :: ws => (c :: w) :: ws

/-- The text with each maximal run of blanks made one space; `afterBlank` says that a run is open
and its space already written. -/
def squeeze (afterBlank : Bool) : Text → Text
  | [] => []
  | c :: r =>
    if c.isBlank then
      if afterBlank then squeeze true r else CodePoint.ofChar ' ' :: squeeze true r
    else c :: squeeze false r

/-- The text with runs of blanks made single spaces and none at either end; nothing when the text is
blank. -/
def collapse (t : Text) : Option Text :=
  match trim (squeeze false t) with
  | [] => none
  | u => some u

/-- A line feed for each line end of a document: a carriage return, or a line feed with a carriage
return before it or without. -/
def unifyLineEnds : Text → Text
  | [] => []
  | c :: r =>
    if c = CodePoint.ofChar '\r' then
      match r with
      | [] => [CodePoint.ofChar '\n']
      | d :: r' =>
        if d = CodePoint.ofChar '\n' then d :: unifyLineEnds r'
        else CodePoint.ofChar '\n' :: unifyLineEnds (d :: r')
    else c :: unifyLineEnds r

/-- The part of a text before its first line break. -/
def firstLine (t : Text) : Text := t.takeWhile fun c => !c.isLineBreak

end Text

end MarkupGrammar
