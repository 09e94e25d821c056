import MarkupGrammar.Text.Blank
import MarkupGrammar.Yaml.Error

/-!
# YAML text with places

Indentation decides what a YAML text means, so a reader has to know at which column it stands. Each
code point gets its place before anything is read, and a scanner works on suffixes, as elsewhere:
the place of a suffix is the place of its first code point.

A line ends at a line feed and at three wider breaks. In a scalar, a line feed stands for the first
two of them and each of the others for itself.
-/

namespace MarkupGrammar

namespace Yaml

/-- A code point with its place: line, column and number in the text, all from zero. -/
structure Glyph where
  char : CodePoint
  line : Nat
  column : Nat
  index : Nat

namespace Glyph

/-- Whether it is a given character. -/
def is (ch : Char) (g : Glyph) : Bool := g.char = CodePoint.ofChar ch

/-- Whether it is one of the characters of a string. -/
def isAmong (set : String) (g : Glyph) : Bool := set.toList.any fun ch => g.is ch

/-- Whether it is the space that indents. -/
def isSpace (g : Glyph) : Bool := g.is ' '

/-- Whether it is a space or a tab. -/
def isGap (g : Glyph) : Bool := g.is ' ' || g.is '\t'

/-- Whether it ends a line. -/
def isBreak (g : Glyph) : Bool :=
  g.char.val = 0x0A || g.char.val = 0x85 || g.char.val = 0x2028 || g.char.val = 0x2029

/-- What stands in a scalar for the end of a line. -/
def lineEnd (g : Glyph) : CodePoint := if g.char.val = 0x85 then CodePoint.ofChar '\n' else g.char

/-- A letter or digit of ASCII, a hyphen or an underscore. -/
def isWordPart (g : Glyph) : Bool := g.char.isAsciiLetter || g.char.isAsciiDigit || g.isAmong "-_"

end Glyph

/-- What is left of a text. -/
abbrev Source := List Glyph

/-- A text with the places of its code points, from a line, a column and a number on. A byte order
mark takes no column. -/
def place (line column index : Nat) : Text → Source
  | [] => []
  | c :: r =>
    let g : Glyph := ⟨c, line, column, index⟩
    let rest :=
      if g.isBreak then place (line + 1) 0 (index + 1) r
      else place line (if c.val = 0xFEFF then column else column + 1) (index + 1) r
    g :: rest

namespace Source

/-- The text without the places. -/
def text (s : Source) : Text := s.map Glyph.char

/-- Whether one of the characters of a string comes next. -/
def begins (set : String) (s : Source) : Bool := s.head?.any fun g => g.isAmong set

/-- Whether a line ends here. -/
def endsLine (s : Source) : Bool := s.head?.all Glyph.isBreak

/-- Whether a word ends here: at a space, a tab, the end of a line or of the text. -/
def endsWord (s : Source) : Bool := s.head?.all fun g => g.isGap || g.isBreak

/-- Whether a mark of three characters stands here as a word of its own. -/
def hasMark (mark : String) : Source → Bool
  | a :: b :: c :: r => text [a, b, c] = Text.ofString mark && endsWord r
  | _ => false

/-- Whether the mark of a document's beginning or of its end stands here. -/
def separatesDocuments (s : Source) : Bool := hasMark "---" s || hasMark "..." s

/-- What follows the end of a line on which nothing stands but a comment. -/
def afterLine? (s : Source) : Option Source :=
  let s := s.dropWhile Glyph.isSpace
  let s := if begins "#" s then s.dropWhile fun g => !g.isBreak else s
  match s with
  | [] => some []
  | g :: r => if g.isBreak then some r else none

end Source

/-- The text of some line ends amid a scalar: the first of them is folded. A line feed is a space
when no other line end follows, and is dropped otherwise. -/
def foldLines (first : CodePoint) (others : Text) : Text :=
  if first != CodePoint.ofChar '\n' then first :: others
  else if others.isEmpty then [CodePoint.ofChar ' ']
  else others

/-- Whether a code point may stand in a document: controls may not, but for tabs and line ends. -/
def isAdmitted (c : CodePoint) : Bool :=
  c.within
    [(0x9, 0xA), (0xD, 0xD), (0x20, 0x7E), (0x85, 0x85), (0xA0, 0xD7FF), (0xE000, 0xFFFD),
     (0x10000, 0x10FFFF)]

end Yaml

end MarkupGrammar
