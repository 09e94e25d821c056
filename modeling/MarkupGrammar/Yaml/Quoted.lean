import MarkupGrammar.Yaml.Source

/-!
# Quoted scalars

A scalar in quotes may go on over lines. Blanks around a line end are dropped and the line ends
folded. In single quotes nothing is escaped but the quote itself, which is written twice; in double
quotes a backslash escapes, and before a line end it takes the line end away.

The reader goes through the text once. Its state says what was met last.
-/

namespace MarkupGrammar

namespace Yaml

/-- Where the reader of a quoted scalar stands. -/
inductive QuotedState where
  /-- Amid the text. -/
  | text
  /-- After blanks, the last first. -/
  | gap (blanks : Text)
  /-- After line ends, the last first. A line end that was escaped does not count as the `first`. -/
  | lines (first : Option CodePoint) (others : Text)
  /-- After a backslash. -/
  | escape
  /-- Inside a numbered escape. -/
  | numbered (missing value : Nat)
  /-- After a single quote, which ends the scalar unless another one follows. -/
  | quote

namespace QuotedState

/-- What a gap or line ends come to when the text goes on, last first. -/
def folded : QuotedState → Text
  | .gap blanks => blanks
  | .lines none others => others
  | .lines (some first) others => (foldLines first others.reverse).reverse
  | _ => []

/-- The state after one more blank. -/
def addBlank (c : CodePoint) : QuotedState → QuotedState
  | .gap blanks => .gap (c :: blanks)
  | .lines first others => .lines first others
  | _ => .gap [c]

/-- The state after one more line end. -/
def addLine (c : CodePoint) : QuotedState → QuotedState
  | .lines first others => .lines first (c :: others)
  | _ => .lines (some c) []

end QuotedState

/-- The code point that a letter stands for after a backslash. -/
def escaped? (g : Glyph) : Option CodePoint :=
  ([('0', 0x00), ('a', 0x07), ('b', 0x08), ('t', 0x09), ('\t', 0x09), ('n', 0x0A), ('v', 0x0B),
    ('f', 0x0C), ('r', 0x0D), ('e', 0x1B), (' ', 0x20), ('"', 0x22), ('\\', 0x5C), ('/', 0x2F),
    ('N', 0x85), ('_', 0xA0), ('L', 0x2028), ('P', 0x2029)].find?
      fun (letter, _) => g.is letter).map fun (_, n) => CodePoint.ofNat n

/-- The number of digits that follow a letter after a backslash. -/
def escapeDigits? (g : Glyph) : Option Nat :=
  if g.is 'x' then some 2 else if g.is 'u' then some 4 else if g.is 'U' then some 8 else none

/-- The code point that a numbered escape stands for. -/
def numbered (n : Nat) : Except YamlError CodePoint :=
  if n < 0x110000 then .ok (CodePoint.ofNat n) else .error (.noCodePoint n)

/-- The text of a scalar between quotes of one kind, and the rest. The opening quote has been
passed; what has been read is kept last first. -/
def readQuoted (isDouble : Bool) :
    QuotedState → Text → Source → Except YamlError (Text × Source)
  | .quote, read, [] => .ok (read.reverse, [])
  | _, _, [] => .error .malformed
  | .quote, read, g :: r =>
    if g.is '\'' then readQuoted isDouble .text (g.char :: read) r else .ok (read.reverse, g :: r)
  | .escape, read, g :: r =>
    match escapeDigits? g with
    | some count => readQuoted isDouble (.numbered count 0) read r
    | none =>
      match escaped? g with
      | some c => readQuoted isDouble .text (c :: read) r
      | none =>
        if g.isBreak && !Source.separatesDocuments r then
          readQuoted isDouble (.lines none []) read r
        else .error .malformed
  | .numbered missing value, read, g :: r =>
    match g.char.hexDigit? with
    | none => .error .malformed
    | some d =>
      let value := 16 * value + d
      match missing - 1 with
      | 0 => do readQuoted isDouble .text ((← numbered value) :: read) r
      | missing + 1 => readQuoted isDouble (.numbered (missing + 1) value) read r
  | state, read, g :: r =>
    if g.isGap then readQuoted isDouble (state.addBlank g.char) read r
    else if g.isBreak then
      if Source.separatesDocuments r then .error .malformed
      else readQuoted isDouble (state.addLine g.lineEnd) read r
    else
      let read := state.folded ++ read
      if isDouble && g.is '"' then .ok (read.reverse, r)
      else if isDouble && g.is '\\' then readQuoted isDouble .escape read r
      else if !isDouble && g.is '\'' then readQuoted isDouble .quote read r
      else readQuoted isDouble .text (g.char :: read) r

end Yaml

end MarkupGrammar
