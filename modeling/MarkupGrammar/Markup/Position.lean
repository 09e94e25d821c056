import MarkupGrammar.Text.Basic

/-!
# Positions in a document

A reader finds a place by line and column, both counted from one; scanners find it by offset. A
`LineIndex` holds the offset at which each line starts and turns the second into the first. Only
line feeds end a line here, whatever other breaks the prose of the document may hold.

An offset may also be given from outside, and then it can lie before the text. It is on line zero,
whose columns are counted from the start of the last line.
-/

namespace MarkupGrammar

/-- A line and a column, both counted from one. Only a place before the text has smaller ones. -/
structure Position where
  line : Nat
  column : Int
deriving DecidableEq

namespace Position

/-- Reading order: by line, then by column. -/
def before (p q : Position) : Bool :=
  p.line < q.line || (p.line == q.line && p.column < q.column)

end Position

/-- The offsets at which the lines of a text start, the first line at zero. -/
structure LineIndex where
  starts : List Nat

namespace LineIndex

/-- The offsets just after the line feeds of a text that begins at `offset`. -/
def startsAfter (offset : Nat) : Text → List Nat
  | [] => []
  | c :: r =>
    if c = CodePoint.ofChar '\n' then (offset + 1) :: startsAfter (offset + 1) r
    else startsAfter (offset + 1) r

/-- The line index of a text. -/
def ofText (t : Text) : LineIndex := ⟨0 :: startsAfter 0 t⟩

/-- The position of an offset: on the last line that starts at or before it. -/
def locate (index : LineIndex) (offset : Int) : Position :=
  let reached := index.starts.takeWhile fun (start : Nat) => (start : Int) ≤ offset
  let start := reached.getLastD (index.starts.getLastD 0)
  ⟨reached.length, offset - start + 1⟩

end LineIndex

end MarkupGrammar
