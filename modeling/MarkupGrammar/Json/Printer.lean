import MarkupGrammar.Binary64.Shortest
import MarkupGrammar.Json.Basic

/-!
# JSON text

A value is written in pieces: one piece for each bracket, separator and scalar, where a separator or
an opening bracket is joined to the scalar item that follows it. Pieces matter because a file is
written piece by piece, and a piece that cannot be encoded leaves what came before it in the file.

Code points are kept as they are, but for the quote, the backslash and the controls. A caller that
needs ASCII escapes the rest with `asciiOnly`.
-/

namespace MarkupGrammar

namespace Json

/-- A text as a piece of output; an empty text is no piece. -/
def piece (t : Text) : List Text := if t.isEmpty then [] else [t]

/-- How a value is laid out: on one line, or one item to a line with each level indented by a number
of spaces. -/
inductive Layout where
  | oneLine
  | indented (step : Nat)

namespace Layout

/-- What stands before an item at a depth. -/
def lineBreak (layout : Layout) (depth : Nat) : Text :=
  match layout with
  | .oneLine => []
  | .indented step =>
    CodePoint.ofChar '\n' :: List.replicate (step * depth) (CodePoint.ofChar ' ')

/-- What stands between two items at a depth. -/
def separator (layout : Layout) (depth : Nat) : Text :=
  match layout with
  | .oneLine => Text.ofString ", "
  | .indented _ => CodePoint.ofChar ',' :: layout.lineBreak depth

end Layout

/-- One code point inside a JSON string. -/
def escape (asciiOnly : Bool) (c : CodePoint) : Text :=
  let unit (n : Nat) : Text :=
    Text.ofString "\\u"
      ++ [12, 8, 4, 0].map fun shift => CodePoint.hexDigit (n / Nat.pow 2 shift % 16)
  if c = CodePoint.ofChar '"' || c = CodePoint.ofChar '\\' then [CodePoint.ofChar '\\', c]
  else if c.val = 0x08 then Text.ofString "\\b"
  else if c.val = 0x09 then Text.ofString "\\t"
  else if c.val = 0x0A then Text.ofString "\\n"
  else if c.val = 0x0C then Text.ofString "\\f"
  else if c.val = 0x0D then Text.ofString "\\r"
  else if c.val < 0x20 then unit c.val
  else if !asciiOnly || c.val < 0x7F then [c]
  else if c.val < 0x10000 then unit c.val
  else unit (0xD800 + (c.val - 0x10000) / 0x400) ++ unit (0xDC00 + (c.val - 0x10000) % 0x400)

/-- A text as a JSON string. -/
def quoteString (asciiOnly : Bool) (t : Text) : Text :=
  CodePoint.ofChar '"' :: t.flatMap (escape asciiOnly) ++ [CodePoint.ofChar '"']

/-- The JSON text of a scalar; an array or object has none. -/
def scalarText (asciiOnly : Bool) : Json → Option Text
  | .null => some (Text.ofString "null")
  | .bool true => some (Text.ofString "true")
  | .bool false => some (Text.ofString "false")
  | .int i => some (Text.ofInt i)
  | .float x => some (Binary64.jsonLayout.render x)
  | .text t => some (quoteString asciiOnly t)
  | .array _ => none
  | .object _ => none

mutual

/-- The pieces of a value at a depth, the first one joined to `lead`. -/
def piecesAt (asciiOnly : Bool) (layout : Layout) (depth : Nat) (lead : Text) : Json → List Text
  | .array [] => [lead ++ Text.ofString "[]"]
  | .array (x :: xs) =>
    piece lead ++
      itemPieces asciiOnly layout (depth + 1)
        (CodePoint.ofChar '[' :: layout.lineBreak (depth + 1)) (x :: xs)
      ++ piece (layout.lineBreak depth) ++ [Text.ofString "]"]
  | .object [] => [lead ++ Text.ofString "\x7b\x7d"]
  | .object (f :: fs) =>
    piece lead ++ [Text.ofString "\x7b"] ++ piece (layout.lineBreak (depth + 1))
      ++ fieldPieces asciiOnly layout (depth + 1) [] (f :: fs)
      ++ piece (layout.lineBreak depth) ++ [Text.ofString "\x7d"]
  | v => [lead ++ (scalarText asciiOnly v).getD []]

/-- The pieces of the items of an array; `lead` stands before the first. -/
def itemPieces (asciiOnly : Bool) (layout : Layout) (depth : Nat) (lead : Text) :
    List Json → List Text
  | [] => []
  | x :: xs =>
    piecesAt asciiOnly layout depth lead x
      ++ itemPieces asciiOnly layout depth (layout.separator depth) xs

/-- The pieces of the fields of an object; `lead` stands before the first. -/
def fieldPieces (asciiOnly : Bool) (layout : Layout) (depth : Nat) (lead : Text) :
    List (Text × Json) → List Text
  | [] => []
  | (k, v) :: r =>
    piece lead ++ [quoteString asciiOnly k, Text.ofString ": "]
      ++ piecesAt asciiOnly layout depth [] v
      ++ fieldPieces asciiOnly layout depth (layout.separator depth) r

end

/-- The pieces of a value's JSON text. -/
def pieces (layout : Layout) (v : Json) : List Text := piecesAt false layout 0 [] v

/-- The JSON text of a value. -/
def print (layout : Layout) (v : Json) : Text := (pieces layout v).flatten

/-- The JSON text of a value on one line, in ASCII. -/
def printAscii (v : Json) : Text := (piecesAt true .oneLine 0 [] v).flatten

end Json

end MarkupGrammar
