import MarkupGrammar.Xml.Scanner

/-!
# Literals and values

A literal is what stands between quotes. It is made of code points as they are written, code points
that are given by their numbers, and references to entities. The value of an attribute is its
literal with the first two kinds told apart no longer: white space as it is written has become a
blank, but references stay until somebody asks for the text they stand for.

Of the line ends in a document's text only line feeds remain. The literal of an entity is the
exception: it is kept as it is, and its line ends are looked at when its text is read.
-/

namespace MarkupGrammar

/-- A part of a literal: a code point as it is written, one given by its number, or a reference. -/
inductive LiteralPart where
  | written (c : CodePoint)
  | numbered (c : CodePoint)
  | reference (entity : Text)

namespace LiteralPart

/-- The next part of a literal that is not empty. -/
def scanOne : Scanner LiteralPart := do
  if ← Scanner.accept "&#" then return .numbered (← Scanner.characterReference)
  if ← Scanner.accept "&" then
    let name ← Scanner.name
    Scanner.expect ";"
    return .reference name
  match ← get with
  | [] => failure
  | c :: r =>
    set r
    return .written c

/-- The parts of a literal after those in `found`, which are in reverse. Each takes at least one
code point, so the length is budget enough. -/
def scanAll : Nat → List LiteralPart → Text → Option (List LiteralPart)
  | _, found, [] => some found.reverse
  | 0, _, _ => none
  | budget + 1, found, t =>
    match scanOne.run t with
    | none => none
    | some (part, rest) => scanAll budget (part :: found) rest

/-- The parts of a literal, if its references are complete. -/
def ofText? (t : Text) : Option (List LiteralPart) := scanAll t.length [] t

end LiteralPart

/-- A piece of an attribute's value. -/
inductive ValuePiece where
  | point (c : CodePoint)
  | reference (entity : Text)

namespace ValuePiece

/-- A blank. -/
def blank : ValuePiece := .point (CodePoint.ofChar ' ')

def isBlank : ValuePiece → Bool
  | .point c => c.val = 0x20
  | .reference _ => false

/-- The value of white space as it is written is a blank. -/
def ofWritten (c : CodePoint) : ValuePiece := if c.isMarkupSpace then blank else .point c

/-- The text of a piece that leaves references as they are. -/
def written : ValuePiece → Text
  | .point c => [c]
  | .reference entity => Text.ofString "&" ++ entity ++ Text.ofString ";"

/-- The text of a piece as a literal could have it: an ampersand is written by its number, so that
it is not taken for the beginning of a reference. -/
def source : ValuePiece → Text
  | .point c => if c.val = 0x26 then Text.ofString "&#38;" else [c]
  | .reference entity => Text.ofString "&" ++ entity ++ Text.ofString ";"

/-- One blank for each run of blanks, and none at the end. -/
def collapse : List ValuePiece → List ValuePiece
  | [] => []
  | p :: r =>
    if p.isBlank && (r.head?.all isBlank) then collapse r else p :: collapse r

/-- The value of an attribute that consists of tokens: single blanks between them and none
around. -/
def tokens (value : List ValuePiece) : List ValuePiece := collapse (value.dropWhile isBlank)

/-- The text of a value that has no references. -/
def plainText? (value : List ValuePiece) : Option Text :=
  value.mapM fun piece =>
    match piece with
    | .point c => some c
    | .reference _ => none

end ValuePiece

end MarkupGrammar
