import MarkupGrammar.Text.Basic

/-!
# Paths

A path is what is left of its text when empty components and single points are dropped; two points
are kept, because what they mean depends on the files that are there. One or three slashes and more
at the beginning make a path absolute, exactly two are a root of their own. The text of a path is
thus a normal form: reading it gives the path again.
-/

namespace MarkupGrammar

/-- A path: its root, which is empty for a relative path, and its components. -/
structure Path where
  root : Text
  parts : List Text
deriving DecidableEq

namespace Path

/-- The code point between components. -/
def slash : CodePoint := CodePoint.ofChar '/'

/-- The component that leads to the parent. -/
def up : Text := Text.ofString ".."

/-- The components of a text that count. -/
def partsOf (t : Text) : List Text :=
  (Text.splitOn slash t).filter fun part => !part.isEmpty && part != Text.ofString "."

/-- The root of a text with some slashes at its beginning. -/
def rootOf (t : Text) : Text :=
  match (t.takeWhile (· == slash)).length with
  | 0 => []
  | 2 => [slash, slash]
  | _ => [slash]

/-- The path of a text. -/
def ofText (t : Text) : Path := ⟨rootOf t, partsOf t⟩

/-- The text of a path. The path without components is a point. -/
def toText (p : Path) : Text :=
  match p.root ++ Text.join [slash] p.parts with
  | [] => Text.ofString "."
  | t => t

/-- The path of a text below a path; an absolute text is a path by itself. -/
def append (p : Path) (t : Text) : Path :=
  let q := ofText t
  if q.root.isEmpty then { p with parts := p.parts ++ q.parts } else q

/-- The path of what a path lies in. -/
def parent (p : Path) : Path := { p with parts := p.parts.dropLast }

/-- The last component; empty when there is none. -/
def name (p : Path) : Text := p.parts.getLast?.getD []

/-- The last point of the name with what follows it. A point at either end of the name begins no
suffix. -/
def suffix (p : Path) : Text :=
  let point := CodePoint.ofChar '.'
  let reversed := p.name.reverse
  let extension := reversed.takeWhile (· != point)
  match reversed.dropWhile (· != point) with
  | _ :: _ :: _ => if extension.isEmpty then [] else point :: extension.reverse
  | _ => []

/-- The path with every component followed by two points taken out, whatever files there are. -/
def collapsed (p : Path) : Path :=
  let step (kept : List Text) (part : Text) : List Text :=
    if part = up then
      match kept with
      | [] => if p.root.isEmpty then [up] else []
      | last :: rest => if last = up then up :: last :: rest else rest
    else part :: kept
  { p with parts := (p.parts.foldl step []).reverse }

end Path

end MarkupGrammar
