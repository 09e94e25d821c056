import MarkupGrammar.Json.Reader
import MarkupGrammar.Text.Utf8

/-!
# JSON as octets

A JSON text that arrives as octets does not say how it is encoded. But it begins with two code
points that are ASCII, so the zeros among its first octets tell: each code point takes one, two or
four octets, and in the last two cases the octet that is not zero comes first or last.
-/

namespace MarkupGrammar

namespace Json

/-- How the code points of a text are laid out in octets. -/
inductive OctetLayout where
  /-- Each code point takes as many octets as it needs. -/
  | narrow
  /-- Units of a fixed width, with their least octet first or last. -/
  | wide (width : Nat) (leastFirst : Bool)
deriving DecidableEq

namespace OctetLayout

/-- The layout of a text, by its first octets. -/
def ofOctets (octets : List Nat) : OctetLayout :=
  match octets with
  | [0, _] => .wide 2 false
  | [_, 0] => .wide 2 true
  | 0 :: 0 :: _ :: _ :: _ => .wide 4 false
  | 0 :: _ :: _ :: _ :: _ => .wide 2 false
  | _ :: 0 :: 0 :: 0 :: _ => .wide 4 true
  | _ :: 0 :: _ :: _ :: _ => .wide 2 true
  | _ => .narrow

end OctetLayout

/-- The numbers that are written in units of one width. No octets may be left over. -/
def unitsOf? (width : Nat) (leastFirst : Bool) : Nat → List Nat → Option (List Nat)
  | _, [] => some []
  | 0, _ => none
  | budget + 1, octets =>
    let unit := octets.take width
    if unit.length < width then none
    else
      let ordered := if leastFirst then unit.reverse else unit
      let n := ordered.foldl (fun n octet => 0x100 * n + octet) 0
      (unitsOf? width leastFirst budget (octets.drop width)).map (n :: ·)

/-- The code point with a number, if there is one. -/
def codePoint? (n : Nat) : Option CodePoint := if h : n < 0x110000 then some ⟨n, h⟩ else none

/-- The text that arrives as the octets of `body`, if they can be decoded. A mark that says how the
octets are laid out is no part of it. -/
def textOfBody (body : Text) : Option Text :=
  match OctetLayout.ofOctets (Utf8.encode (body.take 4)) with
  | .narrow => some ((Text.after? [CodePoint.ofNat 0xFEFF] body).getD body)
  | .wide width leastFirst => do
    let octets := Utf8.encode body
    let units ← unitsOf? width leastFirst octets.length octets
    let points ← units.mapM codePoint?
    return if width = 2 then joinPairs points else points

end Json

end MarkupGrammar
