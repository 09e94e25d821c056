import MarkupGrammar.Xml.Scanner

/-!
# The syntax of URI references

A namespace is named by a URI reference. Only its syntax matters here: whether the text is one, and
whether it begins with a scheme. A text is tried with a scheme first and without one after that.

Between brackets a host may be anything, and after the colon that follows a host there is always a
number.
-/

namespace MarkupGrammar

/-- The two kinds of URI references. -/
inductive UriForm where
  | absolute
  | relative
deriving DecidableEq

namespace UriForm

def isUnreserved (c : CodePoint) : Bool :=
  c.isAsciiLetter || c.isAsciiDigit || c.val = 0x2D || c.val = 0x2E || c.val = 0x5F || c.val = 0x7E

/-- Whether the code point is one of `! $ & ' ( ) * + , ; =`. -/
def isSubDelimiter (c : CodePoint) : Bool :=
  c.val = 0x21 || c.val = 0x24 || (0x26 ≤ c.val && c.val ≤ 0x2C) || c.val = 0x3B || c.val = 0x3D

/-- Whether the code point may stand in a host. -/
def isHostPoint (c : CodePoint) : Bool := isUnreserved c || isSubDelimiter c

/-- Whether the code point may stand in a path segment. -/
def isSegmentPoint (c : CodePoint) : Bool := isHostPoint c || c.val = 0x3A || c.val = 0x40

/-- Whether the code point may stand in a path. -/
def isPathPoint (c : CodePoint) : Bool := isSegmentPoint c || c.val = 0x2F

/-- What is left after the longest run of allowed code points and percent-encoded octets. -/
def afterRun (allowed : CodePoint → Bool) : Text → Text
  | [] => []
  | c :: r =>
    if allowed c then afterRun allowed r
    else if c = CodePoint.ofChar '%' then
      match r with
      | a :: b :: r' =>
        if a.hexDigit?.isSome && b.hexDigit?.isSome then afterRun allowed r' else c :: r
      | _ => c :: r
    else c :: r

/-- Passes over the longest run of allowed code points and percent-encoded octets. -/
def skip (allowed : CodePoint → Bool) : Scanner Unit := modify (afterRun allowed)

/-- The greatest number that may follow a host. -/
def greatestPort : Nat := 2147483647

/-- The number after a host. -/
def scanPort : Scanner Unit := do
  let digits ← Scanner.takeRun CodePoint.isAsciiDigit
  guard !digits.isEmpty
  -- once it is too great the exact number no longer matters
  let number := digits.foldl (fun n c => min (10 * n + (c.val - 0x30)) (greatestPort + 1)) 0
  guard (number ≤ greatestPort)

/-- A host, with what is said of a user before it and a number after it. -/
def scanAuthority : Scanner Unit := do
  let start ← get
  skip fun c => isHostPoint c || c.val = 0x3A
  if !(← Scanner.accept "@") then set start
  if ← Scanner.accept "[" then
    let _ ← Scanner.upTo "]"
  else skip isHostPoint
  if ← Scanner.accept ":" then scanPort

/-- An authority with a path, or a path alone. The first segment of a relative path has no colon,
which would end a scheme. -/
def scanHierarchy (form : UriForm) : Scanner Unit := do
  if ← Scanner.accept "//" then
    scanAuthority
    if ← Scanner.sees "/" then skip isPathPoint
  else if form = .absolute || (← Scanner.sees "/") then skip isPathPoint
  else
    guard !(← Scanner.sees ":")
    skip fun c => isSegmentPoint c && c.val != 0x3A
    if ← Scanner.sees "/" then skip isPathPoint

/-- The scheme of an absolute reference, with its colon. -/
def scanScheme : Scanner Unit := do
  guard ((← get).head?.any CodePoint.isAsciiLetter)
  let _ ← Scanner.takeRun fun c =>
    c.isAsciiLetter || c.isAsciiDigit || c.val = 0x2B || c.val = 0x2D || c.val = 0x2E
  Scanner.expect ":"

/-- A whole reference of one form. -/
def scan (form : UriForm) : Scanner Unit := do
  if form = .absolute then scanScheme
  scanHierarchy form
  let isQueryPoint (c : CodePoint) : Bool := isPathPoint c || c.val = 0x3F
  if ← Scanner.accept "?" then skip isQueryPoint
  if ← Scanner.accept "#" then skip fun c => isQueryPoint c || c.val = 0x5B || c.val = 0x5D
  guard (← get).isEmpty

/-- The form of a URI reference, if the text is one. -/
def ofText? (t : Text) : Option UriForm :=
  if ((scan .absolute).run t).isSome then some .absolute
  else if ((scan .relative).run t).isSome then some .relative
  else none

end UriForm

end MarkupGrammar
