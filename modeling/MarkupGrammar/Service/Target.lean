import MarkupGrammar.Service.Host
import MarkupGrammar.Text.Percent

/-!
# Targets

The target of a request says what is asked for. It may be a path alone or a whole address, with a
scheme, an authority, a path, a query and a fragment. Only the path decides what is found, but what
stands around it has to be in order.

A path that begins like an address is taken for one again, so that slashes at the beginning of a
target are used up in pairs.
-/

namespace MarkupGrammar

/-- The parts of a target. -/
structure Target where
  scheme : Text
  authority : Text
  path : Text
  query : Text

namespace Target

/-- A target without the controls and blanks before it, and without tabs and line ends. -/
def clean (t : Text) : Text :=
  (t.dropWhile fun c => c.val ≤ 0x20).filter fun c =>
    c.val != 0x09 && c.val != 0x0A && c.val != 0x0D

/-- Whether a code point may stand in a scheme. -/
def isSchemeMark (c : CodePoint) : Bool :=
  c.isAsciiLetter || c.isAsciiDigit || c.val = 0x2B || c.val = 0x2D || c.val = 0x2E

/-- Cuts the scheme off a target. -/
def cutScheme (t : Text) : Text × Text :=
  match Text.cutAt? (Text.ofString ":") t with
  | none => ([], t)
  | some (scheme, rest) =>
    if scheme.head?.any CodePoint.isAsciiLetter && scheme.all isSchemeMark then (scheme.lower, rest)
    else ([], t)

/-- Cuts the authority off what follows the scheme. -/
def cutAuthority (t : Text) : Text × Text :=
  match Text.after? (Text.ofString "//") t with
  | none => ([], t)
  | some r =>
    let isPart (c : CodePoint) : Bool := c.val != 0x2F && c.val != 0x3F && c.val != 0x23
    (r.takeWhile isPart, r.dropWhile isPart)

/-- The parts of a target. Its authority has to be well formed. -/
def ofText (t : Text) : Except Fault Target := do
  let (scheme, t) := cutScheme (clean t)
  let (authority, t) := cutAuthority t
  let (path, query) := Host.partition '?' (Host.partition '#' t).1
  Host.checkForm authority
  return ⟨scheme, authority, path, query⟩

/-- The path of a target in its final form, with what it holds of an authority written in front. -/
def finalPath (t : Target) : Except Fault Text := do
  if t.path.any CodePoint.isSurrogate then throw .unencodable
  Host.check t.authority
  let address := if t.authority.isEmpty then [] else Text.ofString "//" ++ t.authority.lower
  let scheme := if t.scheme.isEmpty then [] else t.scheme ++ Text.ofString ":"
  return Text.percentDecode (scheme ++ address ++ t.path)

/-- What a target leads to: the scheme it is asked for by, and a path with one slash at its
beginning. -/
def resolve (target : Text) : Except Fault (Text × Text) := do
  let slash := CodePoint.ofChar '/'
  let whole ← ofText target
  let again ← ofText whole.path
  let path ← (← ofText again.path).finalPath
  Host.check whole.authority
  return (whole.scheme, slash :: path.dropWhile (· == slash))

end Target

end MarkupGrammar
