import MarkupGrammar.Text.Percent
import MarkupGrammar.Yaml.Source

/-!
# Names, tags and directives

What a node is may be said before it: an anchor names it for later, and a tag says how its value is
to be read. A tag is an address, which is written in full or with a handle for its beginning.
Directives before a document declare handles and the version of the language.
-/

namespace MarkupGrammar

namespace Yaml

/-- What a directive says. -/
inductive Directive where
  /-- The first number of the language's version. -/
  | version (major : Nat)
  /-- What a handle stands for. -/
  | handle (handle beginning : Text)
  | other
deriving DecidableEq

/-- Takes something from the front of what is left, or fails. -/
abbrev Reading := StateT Source Option

namespace Reading

/-- Passes over a character if it comes next; says whether it did. -/
def accept (ch : Char) : Reading Bool := do
  match ← get with
  | [] => return false
  | g :: r =>
    if g.is ch then
      set r
      return true
    else return false

/-- Passes over a character that has to come next. -/
def expect (ch : Char) : Reading Unit := do
  guard (← accept ch)

/-- The longest run of code points for which `p` holds. -/
def takeRun (p : Glyph → Bool) : Reading Text := do
  let s ← get
  set (s.dropWhile p)
  return Source.text (s.takeWhile p)

/-- A run that has to be there. -/
def someRun (p : Glyph → Bool) : Reading Text := do
  let t ← takeRun p
  guard !t.isEmpty
  return t

/-- Whether a space, a line end or the end of the text comes next. -/
def isAtPart : Reading Bool := do
  let s ← get
  return Source.begins " " s || Source.endsLine s

/-- The name of an anchor, whose sign has been passed. What follows it cannot go on a name. -/
def anchorName : Reading Text := do
  let name ← someRun Glyph.isWordPart
  let s ← get
  guard (Source.endsWord s || Source.begins "?:,]\x7d%@\x60" s)
  return name

/-- A text with what octets encode before it; nothing when they are not well-formed. The octets come
last first. -/
def settle? (octets : List Nat) (rest : Text) : Option Text :=
  let decoded := Utf8.decode octets.reverse
  if Utf8.encode decoded = octets.reverse then some (decoded ++ rest) else none

/-- A text with its percent-encoded octets decoded, after some octets. The count says how many code
points still belong to an octet already taken. -/
def decodeOctets? (octets : List Nat) (taken : Nat) : Text → Option Text
  | [] => settle? octets []
  | c :: r =>
    match taken with
    | n + 1 => decodeOctets? octets n r
    | 0 =>
      if c = CodePoint.ofChar '%' then
        match Text.octetAfterPercent? r with
        | some octet => decodeOctets? (octet :: octets) 2 r
        | none => none
      else (decodeOctets? [] 0 r).bind fun rest => settle? octets (c :: rest)

/-- An address: the characters that may stand in one, with encoded octets among them. -/
def address : Reading Text := do
  let written ← someRun fun g =>
    g.char.isAsciiLetter || g.char.isAsciiDigit || g.isAmong "-;/?:@&=+$,_.!~*'()[]%"
  decodeOctets? [] 0 written

/-- A handle for the beginning of a tag: an exclamation mark, or a word between two of them. -/
def handle : Reading Text := do
  let mark := CodePoint.ofChar '!'
  expect '!'
  if Source.begins " " (← get) then return [mark]
  let word ← takeRun Glyph.isWordPart
  expect '!'
  return mark :: word ++ [mark]

/-- The parts of a tag, whatever follows it: its handle, if it has one, and the rest of it. -/
def tagParts : Reading (Option Text × Text) := do
  match ← get with
  | [] => failure
  | _ :: r =>
    if Source.begins "<" r then
      set (r.drop 1)
      let whole ← address
      expect '>'
      return (none, whole)
    else if Source.endsWord r then
      set r
      return (none, Text.ofString "!")
    else
      let word := r.takeWhile fun g => !g.isSpace && !g.isBreak
      if word.any fun g => g.is '!' then return (some (← handle), ← address)
      set r
      return (some (Text.ofString "!"), ← address)

/-- A tag. -/
def tag : Reading (Option Text × Text) := do
  let parts ← tagParts
  guard (← isAtPart)
  return parts

/-- Passes over spaces. -/
def spaces : Reading Unit := do
  let _ ← takeRun Glyph.isSpace

/-- What the directive of a name says. One of an unknown name says nothing. -/
def directiveOf (name : Text) : Reading Directive := do
  if name = Text.ofString "YAML" then
    spaces
    let major ← someRun fun g => g.char.isAsciiDigit
    expect '.'
    let _ ← someRun fun g => g.char.isAsciiDigit
    guard (← isAtPart)
    return .version (Text.Numeral.value 10 (major.map fun c => c.val - 0x30))
  else if name = Text.ofString "TAG" then
    spaces
    let handle ← handle
    guard (Source.begins " " (← get))
    spaces
    let beginning ← address
    guard (← isAtPart)
    return .handle handle beginning
  else
    let _ ← takeRun fun g => !g.isBreak
    return .other

/-- A directive whose sign has been passed, and the line it stands on. -/
def directive : Reading Directive := do
  let name ← someRun Glyph.isWordPart
  guard (← isAtPart)
  let found ← directiveOf name
  match Source.afterLine? (← get) with
  | some rest =>
    set rest
    return found
  | none => failure

end Reading

end Yaml

end MarkupGrammar
