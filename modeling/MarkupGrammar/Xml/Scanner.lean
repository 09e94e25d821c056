import MarkupGrammar.Text.Blank
import MarkupGrammar.Text.Utf8
import MarkupGrammar.Xml.Name

/-!
# Scanning XML

The grammar of XML decides by the next few characters what comes, so a scanner is a function that
takes something from the front of a text or fails. A failure ends the whole document: there is
no recovery.
-/

namespace MarkupGrammar

/-- Takes a value from the front of a text, or fails. -/
abbrev Scanner := StateT Text Option

namespace Scanner

/-- Passes over a literal if it stands there; says whether it did. -/
def accept (literal : String) : Scanner Bool := do
  match Text.after? (Text.ofString literal) (← get) with
  | some rest =>
    set rest
    return true
  | none => return false

/-- Passes over a literal that has to stand there. -/
def expect (literal : String) : Scanner Unit := do
  guard (← accept literal)

/-- Whether a literal stands there. -/
def sees (literal : String) : Scanner Bool := do
  return Text.startsWith (Text.ofString literal) (← get)

/-- The longest run of code points for which `p` holds. -/
def takeRun (p : CodePoint → Bool) : Scanner Text := do
  let t ← get
  set (t.dropWhile p)
  return t.takeWhile p

/-- Passes over white space; says whether there was any. -/
def blanks : Scanner Bool := do
  return !(← takeRun CodePoint.isMarkupSpace).isEmpty

/-- Passes over white space that has to be there. -/
def someBlanks : Scanner Unit := do
  guard (← blanks)

/-- The greatest number of octets of a name or of a literal that identifies something. -/
def greatestLength : Nat := 50000

/-- A name token: any code points that may stand in a name, colons among them. -/
def nameToken : Scanner Text := do
  let t ← takeRun fun c => c.continuesXmlName || c.val = 0x3A
  guard (!t.isEmpty && Utf8.size t ≤ greatestLength)
  return t

/-- A name, which may hold colons. It begins with a letter, an underscore or a colon. -/
def name : Scanner Text := do
  let t ← nameToken
  guard (t.head?.any fun c => c.beginsXmlName || c.val = 0x3A)
  return t

/-- What stands before the first occurrence of a literal, and passes over the literal. -/
def upTo (literal : String) : Scanner Text := do
  match Text.cutAt? (Text.ofString literal) (← get) with
  | some (before, rest) =>
    set rest
    return before
  | none => failure

/-- What stands between a pair of quotes, which have to open at once. -/
def quoted : Scanner Text := do
  if ← accept "\"" then upTo "\"" else
  expect "'"
  upTo "'"

/-- The body of a comment whose opening has been passed. It holds no two hyphens in a row. -/
def commentBody : Scanner Text := do
  let body ← upTo "--"
  expect ">"
  guard (body.all CodePoint.isXml)
  return body

/-- The target of a processing instruction whose opening has been passed. The name of the XML
declaration is reserved in every case. -/
def instructionBody : Scanner Text := do
  let target ← name
  let isReserved :=
    match target with
    | [x, m, l] =>
      (x.val = 0x78 || x.val = 0x58) && (m.val = 0x6D || m.val = 0x4D)
        && (l.val = 0x6C || l.val = 0x4C)
    | _ => false
  guard !isReserved
  if ← accept "?>" then return target
  someBlanks
  let body ← upTo "?>"
  guard (body.all CodePoint.isXml)
  return target

/-- The number of a character reference whose `&#` has been passed. -/
def characterReference : Scanner CodePoint := do
  let isHex ← accept "x"
  let digits ← upTo ";"
  guard !digits.isEmpty
  let base := if isHex then 16 else 10
  let number ← digits.foldlM (m := Option) (fun n c => do
    let d ← c.hexDigit?
    guard (d < base)
    -- beyond the last code point the exact number no longer matters
    return min (base * n + d) 0x110000) 0
  guard (number < 0x110000)
  let c := CodePoint.ofNat number
  guard c.isXml
  return c

/-- The five entities that every document has. -/
def predefined? (entity : Text) : Option CodePoint :=
  let table : List (String × Char) :=
    [("lt", '<'), ("gt", '>'), ("amp", '&'), ("quot", '"'), ("apos", '\'')]
  table.findSome? fun (word, c) =>
    if Text.ofString word = entity then some (CodePoint.ofChar c) else none

end Scanner

end MarkupGrammar
