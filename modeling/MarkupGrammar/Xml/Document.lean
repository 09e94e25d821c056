import MarkupGrammar.Xml.Content
import MarkupGrammar.Xml.Subset

/-!
# XML documents

A document is an optional XML declaration, an optional document type declaration and one element,
with comments, instructions and white space around them. `Xml.parse?` reads it strictly: it gives
the root of the tree or nothing.

What follows the root is looked at only in a document without errors. After an error it is up to the
last complaint whether the document counts as well formed.
-/

namespace MarkupGrammar

namespace Xml

/-- An equals sign with white space around it. -/
def scanEquals : Scanner Unit := do
  let _ ← Scanner.blanks
  Scanner.expect "="
  let _ ← Scanner.blanks

/-- Whether the text is the number of a version of XML 1. -/
def isVersion (t : Text) : Bool :=
  match Text.after? (Text.ofString "1.") t with
  | some r => r.all CodePoint.isAsciiDigit
  | none => false

/-- Whether the text can be the name of an encoding. -/
def isEncodingName : Text → Bool
  | [] => false
  | c :: r =>
    c.isAsciiLetter && r.all fun d =>
      d.isAsciiLetter || d.isAsciiDigit || d.val = 0x2E || d.val = 0x5F || d.val = 0x2D

/-- Whether a document says of itself that it stands alone; the keyword has been passed. -/
def scanStandalone : Scanner Bool := do
  scanEquals
  let word ← Scanner.quoted
  if word = Text.ofString "yes" then return true
  guard (word = Text.ofString "no")
  return false

/-- Reads an XML declaration whose opening has been passed: whether the document stands alone. A
version that is not the first is worth a warning. -/
def readDeclaration : XmlReader Bool := do
  let (version, isStandalone) ← XmlReader.scan (do
    Scanner.someBlanks
    Scanner.expect "version"
    scanEquals
    let version ← Scanner.quoted
    guard (isVersion version)
    let spaced ← Scanner.blanks
    let hasEncoding ← (if spaced then Scanner.accept "encoding" else pure false)
    if hasEncoding then
      scanEquals
      guard (isEncodingName (← Scanner.quoted))
    let spaced ← (if hasEncoding then Scanner.blanks else pure spaced)
    let hasStandalone ← (if spaced then Scanner.accept "standalone" else pure false)
    let isStandalone ← (if hasStandalone then scanStandalone else pure false)
    let _ ← Scanner.blanks
    Scanner.expect "?>"
    return (version, isStandalone))
  if version != Text.ofString "1.0" then XmlReader.complain .warning
  return isStandalone

/-- Reads the comments, instructions and white space outside the root. -/
def readMisc : Nat → XmlReader Unit
  | 0 => failure
  | budget + 1 => do
    let _ ← XmlReader.scan Scanner.blanks
    if ← XmlReader.scan (Scanner.accept "<!--") then
      let _ ← XmlReader.scan Scanner.commentBody
      readMisc budget
    else if ← XmlReader.scan (Scanner.accept "<?") then
      XmlReader.instruction
      readMisc budget

/-- Reads what stands before the root. -/
def readProlog : XmlReader Unit := do
  let isDeclared ← XmlReader.scan (do
    let isNamed ← Scanner.sees "<?xml"
    return isNamed && (((← get).drop 5).head?.any CodePoint.isMarkupSpace))
  if isDeclared then
    XmlReader.scan (Scanner.expect "<?xml")
    let isStandalone ← readDeclaration
    XmlReader.modifyDocType fun d => { d with isStandalone }
  readMisc ((← get).text.length + 1)
  if ← XmlReader.scan (Scanner.accept "<!DOCTYPE") then
    XmlReader.readDocType
    readMisc ((← get).text.length + 1)

/-- Reads the root of a document with all that is in it. -/
def readRoot : XmlReader XmlNode := do
  let budget := (← get).text.length + 1
  match ← XmlReader.scan (XmlEvent.scanOne budget) with
  | .startTag name attributes isEmpty =>
    let room := XmlReader.greatestNesting
    let document := OpenNode.root .document
    let opened ← XmlReader.readStartTag room false document [] name attributes isEmpty
    let closed ← XmlReader.readContent room budget false opened
    liftM (closed.head?.bind fun d => d.reversedChildren.head?)
  | _ => failure

/-- Reads a whole document. -/
def readDocument : XmlReader XmlNode := do
  readProlog
  let root ← readRoot
  readMisc ((← get).text.length + 1)
  let r ← get
  guard (r.text.isEmpty || r.complaints.hasErrors)
  guard r.complaints.isForgiven
  return root

/-- Reads a document strictly: its root, or nothing when it is not well formed. -/
def parse? (document : Text) : Option XmlNode :=
  let t := (Text.after? (Text.ofString "\uFEFF") document).getD document
  (readDocument.run (Reading.start t)).map (·.1)

/-- Whether a document is well formed. -/
def isWellFormed (document : Text) : Bool := (parse? document).isSome

end Xml

end MarkupGrammar
