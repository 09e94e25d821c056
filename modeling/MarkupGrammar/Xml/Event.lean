import MarkupGrammar.Xml.Declaration

/-!
# The constructs of XML content

Content is a sequence of constructs: tags, character data, references, comments and instructions.
Whether the tags nest, whether names are bound to namespaces and whether entities are declared is
not asked here. An attribute's value is kept as it is written, since its references may need
declarations to be resolved. Of the line ends in character data only line feeds remain.

Constructs are taken one at a time: what follows a document's root need not be content at all. A tag
has fewer attributes than there are code points left, so any bound on their number is budget enough.
-/

namespace MarkupGrammar

/-- One construct of content. -/
inductive XmlEvent where
  /-- A start tag, or an empty-element tag when `isEmpty`. -/
  | startTag (name : Text) (attributes : List (Text × Text)) ( isEmpty : Bool)
  | endTag (name : Text)
  /-- Character data as it stands in the document, but for its line ends. -/
  | characters (t : Text)
  /-- Character data that does not stand for itself: a section, a character reference or one of the
  predefined entities. -/
  | literal (t : Text)
  | reference (entity : Text)
  | comment
  | instruction (target : Text)

namespace XmlEvent

/-- The attributes of a tag whose name has been passed, up to its end; whether the tag is an
empty-element tag. Each attribute needs white space before it. -/
def scanAttributes : Nat → Scanner (List (Text × Text) × Bool)
  | 0 => failure
  | budget + 1 => do
    let spaced ← Scanner.blanks
    if ← Scanner.accept ">" then return ([], false)
    if ← Scanner.accept "/>" then return ([], true)
    guard spaced
    let name ← Scanner.name
    let _ ← Scanner.blanks
    Scanner.expect "="
    let _ ← Scanner.blanks
    let value ← Declaration.scanValue
    let (attributes, isEmpty) ← scanAttributes budget
    return ((name, value) :: attributes, isEmpty)

/-- The construct that begins with a `<` that has been passed. -/
def scanMarkup (budget : Nat) : Scanner XmlEvent := do
  if ← Scanner.accept "!--" then
    let _ ← Scanner.commentBody
    return .comment
  if ← Scanner.accept "![CDATA[" then
    let body ← Scanner.upTo "]]>"
    guard (body.all CodePoint.isXml)
    return .literal (Text.unifyLineEnds body)
  if ← Scanner.accept "?" then
    return .instruction (← Scanner.instructionBody)
  if ← Scanner.accept "/" then
    let name ← Scanner.name
    let _ ← Scanner.blanks
    Scanner.expect ">"
    return .endTag name
  let name ← Scanner.name
  let (attributes, isEmpty) ← scanAttributes budget
  return .startTag name attributes isEmpty

/-- The construct that begins with a `&` that has been passed. -/
def scanReference : Scanner XmlEvent := do
  if ← Scanner.accept "#" then
    return .literal [← Scanner.characterReference]
  let name ← Scanner.name
  Scanner.expect ";"
  match Scanner.predefined? name with
  | some c => return .literal [c]
  | none => return .reference name

/-- The next construct of a text that is not empty. -/
def scanOne (budget : Nat) : Scanner XmlEvent := do
  if ← Scanner.accept "<" then scanMarkup budget
  else if ← Scanner.accept "&" then scanReference
  else
    let data ← Scanner.takeRun fun c => c.val != 0x3C && c.val != 0x26
    guard (data.all CodePoint.isXml && !Text.includes (Text.ofString "]]>") data)
    return .characters (Text.unifyLineEnds data)

end XmlEvent

end MarkupGrammar
