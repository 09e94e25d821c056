import MarkupGrammar.Xml.Declaration
import MarkupGrammar.Xml.Expansion

/-!
# Internal subsets

The declarations of a document type are taken in one after the other. Of several declarations of one
entity or attribute the first counts. The text of a parameter entity is read in the place of a
reference to it; it consists of whole declarations.
-/

namespace MarkupGrammar

namespace XmlReader

/-- Whether a replacement text declares a predefined entity as what it is: three of the five may be
declared by their own character, and each by a reference to it by number. -/
def declaresPredefined (c : CodePoint) (replacement : Text) : Bool :=
  let decimal := Text.ofString "&#" ++ Text.ofNat c.val ++ Text.ofString ";"
  let digits (last : Nat) : Text := [CodePoint.hexDigit (c.val / 16), CodePoint.hexDigit last]
  let lastDigit := c.val % 16
  let hex (t : Text) : Text := Text.ofString "&#x" ++ t ++ Text.ofString ";"
  let upper (t : Text) : Text :=
    t.map fun d => if d.isAsciiLower then CodePoint.ofNat (d.val - 0x20) else d
  (replacement = [c] && c.val != 0x26 && c.val != 0x3C) || replacement = decimal
    || replacement = hex (digits lastDigit) || replacement = hex (upper (digits lastDigit))

/-- The replacement text of a literal. References by number are replaced at once, references by name
stay. A parameter entity that is declared must not be used here; one that is not ends the text. A
literal takes up the `room` of one text. -/
def replacementText (room : Nat) (literal : Text) : XmlReader Text := do
  guard (0 < room)
  let isMark (c : CodePoint) : Bool := c.val = 0x25
  let parts ← liftM (LiteralPart.ofText? (literal.takeWhile fun c => !isMark c))
  let pieces ← parts.mapM fun part => do
    match part with
    | .written c =>
      guard c.isXml
      return [c]
    | .numbered c => return [c]
    | .reference name => return (ValuePiece.reference name).written
  match literal.dropWhile fun c => !isMark c with
  | [] => pure ()
  | _ :: rest =>
    let scanName : Scanner Text := do
      let name ← Scanner.name
      Scanner.expect ";"
      return name
    let (name, _) ← liftM (scanName.run rest)
    modifyDocType fun d => { d with usesParameters := true }
    guard ((← docType).parameter? name).isNone
    undeclared
  return pieces.flatten

/-- The greatest number of octets of a system literal that is worth no warning. -/
def greatestSystemSize : Nat := 2000

/-- A system literal that is long is worth a warning. -/
def checkSystem (system : Text) : XmlReader Unit :=
  if greatestSystemSize < Utf8.size system then complain .warning else pure ()

/-- Adds an entity unless it is there already. -/
def addEntity (name : Text) (content : EntityContent) (system : Option Text) : XmlReader Unit := do
  if ((← docType).entity? name).isNone then
    modifyDocType fun d => { d with entities := d.entities ++ [(name, .ofContent content)] }
    system.forM checkSystem

/-- Declares an entity. A predefined one keeps its meaning, and it is worth a warning to give it
another; it cannot be something that is no text. -/
def declareEntity (room : Nat) (name : Text) (definition : EntityDefinition) : XmlReader Unit := do
  require !(name.contains (CodePoint.ofChar ':'))
  match Scanner.predefined? name, definition with
  | none, .literal literal => addEntity name (.replacement (← replacementText room literal)) none
  | none, .external system => addEntity name .external (some system)
  | none, .unparsed system => addEntity name .unparsed (some system)
  | some c, .literal literal =>
    if !declaresPredefined c (← replacementText room literal) then complain .warning
  | some _, .external _ => complain .warning
  | some _, .unparsed _ => failure

/-- Declares a parameter entity. -/
def declareParameter (room : Nat) (name : Text) (definition : EntityDefinition) :
    XmlReader Unit := do
  require !(name.contains (CodePoint.ofChar ':'))
  let add (content : Option Text) (system : Option Text) : XmlReader Unit := do
    if ((← docType).parameter? name).isNone then
      modifyDocType fun d => { d with parameters := d.parameters ++ [(name, content)] }
      system.forM checkSystem
  match definition with
  | .literal literal => add (some (← replacementText room literal)) none
  | .external system => add none (some system)
  | .unparsed system => add none (some system)

/-- Declares an attribute of an element. Its default has to be of its type; `xml:id` has to be an
identifier, and an element has no more than one. -/
def declareAttribute (room : Nat) (element : Text) (definition : AttributeDefinition) :
    XmlReader Unit := do
  let fallback ← definition.fallback.mapM fun literal => do
    let value ← readValue true room literal
    let value := if definition.type = .characterData then value else ValuePiece.tokens value
    return value.flatMap ValuePiece.source
  let isAdmitted := fallback.all definition.type.admits
  require (definition.name != Text.ofString "xml:id" || definition.type = .identifier)
  require isAdmitted
  let d ← docType
  if (d.rule? element definition.name).isSome then complain .warning
  else
    let hasIdentifier := d.rules.any fun rule => rule.element = element && rule.type = .identifier
    require !(definition.type = .identifier && hasIdentifier)
    modifyDocType fun d =>
      { d with rules := d.rules ++ [⟨element, definition.name, definition.type, fallback, isAdmitted⟩] }

/-- Takes in a declaration that is no reference. -/
def declare (room : Nat) : Declaration → XmlReader Unit
  | .element name => do
    require !((← docType).elements.contains name)
    modifyDocType fun d => { d with elements := name :: d.elements }
  | .attributes element definitions => definitions.forM (declareAttribute room element)
  | .entity name definition => declareEntity room name definition
  | .parameter name definition => declareParameter room name definition
  | .format name => do
    require !(name.contains (CodePoint.ofChar ':'))
    require !((← docType).formats.contains name)
    modifyDocType fun d => { d with formats := name :: d.formats }
  | .instruction target => checkTarget target
  | .comment => pure ()
  | .parameterReference _ => pure ()

/-- Reads declarations up to the end of the text at hand, or up to a closing bracket that is passed
when `bracketed`. Each declaration takes at least one code point, so the length of the text is
budget enough. -/
def readDeclarations : Nat → Nat → Bool → XmlReader Unit
  | _, 0, _ => failure
  | room, budget + 1, bracketed => do
    let _ ← scan Scanner.blanks
    if bracketed && (← scan (Scanner.accept "]")) then return ()
    if !bracketed && (← get).text.isEmpty then return ()
    match ← scan Declaration.scanOne with
    | .parameterReference name =>
      modifyDocType fun d => { d with usesParameters := true }
      match (← docType).parameter? name with
      | none => undeclared
      | some none => pure ()
      | some (some t) =>
        spend (Utf8.size t)
        match room with
        | 0 => failure
        | room + 1 => inside t (readDeclarations room (t.length + 1) false)
    | declaration => declare room declaration
    readDeclarations room budget bracketed
termination_by room budget => (room, budget)

/-- Reads a document type declaration whose keyword has been passed. -/
def readDocType : XmlReader Unit := do
  let hasExternalSubset ← scan (do
    Scanner.someBlanks
    let _ ← Scanner.name
    let _ ← Scanner.blanks
    let system ← Declaration.scanExternal
    let _ ← Scanner.blanks
    return system.isSome)
  modifyDocType fun d => { d with hasExternalSubset }
  if ← scan (Scanner.accept "[") then
    readDeclarations greatestNesting ((← get).text.length + 1) true
  scan (do
    let _ ← Scanner.blanks
    Scanner.expect ">")

end XmlReader

end MarkupGrammar
