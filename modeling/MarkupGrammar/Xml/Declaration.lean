import MarkupGrammar.Xml.DocType

/-!
# Markup declarations

The syntax of what an internal subset is made of. What a declaration means depends on those before
it, so nothing is looked up here, and literals are kept as they are written.
-/

namespace MarkupGrammar

/-- What an entity is declared to be: a literal, a text outside the document, or no text at all. -/
inductive EntityDefinition where
  | literal (t : Text)
  | external (system : Text)
  | unparsed (system : Text)

/-- An attribute as it is declared, with the literal of its default. -/
structure AttributeDefinition where
  name : Text
  type : AttributeType
  fallback : Option Text

/-- A declaration of an internal subset. -/
inductive Declaration where
  | element (name : Text)
  | attributes (element : Text) (definitions : List AttributeDefinition)
  | entity (name : Text) (definition : EntityDefinition)
  | parameter (name : Text) (definition : EntityDefinition)
  | format (name : Text)
  | comment
  | instruction (target : Text)
  | parameterReference (name : Text)

namespace Declaration

/-- A literal that identifies a resource. -/
def scanSystem : Scanner Text := do
  let t ← Scanner.quoted
  guard (t.all CodePoint.isXml && Utf8.size t ≤ Scanner.greatestLength)
  return t

/-- A public identifier, which has an alphabet of its own. -/
def scanPublic : Scanner Unit := do
  let t ← Scanner.quoted
  let others := Text.ofString "-'()+,./:=?;!*#@$_%"
  guard (t.all fun c =>
    c.val = 0x20 || c.val = 0x0D || c.val = 0x0A || c.isAsciiLetter || c.isAsciiDigit
      || others.contains c)
  guard (t.length ≤ Scanner.greatestLength)

/-- An external identifier, if one stands there; its system literal. -/
def scanExternal : Scanner (Option Text) := do
  if ← Scanner.accept "SYSTEM" then
    Scanner.someBlanks
    return some (← scanSystem)
  if ← Scanner.accept "PUBLIC" then
    Scanner.someBlanks
    scanPublic
    Scanner.someBlanks
    return some (← scanSystem)
  return none

/-! ### Elements -/

/-- How deep the groups of a content model may stand inside one another. -/
def greatestGroupDepth : Nat := 256

/-- The mark of how often a content particle may occur. -/
def scanOccurrence : Scanner Unit := do
  let _ ← (Scanner.accept "?" <||> Scanner.accept "*" <||> Scanner.accept "+")

/-- The rest of a group of element content whose opening has been passed: particles separated by one
kind of mark. `room` is how many groups may stand inside it. -/
def scanGroup : Nat → Nat → Option String → Scanner Unit
  | 0, _, _ => failure
  | budget + 1, room, mark => do
    let _ ← Scanner.blanks
    if ← Scanner.accept "(" then
      guard (0 < room)
      scanGroup budget (room - 1) none
    else
      let _ ← Scanner.name
      scanOccurrence
    let _ ← Scanner.blanks
    if ← Scanner.accept ")" then
      scanOccurrence
    else
      match mark with
      | some m =>
        Scanner.expect m
        scanGroup budget room (some m)
      | none =>
        if ← Scanner.accept "," then scanGroup budget room (some ",")
        else
          Scanner.expect "|"
          scanGroup budget room (some "|")

/-- The names of mixed content after its first word; at least one makes the closing star needed. -/
def scanMixed : Nat → Bool → Scanner Unit
  | 0, _ => failure
  | budget + 1, hasNames => do
    let _ ← Scanner.blanks
    if ← Scanner.accept ")" then
      let starred ← Scanner.accept "*"
      guard (starred || !hasNames)
    else
      Scanner.expect "|"
      let _ ← Scanner.blanks
      let _ ← Scanner.name
      scanMixed budget true

/-- An element declaration whose keyword has been passed. -/
def scanElement : Scanner Declaration := do
  Scanner.someBlanks
  let name ← Scanner.name
  Scanner.someBlanks
  if !(← Scanner.accept "EMPTY" <||> Scanner.accept "ANY") then
    Scanner.expect "("
    let _ ← Scanner.blanks
    let budget := (← get).length + 1
    if ← Scanner.accept "#PCDATA" then scanMixed budget false
    else scanGroup budget (greatestGroupDepth - 1) none
  let _ ← Scanner.blanks
  Scanner.expect ">"
  return .element name

/-! ### Attributes -/

/-- The alternatives of an enumerated type whose opening has been passed. -/
def scanAlternatives (item : Scanner Text) : Nat → Scanner Unit
  | 0 => failure
  | budget + 1 => do
    let _ ← Scanner.blanks
    let _ ← item
    let _ ← Scanner.blanks
    if !(← Scanner.accept ")") then
      Scanner.expect "|"
      scanAlternatives item budget

/-- The types that have a word for them. No word comes after a shorter one that it begins with. -/
def typeWords : List (String × AttributeType) :=
  [("CDATA", .characterData), ("IDREFS", .names), ("IDREF", .name), ("ID", .identifier),
   ("ENTITY", .name), ("ENTITIES", .names), ("NMTOKENS", .tokens), ("NMTOKEN", .token)]

/-- The type of an attribute. -/
def scanType : Scanner AttributeType := do
  for (word, type) in typeWords do
    if ← Scanner.accept word then return type
  let budget := (← get).length + 1
  if ← Scanner.accept "NOTATION" then
    Scanner.someBlanks
    Scanner.expect "("
    scanAlternatives Scanner.name budget
    return .name
  Scanner.expect "("
  scanAlternatives Scanner.nameToken budget
  return .tokens

/-- A literal that is a value of an attribute. Of its line ends only line feeds remain. -/
def scanValue : Scanner Text := do
  let literal ← Scanner.quoted
  guard (literal.all fun c => c.isXml && c.val != 0x3C)
  return Text.unifyLineEnds literal

/-- The default of an attribute, if it has one. -/
def scanDefault : Scanner (Option Text) := do
  if ← Scanner.accept "#REQUIRED" <||> Scanner.accept "#IMPLIED" then return none
  if ← Scanner.accept "#FIXED" then Scanner.someBlanks
  return some (← scanValue)

/-- The attributes of an attribute-list declaration up to its end. -/
def scanAttributes : Nat → Scanner (List AttributeDefinition)
  | 0 => failure
  | budget + 1 => do
    let spaced ← Scanner.blanks
    if ← Scanner.accept ">" then return []
    guard spaced
    let name ← Scanner.name
    Scanner.someBlanks
    let type ← scanType
    Scanner.someBlanks
    let fallback ← scanDefault
    return ⟨name, type, fallback⟩ :: (← scanAttributes budget)

/-! ### Entities and formats -/

/-- A system literal of an entity. It identifies a whole resource, so it has no fragment. -/
def scanEntitySystem : Scanner Text := do
  match ← scanExternal with
  | none => failure
  | some system =>
    guard !(system.contains (CodePoint.ofChar '#'))
    return system

/-- What a general entity is: a literal, or a resource that may be marked as no text by a word. The
name of its format can be left out after that. -/
def scanGeneral : Scanner EntityDefinition := do
  if (← Scanner.sees "\"") || (← Scanner.sees "'") then return .literal (← Scanner.quoted)
  let system ← scanEntitySystem
  if !(← Scanner.sees ">") then Scanner.someBlanks
  if ← Scanner.accept "NDATA" then
    Scanner.someBlanks
    if (← get).head?.any fun c => c.beginsXmlName || c.val = 0x3A then
      let _ ← Scanner.name
    return .unparsed system
  return .external system

/-- What a parameter entity is. -/
def scanParameter : Scanner EntityDefinition := do
  if (← Scanner.sees "\"") || (← Scanner.sees "'") then return .literal (← Scanner.quoted)
  return .external (← scanEntitySystem)

/-- An entity declaration whose keyword has been passed. -/
def scanEntity : Scanner Declaration := do
  Scanner.someBlanks
  let isParameter ← Scanner.accept "%"
  if isParameter then Scanner.someBlanks
  let name ← Scanner.name
  Scanner.someBlanks
  let definition ← if isParameter then scanParameter else scanGeneral
  let _ ← Scanner.blanks
  Scanner.expect ">"
  return if isParameter then .parameter name definition else .entity name definition

/-- A declaration of a data format whose keyword has been passed. -/
def scanFormat : Scanner Declaration := do
  Scanner.someBlanks
  let name ← Scanner.name
  Scanner.someBlanks
  if ← Scanner.accept "SYSTEM" then
    Scanner.someBlanks
    let _ ← scanSystem
  else
    Scanner.expect "PUBLIC"
    Scanner.someBlanks
    scanPublic
    if ← Scanner.blanks then
      if (← Scanner.sees "\"") || (← Scanner.sees "'") then
        let _ ← scanSystem
  let _ ← Scanner.blanks
  Scanner.expect ">"
  return .format name

/-- The next declaration of an internal subset. -/
def scanOne : Scanner Declaration := do
  if ← Scanner.accept "%" then
    let name ← Scanner.name
    Scanner.expect ";"
    return .parameterReference name
  if ← Scanner.accept "<?" then return .instruction (← Scanner.instructionBody)
  Scanner.expect "<!"
  if ← Scanner.accept "--" then
    let _ ← Scanner.commentBody
    return .comment
  if ← Scanner.accept "ELEMENT" then scanElement
  else if ← Scanner.accept "ENTITY" then scanEntity
  else if ← Scanner.accept "NOTATION" then scanFormat
  else
    Scanner.expect "ATTLIST"
    Scanner.someBlanks
    let element ← Scanner.name
    return .attributes element (← scanAttributes ((← get).length + 1))

end Declaration

end MarkupGrammar
