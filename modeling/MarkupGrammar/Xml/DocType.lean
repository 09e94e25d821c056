import MarkupGrammar.Xml.Node
import MarkupGrammar.Xml.Value

/-!
# Document types

A document type says which entities there are, which attributes have a default or are identifiers,
and which names are taken. It may name an external subset, which is never read. Entities remember
what has been done with them, because each is checked only once.

An entity's text becomes a part of the tree where it is first referred to, and there it is decided
what the text is: in content only line feeds remain of its line ends, in values all of it is kept.
-/

namespace MarkupGrammar

/-- What an entity stands for. -/
inductive EntityContent where
  /-- Its replacement text. -/
  | replacement (t : Text)
  /-- A text outside the document, which is not fetched. -/
  | external
  /-- Something that is no text. -/
  | unparsed

/-- A declared entity: what it stands for, what is known of it, and its size.

It is sound once it is known to be fit for values of attributes, and measured once its size is
known. The size of an entity is the number of octets it stands for when the entities in it are
counted as often as they occur. `reading` is its text as it was taken when it first became a part of
the tree. -/
structure Entity where
  content : EntityContent
  isSound : Bool
  isMeasured : Bool
  reading : Option Text
  size : Nat

namespace Entity

/-- An entity as it is declared. -/
def ofContent (content : EntityContent) : Entity := ⟨content, false, false, none, 0⟩

/-- Records the text of an entity that becomes a part of the tree, unless it is a part already. -/
def read (t : Text) (e : Entity) : Entity := { e with reading := e.reading.or (some t) }

end Entity

/-- The types of attributes, as far as they differ in the values they admit. -/
inductive AttributeType where
  | characterData
  | identifier
  | name
  | names
  | token
  | tokens
deriving DecidableEq

namespace AttributeType

/-- Whether the text is a name, which may hold colons. -/
def isName (t : Text) : Bool := ((Scanner.name.run t).map (·.2.isEmpty)).getD false

/-- Whether the text is a name token. -/
def isToken (t : Text) : Bool := ((Scanner.nameToken.run t).map (·.2.isEmpty)).getD false

/-- Whether a value, with single blanks between its tokens, is of the type. -/
def admits (type : AttributeType) (value : Text) : Bool :=
  let words := Text.splitOn (CodePoint.ofChar ' ') value
  match type with
  | .characterData => true
  | .identifier => isName value
  | .name => isName value
  | .names => words.all isName
  | .token => isToken value
  | .tokens => words.all isToken

end AttributeType

/-- A declared attribute; `fallback` is its default as it is written. A default that is not of the
type counts in start tags, but no element has it. -/
structure AttributeRule where
  element : Text
  name : Text
  type : AttributeType
  fallback : Option Text
  isAdmitted : Bool

/-- What a document type says. -/
structure DocType where
  hasExternalSubset : Bool
  isStandalone : Bool
  usesParameters : Bool
  entities : List (Text × Entity)
  parameters : List (Text × Option Text)
  rules : List AttributeRule
  elements : List Text
  formats : List Text

namespace DocType

/-- What is known of a document without a declaration of its type. -/
def absent (isStandalone : Bool) : DocType := ⟨false, isStandalone, false, [], [], [], [], []⟩

/-- Whether every entity has to be declared: when the document says so, or when there is no place
outside it where a declaration could stand. -/
def isStrict (d : DocType) : Bool := d.isStandalone || !(d.hasExternalSubset || d.usesParameters)

/-- A declared entity. -/
def entity? (d : DocType) (name : Text) : Option Entity :=
  (d.entities.find? fun (other, _) => other = name).map (·.2)

/-- The replacement text of an entity that has one. -/
def replacement? (d : DocType) (name : Text) : Option Text :=
  match d.entity? name with
  | some e =>
    match e.content with
    | .replacement t => some t
    | _ => none
  | none => none

/-- Changes what is known of an entity. -/
def updateEntity (d : DocType) (name : Text) (change : Entity → Entity) : DocType :=
  { d with
    entities := d.entities.map fun (other, e) => if other = name then (other, change e) else (other, e) }

/-- The text that a reference to an entity stands for, as far as it is known. -/
def readingOf? (d : DocType) (name : Text) : Option Text :=
  (d.entity? name).bind (·.reading)

/-- A declared parameter entity; its text unless it stands outside the document. -/
def parameter? (d : DocType) (name : Text) : Option (Option Text) :=
  (d.parameters.find? fun (other, _) => other = name).map (·.2)

/-- The rule for an attribute of an element, both named as they are written. -/
def rule? (d : DocType) (element attr : Text) : Option AttributeRule :=
  d.rules.find? fun rule => rule.element = element && rule.name = attr

/-- The attributes of an element that have a default. -/
def fallbacksOf (d : DocType) (element : QName) : List (QName × Text) :=
  d.rules.filterMap fun rule =>
    if QName.ofDeclared rule.element = element then
      rule.fallback.map fun value => (QName.ofDeclared rule.name, value)
    else none

/-- The attributes without a namespace that an element has unless they are given. No reference in a
default is replaced. -/
def defaultsOf (d : DocType) (element : Text) : List XmlAttribute :=
  d.rules.filterMap fun rule =>
    let isPlain := (QName.ofDeclared rule.name).space.isNone
    if rule.element = element && isPlain && rule.isAdmitted then
      rule.fallback.map fun value => ⟨⟨[], rule.name⟩, value⟩
    else none

/-- Whether an attribute of an element is declared to be an identifier. -/
def isIdentifier (d : DocType) (element : Text) (attr : QName) : Bool :=
  d.rules.any fun rule =>
    rule.element = element && rule.type = .identifier && QName.ofDeclared rule.name = attr

/-- The text of an entity with its references replaced as often as needed. A reference to what is no
text adds nothing. Entities do not contain themselves, so their number is budget enough. -/
def entityText (d : DocType) : Nat → Text → Text
  | 0, _ => []
  | budget + 1, t =>
    ((LiteralPart.ofText? t).getD []).flatMap fun part =>
      match part with
      | .written c => [c]
      | .numbered c => [c]
      | .reference name =>
        match Scanner.predefined? name with
        | some c => [c]
        | none =>
          match d.readingOf? name with
          | some inner => entityText d budget inner
          | none => []

/-- The text that a value stands for. -/
def valueText (d : DocType) (value : List ValuePiece) : Text :=
  value.flatMap fun piece =>
    match piece with
    | .point c => [c]
    | .reference name =>
      match d.readingOf? name with
      | some t => entityText d (d.entities.length + 1) t
      | none => []

end DocType

end MarkupGrammar
