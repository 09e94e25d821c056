import MarkupGrammar.Xml.Expansion
import MarkupGrammar.Xml.Identifier
import MarkupGrammar.Xml.Node
import MarkupGrammar.Xml.Scope

/-!
# Start tags

A start tag says which namespaces are bound, and its attributes count together with those that have
a default. The order of complaints is the order of the steps here: each attribute for itself,
prefixes that are not bound, attributes that are given twice, defaults, the element's own prefix,
and last the identifiers.
-/

namespace MarkupGrammar

/-- An attribute of a start tag. -/
structure TagAttribute where
  name : QName
  value : List ValuePiece

/-- What a start tag says: the name of its element, the attributes and the bindings in force. -/
structure StartTag where
  name : ExpandedName
  attributes : List XmlAttribute
  scope : Scope

namespace StartTag

/-- Splits a name of a tag. It is an error if it cannot be split. -/
def splitName (name : Text) : XmlReader QName := do
  XmlReader.require (QName.ofText? name).isSome
  return QName.ofText name

/-- The value of a well-known attribute is worth a warning when it is none of those foreseen. -/
def checkSpace (name : QName) (value : List ValuePiece) : XmlReader Unit := do
  let t := value.flatMap ValuePiece.written
  let isKnown := t = Text.ofString "default" || t = Text.ofString "preserve"
  if name = ⟨some Scope.xmlPrefix, Text.ofString "space"⟩ && !isKnown then
    XmlReader.complain .warning

/-- Reads one attribute of an element after the bindings and attributes already read. -/
def readAttribute (room : Nat) (element : Text) (read : Scope × List TagAttribute)
    (written : Text × Text) : XmlReader (Scope × List TagAttribute) := do
  let (name, literal) := written
  let (own, attributes) := read
  let q ← splitName name
  let isTyped := ((← XmlReader.docType).rule? element name).any (·.type != .characterData)
  match Scope.boundBy? q with
  | some space =>
    let uri ← XmlReader.expandLiteral room literal
    let pieces := uri.map ValuePiece.point
    let uri := if isTyped then (ValuePiece.tokens pieces).flatMap ValuePiece.written else uri
    return (← own.bind space uri, attributes)
  | none =>
    let value ← XmlReader.readValue false room literal
    let value := if isTyped then ValuePiece.tokens value else value
    checkSpace q value
    return (own, attributes ++ [⟨q, value⟩])

/-- Adds the bindings among the defaults. -/
def bindFallbacks (own : Scope) (fallbacks : List (QName × Text)) : XmlReader Scope :=
  fallbacks.foldlM (fun own (name, uri) => do
    match Scope.boundBy? name with
    | none => return own
    | some space =>
      XmlReader.spend (Utf8.size uri)
      return own.bindFallback space uri) own

/-- The names of attributes as they are told apart, each with the prefix it was given with. -/
abbrev NameTable := List ((Option Text × Text) × Option Text)

/-- The prefix with which a name is in a table. -/
def NameTable.prefixOf? (table : NameTable) (key : Option Text × Text) : Option (Option Text) :=
  (table.find? fun (other, _) => other = key).map (·.2)

/-- Checks that the attributes of a tag have different names. Two of one name fail if they have the
same prefix and are an error otherwise. A name that is not bound is like no other. -/
def checkApart (scope : Scope) (attributes : List TagAttribute) : XmlReader NameTable :=
  attributes.foldlM (fun table a => do
    match scope.ofAttribute? a.name with
    | none => return table
    | some space =>
      match table.prefixOf? (space, a.name.stem) with
      | none => return ((space, a.name.stem), a.name.space) :: table
      | some other =>
        guard (other != a.name.space)
        XmlReader.complain .error
        return table) []

/-- Checks the defaults that a tag does not give itself. -/
def checkFallbacks (scope : Scope) (table : NameTable) (fallbacks : List (QName × Text)) :
    XmlReader NameTable :=
  let ordinary := fallbacks.filter fun (name, _) => (Scope.boundBy? name).isNone
  ordinary.foldlM (fun table (name, value) => do
    let space := scope.ofAttribute? name
    XmlReader.require space.isSome
    let key := (space.getD none, name.stem)
    let known := NameTable.prefixOf? table key
    if known = some name.space then return table
    XmlReader.require known.isNone
    XmlReader.spend (Utf8.size value)
    return if known.isNone then (key, name.space) :: table else table) table

/-- Takes an identifier into use. An empty one, or one in use already, is an error. -/
def addIdentifier (identifier : Text) : XmlReader Unit := do
  let r ← get
  if identifier.isEmpty || r.identifiers.contains identifier then XmlReader.complain .error
  else set { r with identifiers := identifier :: r.identifiers }

/-- Checks the identifiers among the attributes of an element. A value with references is none. -/
def checkIdentifiers (element : Text) (scope : Scope) (attributes : List TagAttribute) :
    XmlReader Unit :=
  attributes.forM fun a => do
    if let some value := ValuePiece.plainText? a.value then
      if a.name = ⟨some Scope.xmlPrefix, Text.ofString "id"⟩ then
        XmlReader.require (isXmlIdentifier value)
        addIdentifier value
      else if (scope.ofAttribute? a.name).isSome
          && (← XmlReader.docType).isIdentifier element a.name then
        addIdentifier value

/-- A name of an attribute with its namespace. -/
def expandAttribute (scope : Scope) (name : QName) : ExpandedName :=
  match scope.ofAttribute? name with
  | some space => ⟨space.getD [], name.stem⟩
  | none => ⟨[], name.written⟩

/-- Reads a start tag that has been taken apart. Identifiers in the text of an entity do not
count. -/
def read (room : Nat) (outer : Scope) ( isEntity : Bool) (element : Text)
    (written : List (Text × Text)) : XmlReader StartTag := do
  let q ← splitName element
  let (own, attributes) ← written.foldlM (readAttribute room element) ([], [])
  let fallbacks := (← XmlReader.docType).fallbacksOf q
  let own ← bindFallbacks own fallbacks
  let scope : Scope := own ++ outer
  attributes.forM fun a => XmlReader.require (scope.ofAttribute? a.name).isSome
  let table ← checkApart scope attributes
  let _ ← checkFallbacks scope table fallbacks
  let space := (scope.find? q.space).filter fun uri => q.space.isNone || !uri.isEmpty
  let isUnbound := q.space.isSome && space.isNone
  XmlReader.require !isUnbound
  if !isEntity then checkIdentifiers element scope attributes
  let d ← XmlReader.docType
  XmlReader.readInValue (d.entities.length + 1) ((attributes.flatMap (·.value)).filterMap fun piece =>
    match piece with
    | .reference name => some name
    | .point _ => none)
  let d ← XmlReader.docType
  let given : List XmlAttribute :=
    attributes.map fun a => ⟨expandAttribute scope a.name, d.valueText a.value⟩
  let isMissing (a : XmlAttribute) : Bool := given.all fun b => b.name != a.name
  return {
    name := if isUnbound then ⟨[], element⟩ else ⟨space.getD [], q.stem⟩
    attributes := given ++ (d.defaultsOf element).filter isMissing
    scope }

end StartTag

end MarkupGrammar
