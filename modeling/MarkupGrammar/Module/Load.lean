import MarkupGrammar.Compile.Schema
import MarkupGrammar.Module.Dump

/-!
# Compiled modules: reading

A module is read with defaults for what is left out, and with bounds in any form that stands for an
integer. What a schema derives is not taken from the module: children come from the content model,
and attributes from the classes. A module of another version is refused, and so is one in which
something is missing or of the wrong kind.
-/

namespace MarkupGrammar

namespace Module

/-- A field that has to be there. Only an object has fields that can be asked for so. -/
def need (key : String) (v : Json) : Except Fault Json :=
  match v with
  | .object fields =>
    match Json.lookup (Text.ofString key) fields with
    | some w => .ok w
    | none => .error (.missingField key)
  | _ => .error .wrongKind

/-- A field of an object, or a default when it is not there. -/
def getD (key : String) (fallback v : Json) : Except Fault Json :=
  v.fields.map fun fields => (Json.lookup (Text.ofString key) fields).getD fallback

/-- The elements of a field; none when it is not there. -/
def elementsOf (key : String) (v : Json) : Except Fault (List Json) := do
  (← getD key (.array []) v).elements

/-- An upper limit as a module writes it. -/
def readLimit (raw : Json) : Except Fault Occurs :=
  if raw == Json.string "unbounded" then .ok .unbounded
  else raw.integer.map fun i => .given (.int i)

/-- The bounds of a model or item, not yet compared with each other. -/
def readOccurs (v : Json) : Except Fault (Occurs × Occurs) := do
  let least ← (← getD "minOccurs" (.int 1) v).integer
  let most ← readLimit (← getD "maxOccurs" (.int 1) v)
  return (.given (.int least), most)

/-- Bounds that some count can meet. -/
def checkBounds (occurs : Occurs × Occurs) : Except Fault Bounds :=
  match Bounds.ofOccurs occurs.1 occurs.2 with
  | .ok bounds => .ok bounds
  | .error e => .error (.badBounds e)

/-- A list that may be missing or null. -/
def optionalList (v : Json) : Except Fault (Option (List Json)) :=
  match v with
  | .null => .ok none
  | v => v.elements.map some

/-- An attribute of a module. -/
def readAttribute (v : Json) : Except Fault (AttributeSpec Json) := do
  let values ← v.get "values"
  let suggested ← v.get "suggestedValues"
  let name ← need "name" v
  let isRequired ← getD "required" (.bool false) v
  let values ← optionalList values
  let defaultValue ← v.get "defaultValue"
  let datatype ← v.get "datatype"
  let documentation ← v.get "documentation"
  let suggested ← optionalList suggested
  return {
    name, isRequired := !isRequired.isVoid, values
    defaultValue := defaultValue.nameOrNone
    datatype := datatype.nameOrNone
    documentation := documentation.nameOrNone
    suggested }

mutual

/-- A content model of a module. -/
def readModel : Json → Except Fault (ContentModel Json)
  | .object fields => do
    let v := Json.object fields
    let type ← need "type" v
    match Arrangement.ofWord? type with
    | none => throw (.unknownTerm type "ContentModelType")
    | some arrangement =>
      let items ← readItemsField fields
      let bounds ← checkBounds (← readOccurs v)
      return ⟨arrangement, items, bounds⟩
  | _ => .error .wrongKind

/-- The items in the `items` field among the fields of a model; none when it is not there. -/
def readItemsField : List (Text × Json) → Except Fault (List (Item Json))
  | [] => .ok []
  | (key, value) :: fields =>
    if key = Text.ofString "items" then
      match value with
      | .array items => readItems items
      | value => do
        -- keys and code points are no items, so only what is empty can be read
        let parts ← value.elements
        if parts.isEmpty then return [] else throw .wrongKind
    else readItemsField fields

/-- The items of a list. -/
def readItems : List Json → Except Fault (List (Item Json))
  | [] => .ok []
  | v :: vs => do
    let item ← readItem v
    let items ← readItems vs
    return item :: items

/-- An item of a content model. -/
def readItem : Json → Except Fault (Item Json)
  | .object fields => do
    let v := Json.object fields
    let kind ← need "kind" v
    let occurs ← readOccurs v
    if kind == Json.string "element" then
      let name ← need "name" v
      return .element name (← checkBounds occurs)
    else if kind == Json.string "text" then
      return .text (← checkBounds occurs)
    else if kind == Json.string "group" then
      let content ← readContentField fields
      return .group content (← checkBounds occurs)
    else if kind == Json.string "model" then
      let name ← need "name" v
      return .pattern name (← checkBounds occurs)
    else throw (.unknownItemKind kind)
  | _ => .error .wrongKind

/-- The model in the `content` field among the fields of a group. -/
def readContentField : List (Text × Json) → Except Fault (ContentModel Json)
  | [] => .error (.missingField "content")
  | (key, value) :: fields =>
    if key = Text.ofString "content" then readModel value else readContentField fields

end

/-- A set of names. -/
def readNames (names : List Json) : Except Fault (List Json) :=
  if names.all Json.isName then .ok names else .error .wrongKind

/-- An element of a module. -/
def readElement (v : Json) : Except Fault (ElementSpec Json) := do
  let type ← v.get "contentModelType"
  let model ← v.get "contentModel"
  let name ← need "name" v
  let documentation ← v.get "documentation"
  let attributeClasses ← elementsOf "attrClasses" v
  let modelClasses ← elementsOf "modelClasses" v
  let attributes ← (← elementsOf "localAttrs" v).mapM readAttribute
  let children ← readNames (← elementsOf "children" v)
  let shape ← (do
    if type.isVoid then return none
    match ContentShape.ofWord? type with
    | some shape => return some shape
    | none => throw (.unknownTerm type "DeclaredContentType") : Except Fault (Option ContentShape))
  let content ← (do
    if model.isVoid then return .children children.eraseDups
    let m ← readModel model
    let _ ← readNames m.names
    return .model m : Except Fault (ElementContent Json))
  return {
    name, documentation := documentation.nameOrNone
    attributeClasses, modelClasses, attributes, shape, content }

/-- A table of a module: for each key what its list consists of. -/
def readTable {α : Type} (key : String) (f : Json → Except Fault α) (v : Json) :
    Except Fault (Table Json (List α)) := do
  let entries ← (← getD key (.object []) v).fields
  entries.mapM fun (name, list) => do
    let items ← (← list.elements).mapM f
    return (.text name, items)

/-- The schema of a module of the right version. -/
def readSchema (v : Json) : Except Fault (Schema Json) := do
  let elements ← (← elementsOf "elements" v).mapM readElement
  let id ← need "id" v
  let name ← need "name" v
  let _ ← readNames (elements.map (·.name))
  let attributeClasses ← readTable "attributeClasses" readAttribute v
  let inheritance ← readTable "attributeClassInheritance" .ok v
  let elementClasses ← readTable "elementAttributeClasses" .ok v
  let s : Schema Json := {
    id, name
    elements := Table.ofEntries (elements.map fun e => (e.name, e))
    attributeClasses, inheritance, elementClasses }
  if s.isUsable then return s else throw .wrongKind

/-- Loads a module. -/
def load (v : Json) : Except ReadError (Schema Json) :=
  match v.get "formatVersion" with
  | .error f => .error (.fault f)
  | .ok version =>
    if version == .int moduleVersion then
      match readSchema v with
      | .ok s => .ok s
      | .error f =>
        if f.isForeseen then .error (.of (.invalidModule f) (Text.ofString "compiled"))
        else .error (.fault f)
    else .error (.of (.unsupportedVersion version) (Text.ofString "compiled"))

end Module

end MarkupGrammar
