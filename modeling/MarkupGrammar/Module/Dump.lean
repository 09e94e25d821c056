import MarkupGrammar.Grammar.Failure
import MarkupGrammar.Grammar.Schema

/-!
# Compiled modules: writing

A compiled schema is kept as a JSON value, a *module*. What has no content is left out: an
attribute's flag when it is not set, the items of a model without items, the documentation of an
undocumented element. Children are listed in order of their names, so that equal schemas have equal
modules; names that have no order cannot be listed.
-/

namespace MarkupGrammar

/-- The version of the format. -/
def moduleVersion : Int := 1

/-- The names in order; names of which two have no order fail. -/
def sortNames (names : List Json) : Except Fault (List Json) :=
  let isOrdered := names.length ≤ 1 || names.all (·.text?.isSome) || names.all (·.quotient?.isSome)
  if isOrdered then
    .ok (names.mergeSort fun a b => Json.compare? a b != some .gt)
  else .error .wrongKind

namespace AttributeSpec

/-- An attribute in a module. -/
def dump (a : AttributeSpec Json) : Json :=
  let optional (key : String) (v : Option Json) : List (String × Json) :=
    match v with
    | none => []
    | some v => [(key, v)]
  Json.ofFields
    ([("name", a.name)]
      ++ (if a.isRequired then [("required", .bool true)] else [])
      ++ optional "values" (a.values.map Json.array)
      ++ optional "defaultValue" a.defaultValue
      ++ optional "datatype" a.datatype
      ++ optional "documentation" a.documentation
      ++ optional "suggestedValues" (a.suggested.map Json.array))

end AttributeSpec

/-- The fields of bounds in a module. -/
def Bounds.dump (b : Bounds) : List (String × Json) :=
  [("minOccurs", .nat b.least), ("maxOccurs", b.most.toJson)]

mutual

/-- A content model in a module. -/
def ContentModel.dump : ContentModel Json → Json
  | ⟨arrangement, items, bounds⟩ =>
    let dumped := Item.dumpAll items
    Json.ofFields
      ([("type", .string arrangement.word)] ++ bounds.dump
        ++ (if dumped.isEmpty then [] else [("items", .array dumped)]))

/-- The items of a content model in a module. -/
def Item.dumpAll : List (Item Json) → List Json
  | [] => []
  | item :: items => item.dump :: Item.dumpAll items

/-- An item of a content model in a module. -/
def Item.dump : Item Json → Json
  | .element name bounds =>
    Json.ofFields ([("kind", .string "element")] ++ bounds.dump ++ [("name", name)])
  | .text bounds => Json.ofFields ([("kind", .string "text")] ++ bounds.dump)
  | .group content bounds =>
    Json.ofFields ([("kind", .string "group")] ++ bounds.dump ++ [("content", content.dump)])
  | .pattern name bounds =>
    Json.ofFields ([("kind", .string "model")] ++ bounds.dump ++ [("name", name)])

end

namespace ElementSpec

/-- An element in a module. -/
def dump (e : ElementSpec Json) : Except Fault Json := do
  let children ← sortNames e.children
  return Json.ofFields
    ([("name", e.name), ("attrClasses", .array e.attributeClasses),
      ("modelClasses", .array e.modelClasses),
      ("localAttrs", .array (e.attributes.map AttributeSpec.dump)), ("children", .array children)]
      ++ (match e.documentation.bind Json.unlessVoid with
        | some d => [("documentation", d)]
        | none => [])
      ++ (match e.shape with
        | some shape => [("contentModelType", .string shape.word)]
        | none => [])
      ++ (match e.model? with
        | some m => [("contentModel", m.dump)]
        | none => []))

end ElementSpec

namespace Schema

/-- An object of a table, keyed by its names. -/
def dumpTable {α : Type} (f : α → Json) (t : Table Json α) : Json :=
  .object (t.map fun (key, v) => (key.keyText, f v))

/-- The module of a schema. -/
def dump (s : Schema Json) : Except Fault Json := do
  let elements ← s.elements.mapM fun (_, e) => e.dump
  return Json.ofFields
    [("formatVersion", .int moduleVersion), ("id", s.id), ("name", s.name),
     ("elements", .array elements),
     ("attributeClasses",
      dumpTable (fun attributes => .array (attributes.map AttributeSpec.dump)) s.attributeClasses),
     ("attributeClassInheritance", dumpTable Json.array s.inheritance),
     ("elementAttributeClasses", dumpTable Json.array s.elementClasses)]

end Schema

end MarkupGrammar
