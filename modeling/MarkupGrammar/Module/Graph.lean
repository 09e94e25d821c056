import MarkupGrammar.Module.Load

/-!
# Graphs of attribute classes

A graph of attribute classes may also be given by itself, without a module around it: elements with
their attributes and classes, the attributes of each class, and for each class those that it takes
over from. It is a schema in which only attributes count.

The attributes of elements and classes are read at once. Lists of classes are not looked at until an
element leads to them, so what is no list stands in the graph as a class that cannot be looked up,
and fails the elements that reach it and no other.
-/

namespace MarkupGrammar

namespace Module

/-- The entries of a field; none when the field is not an object. -/
def entriesOf (key : String) (v : Json) : List (Text × Json) :=
  ((v.field? key).bind Json.object?).getD []

/-- The classes in a list that nobody has looked at. -/
def classesIn (v : Json) : List Json :=
  match v.elements with
  | .ok classes => classes
  | .error _ => [.array []]

/-- An element of a graph. -/
def readGraphElement (name : Json) (v : Json) : Except Fault (ElementSpec Json) := do
  let attributeClasses ← elementsOf "classes" v
  let attributes ← (← elementsOf "attrs" v).mapM readAttribute
  return {
    name, documentation := none, attributeClasses, modelClasses := [], attributes, shape := none
    content := .children [] }

/-- Reads a graph. An element that is listed without classes has those of its own definition. -/
def readGraph (v : Json) : Except Fault (Schema Json) := do
  let elements ← (entriesOf "elements" v).mapM fun (name, e) => do
    return (Json.text name, ← readGraphElement (.text name) e)
  let attributeClasses ← (entriesOf "classes" v).mapM fun (name, list) => do
    return (Json.text name, ← (← list.elements).mapM readAttribute)
  let inheritance := (entriesOf "inherits" v).map fun (name, list) =>
    (Json.text name, classesIn list)
  let elementClasses := (entriesOf "elementClasses" v).map fun (name, list) =>
    (Json.text name, (list.unlessVoid.map classesIn).getD [])
  return { id := .null, name := .null, elements, attributeClasses, inheritance, elementClasses }

end Module

namespace Schema

/-- The attributes of an element by its name, if the name and all that the element leads to can be
looked up. -/
def resolve (s : Schema Json) (name : Json) : Except Fault (List (AttributeSpec Json)) :=
  if name.isName && ((s.element? name).map s.canResolve).getD true then .ok (s.attributesOf name)
  else .error .wrongKind

end Schema

end MarkupGrammar
