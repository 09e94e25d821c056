import MarkupGrammar.Grammar.Content

/-!
# Schemas

A schema is a compiled grammar: its elements, and classes of attributes that elements and other
classes take over. Which attributes an element has follows from the class graph, which may be cyclic
and may lead to classes that nothing declares.

Local attributes come first. Then the classes follow breadth first from those the element names,
each class once, and of several definitions of one attribute the first counts: so the nearest class
decides.
-/

namespace MarkupGrammar

/-- What an attribute may be. A class of values that is closed is in `values`, one that is only
suggested in `suggested`. -/
structure AttributeSpec (Name : Type) where
  name : Name
  isRequired : Bool
  values : Option (List Name)
  defaultValue : Option Name
  datatype : Option Name
  documentation : Option Name
  suggested : Option (List Name)

/-- The rough shape of an element's content, as its particles declare it. -/
inductive ContentShape where
  | sequence
  | choice
  | interleave
  | mixed
  | empty
deriving DecidableEq

namespace ContentShape

/-- The word for a shape in a compiled module. -/
def word : ContentShape → String
  | .sequence => "sequence"
  | .choice => "choice"
  | .interleave => "interleave"
  | .mixed => "mixed"
  | .empty => "empty"

/-- The shape with a word. -/
def ofWord? (v : Json) : Option ContentShape :=
  v.text?.bind fun t =>
    [sequence, choice, interleave, mixed, empty].find? fun s => Text.ofString s.word = t

end ContentShape

/-- What an element may contain: a model, or no more than a list of children. -/
inductive ElementContent (Name : Type) where
  | model (m : ContentModel Name)
  | children (names : List Name)

/-- The definition of an element. -/
structure ElementSpec (Name : Type) where
  name : Name
  documentation : Option Name
  attributeClasses : List Name
  modelClasses : List Name
  attributes : List (AttributeSpec Name)
  shape : Option ContentShape
  content : ElementContent Name

variable {Name : Type}

namespace ElementSpec

/-- The content model of the element, if it has one. -/
def model? (e : ElementSpec Name) : Option (ContentModel Name) :=
  match e.content with
  | .model m => some m
  | .children _ => none

/-- The children that the element admits, each once. With a model they are the elements in it. -/
def children [BEq Name] (e : ElementSpec Name) : List Name :=
  match e.content with
  | .model m => m.elementNames
  | .children names => names.eraseDups

end ElementSpec

/-- A compiled grammar. Elements are kept in the order of their definition. `elementClasses` repeats
which attribute classes an element names; an element that is not in it, or is in it with none, has
those of its own definition. -/
structure Schema (Name : Type) where
  id : Name
  name : Name
  elements : Table Name (ElementSpec Name)
  attributeClasses : Table Name (List (AttributeSpec Name))
  inheritance : Table Name (List Name)
  elementClasses : Table Name (List Name)

/-- The classes reached breadth first from a queue, each once. A class is looked up in what is left
of the inheritance map, from which it is then taken out: it is never expanded again. -/
def reachedClasses [BEq Name] (inheritance : Table Name (List Name)) (seen : List Name) :
    List Name → List Name
  | [] => []
  | c :: queue =>
    if seen.elem c then reachedClasses inheritance seen queue
    else
      match h : inheritance.take? c with
      | none => c :: reachedClasses inheritance (c :: seen) queue
      | some (parents, rest) =>
        have : rest.length < inheritance.length := by
          have := Table.length_of_take? h
          omega
        c :: reachedClasses rest (c :: seen) (queue ++ parents)
termination_by queue => (inheritance.length, queue.length)

/-- The attributes in order, without those whose name stood before. -/
def distinctAttributes [BEq Name] (seen : List Name) :
    List (AttributeSpec Name) → List (AttributeSpec Name)
  | [] => []
  | a :: r =>
    if seen.elem a.name then distinctAttributes seen r
    else a :: distinctAttributes (a.name :: seen) r

namespace Schema

variable [BEq Name]

/-- The definition of an element. -/
def element? (s : Schema Name) (name : Name) : Option (ElementSpec Name) := s.elements.find? name

/-- The attribute classes that an element names. -/
def declaredClasses (s : Schema Name) (e : ElementSpec Name) : List Name :=
  match s.elementClasses.find? e.name with
  | some (c :: cs) => c :: cs
  | _ => e.attributeClasses

/-- The classes that an element takes attributes from, nearest first. -/
def classesOf (s : Schema Name) (e : ElementSpec Name) : List Name :=
  reachedClasses s.inheritance [] (s.declaredClasses e)

/-- All definitions of attributes that reach an element, the first of each name being the one that
counts. -/
def candidates (s : Schema Name) (e : ElementSpec Name) : List (AttributeSpec Name) :=
  e.attributes ++ (s.classesOf e).flatMap fun c => (s.attributeClasses.find? c).getD []

/-- The attributes of an element; none for an element that is not defined. -/
def attributesOf (s : Schema Name) (name : Name) : List (AttributeSpec Name) :=
  match s.element? name with
  | none => []
  | some e => distinctAttributes [] (s.candidates e)

/-- The schema of elements that stand on their own, without classes. -/
def ofElements (id name : Name) (elements : List (ElementSpec Name)) : Schema Name :=
  ⟨id, name, Table.ofEntries (elements.map fun e => (e.name, e)), [], [], []⟩

end Schema

/-! ### Renaming -/

section Map

variable {Other : Type} (f : Name → Other)

/-- The attribute with every name replaced. -/
def AttributeSpec.map (a : AttributeSpec Name) : AttributeSpec Other :=
  ⟨f a.name, a.isRequired, a.values.map (·.map f), a.defaultValue.map f, a.datatype.map f,
    a.documentation.map f, a.suggested.map (·.map f)⟩

/-- The content with every name replaced. -/
def ElementContent.map : ElementContent Name → ElementContent Other
  | .model m => .model (m.map f)
  | .children names => .children (names.map f)

/-- The element with every name replaced. -/
def ElementSpec.map (e : ElementSpec Name) : ElementSpec Other :=
  ⟨f e.name, e.documentation.map f, e.attributeClasses.map f, e.modelClasses.map f,
    e.attributes.map (·.map f), e.shape, e.content.map f⟩

end Map

end MarkupGrammar
