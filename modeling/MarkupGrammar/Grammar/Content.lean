import MarkupGrammar.Grammar.Bounds
import MarkupGrammar.Grammar.Label

/-!
# Content models

A content model says what may stand inside an element: an arrangement of items, each of which is an
element, text, a group with a model of its own, or a pattern that could not be resolved. Models and
their items each have bounds.

Two things are read off a model. `ContentModel.elementNames` are all the elements that may occur
anywhere in it, and so the children that the element admits. `ContentModel.requiredChildren` are
those that must occur: nothing inside a choice is required, nor anything inside a part that may be
left out.
-/

namespace MarkupGrammar

/-- How the items of a model are arranged. -/
inductive Arrangement where
  | sequence
  | choice
  | interleave
  | group
  | element
  | text
  | empty
deriving DecidableEq

namespace Arrangement

/-- The word for an arrangement in a compiled module. -/
def word : Arrangement → String
  | .sequence => "sequence"
  | .choice => "choice"
  | .interleave => "interleave"
  | .group => "group"
  | .element => "element"
  | .text => "text"
  | .empty => "empty"

/-- The arrangements, in the order in which they are declared. -/
def all : List Arrangement := [.sequence, .choice, .interleave, .group, .element, .text, .empty]

/-- The arrangement with a word. -/
def ofWord? (v : Json) : Option Arrangement :=
  v.text?.bind fun t => all.find? fun a => Text.ofString a.word = t

end Arrangement

mutual

/-- What may stand inside an element. -/
structure ContentModel (Name : Type) where
  arrangement : Arrangement
  items : List (Item Name)
  bounds : Bounds

/-- One part of a content model. -/
inductive Item (Name : Type) where
  /-- A child element. -/
  | element (name : Name) (bounds : Bounds)
  /-- Character data. -/
  | text (bounds : Bounds)
  /-- A nested model. -/
  | group (content : ContentModel Name) (bounds : Bounds)
  /-- A named pattern that is not resolved to content. -/
  | pattern (name : Name) (bounds : Bounds)

end

variable {Name : Type}

namespace Item

/-- How often the item may occur. -/
def bounds : Item Name → Bounds
  | .element _ b => b
  | .text b => b
  | .group _ b => b
  | .pattern _ b => b

end Item

/-! ### Names in a model -/

mutual

/-- The names of the elements in a model, in the order of its items, with repetitions. -/
def ContentModel.names : ContentModel Name → List Name
  | ⟨_, items, _⟩ => Item.namesOfAll items

/-- The names of the elements in a list of items. -/
def Item.namesOfAll : List (Item Name) → List Name
  | [] => []
  | item :: items => item.names ++ Item.namesOfAll items

/-- The names of the elements in an item. -/
def Item.names : Item Name → List Name
  | .element name _ => [name]
  | .text _ => []
  | .group content _ => content.names
  | .pattern _ _ => []

end

/-- The set of elements that may occur somewhere in a model, each once. -/
def ContentModel.elementNames [BEq Name] (m : ContentModel Name) : List Name :=
  m.names.eraseDups

/-! ### Required children -/

mutual

/-- The elements that a model requires, in the order of its items, with repetitions. -/
def ContentModel.demands : ContentModel Name → List Name
  | ⟨arrangement, items, bounds⟩ =>
    if arrangement = .choice || bounds.least = 0 then [] else Item.demandsOfAll items

/-- The elements that a list of items requires. -/
def Item.demandsOfAll : List (Item Name) → List Name
  | [] => []
  | item :: items => item.demands ++ Item.demandsOfAll items

/-- The elements that an item requires. -/
def Item.demands : Item Name → List Name
  | .element name bounds => if bounds.least = 0 then [] else [name]
  | .text _ => []
  | .group content bounds => if bounds.least = 0 then [] else content.demands
  | .pattern _ _ => []

end

/-- The elements that a model requires, each once, in the order in which they are first required. -/
def ContentModel.requiredChildren [BEq Name] (m : ContentModel Name) : List Name :=
  m.demands.eraseDups

/-! ### Renaming -/

mutual

/-- The model with every name replaced. -/
def ContentModel.map {Other : Type} (f : Name → Other) : ContentModel Name → ContentModel Other
  | ⟨arrangement, items, bounds⟩ => ⟨arrangement, Item.mapAll f items, bounds⟩

/-- The items with every name replaced. -/
def Item.mapAll {Other : Type} (f : Name → Other) : List (Item Name) → List (Item Other)
  | [] => []
  | item :: items => item.map f :: Item.mapAll f items

/-- The item with every name replaced. -/
def Item.map {Other : Type} (f : Name → Other) : Item Name → Item Other
  | .element name bounds => .element (f name) bounds
  | .text bounds => .text bounds
  | .group content bounds => .group (content.map f) bounds
  | .pattern name bounds => .pattern (f name) bounds

end

end MarkupGrammar
