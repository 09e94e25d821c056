import MarkupGrammar.Check.Diagnostic
import MarkupGrammar.Grammar.Content

/-!
# Conformance of children to a content model

The children of an element are checked against its model once they are all known. The check is not a
match against a grammar: it reports what an author can act on.

* In a choice, children of two alternatives do not go together. The first two alternatives in use
  count, and the first child that belongs to the second and not to the first is reported.
* In a sequence, interleaving or group, each element item counts the children of its name wherever
  they stand, and nested groups are checked on the same children. A name that does not occur at all is left
  to the check for required children.
* An empty model admits no children.
-/

namespace MarkupGrammar

/-- A child element and where its tag stands. -/
structure Child (Name : Type) (Place : Type := Position) where
  name : Name
  position : Place

variable {Name Place : Type} [BEq Name]

namespace Child

/-- A finding at the child. -/
def report (child : Child Name Place) (finding : Finding Name) : Diagnostic Name Place :=
  ⟨finding, child.position⟩

end Child

/-! ### Choices -/

/-- The sets of names of the alternatives that have any, numbered from zero. -/
def alternatives (items : List (Item Name)) : List (List Name × Nat) :=
  ((items.map Item.names).filter fun names => !names.isEmpty).zipIdx

/-- The alternatives that children belong to, in the order in which children first use them. -/
def usedAlternatives (alternatives : List (List Name × Nat)) (children : List (Child Name Place)) :
    List (List Name × Nat) :=
  children.foldl
    (fun used child =>
      used ++ alternatives.filter fun (names, i) =>
        names.elem child.name && !used.any fun (_, j) => i == j) []

/-- The violation of a choice, if the children use two alternatives of it. -/
def checkChoice (parent : Text) (items : List (Item Name)) (children : List (Child Name Place)) :
    List (Diagnostic Name Place) :=
  match usedAlternatives (alternatives items) children with
  | (first, _) :: (second, _) :: _ =>
    match children.find? fun c => first.elem c.name,
      children.find? fun c => second.elem c.name && !first.elem c.name with
    | some used, some child => [child.report (.choiceViolation child.name used.name parent)]
    | _, _ => []
  | _ => []

/-! ### Counts -/

/-- Whether the children of an element item's name are too few or too many. -/
def checkCount (parent : Text) (name : Name) (bounds : Bounds) (children : List (Child Name Place)) :
    List (Diagnostic Name Place) :=
  let occurrences := children.filter (·.name == name)
  match occurrences with
  | [] => []
  | first :: _ =>
    (if occurrences.length < bounds.least then
      [first.report (.tooFew name bounds.least parent)] else [])
    ++ match bounds.most with
      | .unbounded => []
      | .finite most =>
        match occurrences[most]? with
        | some surplus => [surplus.report (.tooMany name most parent)]
        | none => []

mutual

/-- The defects of children under a model. -/
def ContentModel.check (parent : Text) (children : List (Child Name Place)) :
    ContentModel Name → List (Diagnostic Name Place)
  | ⟨arrangement, items, _⟩ =>
    match arrangement with
    | .choice => checkChoice parent items children
    | .sequence => Item.checkAll parent children items
    | .interleave => Item.checkAll parent children items
    | .group => Item.checkAll parent children items
    | .empty =>
      match children with
      | [] => []
      | first :: _ => [first.report (.notEmpty parent)]
    | .element => []
    | .text => []

/-- The defects of children under each item of a list. -/
def Item.checkAll (parent : Text) (children : List (Child Name Place)) :
    List (Item Name) → List (Diagnostic Name Place)
  | [] => []
  | item :: items => item.check parent children ++ Item.checkAll parent children items

/-- The defects of children under an item. -/
def Item.check (parent : Text) (children : List (Child Name Place)) :
    Item Name → List (Diagnostic Name Place)
  | .element name bounds => checkCount parent name bounds children
  | .group content _ => content.check parent children
  | .text _ => []
  | .pattern _ _ => []

end

/-! ### Names that cannot be looked up

A name that is an array or an object cannot be looked up, and a check that has to fails. It concerns
models and children that come from outside: in a schema all names can be looked up, and those in a
document are texts. -/

mutual

/-- Whether the names that a check of children compares can be looked up. A choice looks for
children only if it has alternatives. -/
def ContentModel.canCheck {Name Place : Type} [Label Name] (children : List (Child Name Place)) :
    ContentModel Name → Bool
  | ⟨arrangement, items, _⟩ =>
    let areNamed := children.all fun c => Label.isName c.name
    match arrangement with
    | .choice =>
      let names := items.flatMap Item.names
      names.all Label.isName && (names.isEmpty || areNamed)
    | .sequence => areNamed && Item.canCheckAll children items
    | .interleave => areNamed && Item.canCheckAll children items
    | .group => areNamed && Item.canCheckAll children items
    | .empty => true
    | .element => true
    | .text => true

/-- Whether the names that the check of some items compares can be looked up. -/
def Item.canCheckAll {Name Place : Type} [Label Name] (children : List (Child Name Place)) :
    List (Item Name) → Bool
  | [] => true
  | item :: items => item.canCheck children && Item.canCheckAll children items

/-- Whether the names that the check of an item compares can be looked up. -/
def Item.canCheck {Name Place : Type} [Label Name] (children : List (Child Name Place)) :
    Item Name → Bool
  | .element name _ => Label.isName name
  | .group content _ => content.canCheck children
  | .text _ => true
  | .pattern _ _ => true

end

end MarkupGrammar
