import MarkupGrammar.Grammar.Schema
import MarkupGrammar.RelaxNg.Grammar
import MarkupGrammar.RelaxNg.Obstacle
import MarkupGrammar.Text.Case

/-!
# Import of RELAX NG grammars

Each named element of a grammar becomes the definition of an element. Its content model follows its
patterns, its attributes are those that its patterns lead to without entering another element.

A pattern that is an element's only content becomes the model; among others it becomes an item. A
pattern that says how often its content may occur sets the bounds of that content when it stands
alone, and wraps it in a group when it stands among others. Patterns that hold attributes only add
no content.
-/

namespace MarkupGrammar

namespace Item

/-- The item with other bounds. -/
def withBounds {Name : Type} (bounds : Bounds) : Item Name → Item Name
  | .element name _ => .element name bounds
  | .text _ => .text bounds
  | .group content _ => .group content bounds
  | .pattern name _ => .pattern name bounds

end Item

namespace RepeatKind

/-- How often the content of a pattern may occur. -/
def bounds : RepeatKind → Bounds
  | .optional => Bounds.optional
  | .zeroOrMore => Bounds.anyNumber
  | .oneOrMore => Bounds.oneOrMore

/-- The bounds of content that stands alone. Content that may be repeated without limit stays so
when it is made optional. -/
def boundsAlone (kind : RepeatKind) (inner : Bounds) : Bounds :=
  match kind with
  | .optional => if inner.most = .unbounded then Bounds.anyNumber else Bounds.optional
  | kind => kind.bounds

end RepeatKind

namespace CombineKind

/-- The arrangement of combined patterns. -/
def arrangement : CombineKind → Arrangement
  | .choice => .choice
  | .interleave => .interleave
  | .group => .group
  | .mixed => .interleave

/-- The items that a combination has besides its patterns. -/
def ownItems : CombineKind → List (Item Text)
  | .mixed => [.text Bounds.anyNumber]
  | _ => []

end CombineKind

namespace ContentModel

/-- The model under a pattern that says how often it may occur. The bounds of a single element are
those of its item too. -/
def rebound (m : ContentModel Text) (bounds : Bounds) : ContentModel Text :=
  if m.arrangement = .element then ⟨m.arrangement, m.items.map (Item.withBounds bounds), bounds⟩
  else { m with bounds }

/-- Whether the model is empty, and so adds nothing among others. -/
def isVacuous (m : ContentModel Text) : Bool := m.arrangement = .empty && m.items.isEmpty

end ContentModel

/-- The item of a reference that is not resolved. -/
def unresolvedItem (name : Text) : Option (Item Text) :=
  if name.isEmpty then none else some (.pattern name Bounds.once)

/-- The item of an element in a pattern. -/
def elementItem (name : Text) : Option (Item Text) :=
  if name.isEmpty then none else some (.element name Bounds.once)

namespace Pattern

mutual

/-- The model of a list of patterns: empty for none, the model of the one, a sequence of several.
What is no content is passed over. -/
def contentModel : List Pattern → Option (ContentModel Text)
  | [] => some ⟨.empty, [], Bounds.never⟩
  | p :: ps =>
    if p.isContent then
      if ps.any isContent then some ⟨.sequence, (toItem p).toList ++ toItems ps, Bounds.once⟩
      else toModel p
    else contentModel ps

/-- The model of a pattern that is an element's only content. -/
def toModel : Pattern → Option (ContentModel Text)
  | .element name => some ⟨.element, (elementItem name).toList, Bounds.once⟩
  | .text => some ⟨.text, [], Bounds.anyNumber⟩
  | .data => some ⟨.text, [], Bounds.anyNumber⟩
  | .empty => some ⟨.empty, [], Bounds.never⟩
  | .combine kind body => some ⟨kind.arrangement, kind.ownItems ++ toItems body, Bounds.once⟩
  | .occurs kind body =>
    (contentModel body).map fun m => m.rebound (kind.boundsAlone m.bounds)
  | .ref name => some ⟨.group, (unresolvedItem name).toList, Bounds.once⟩
  | .resolved name body =>
    match contentModel body with
    | some m => some m
    | none => some ⟨.group, (unresolvedItem name).toList, Bounds.once⟩
  | .attr _ => none
  | .commentary => none
  | .other => none
  | .misnamed _ => none

/-- The item of a pattern among others. -/
def toItem : Pattern → Option (Item Text)
  | .element name => elementItem name
  | .text => some (.text Bounds.anyNumber)
  | .data => some (.text Bounds.anyNumber)
  | .combine kind body =>
    some (.group ⟨kind.arrangement, kind.ownItems ++ toItems body, Bounds.once⟩ Bounds.once)
  | .occurs kind body =>
    match contentModel body with
    | none => none
    | some m => if m.isVacuous then none else some (.group m kind.bounds)
  | .ref name => unresolvedItem name
  | .resolved name body =>
    match contentModel body with
    | some m => some (.group m m.bounds)
    | none => unresolvedItem name
  | .empty => none
  | .attr _ => none
  | .commentary => none
  | .other => none
  | .misnamed _ => none

/-- The items of a list of patterns. -/
def toItems : List Pattern → List (Item Text)
  | [] => []
  | p :: ps => (toItem p).toList ++ toItems ps

end

/-! ### Attributes -/

mutual

/-- The attribute patterns that patterns lead to, in the order of the document, each with whether it
is required where it stands. -/
def attributesOfAll (isRequired : Bool) : List Pattern → List (AttributePattern × Bool)
  | [] => []
  | p :: ps => attributesOf isRequired p ++ attributesOfAll isRequired ps

/-- The attribute patterns that a pattern leads to. -/
def attributesOf (isRequired : Bool) : Pattern → List (AttributePattern × Bool)
  | .attr a => if a.name.isEmpty then [] else [(a, isRequired)]
  | .occurs kind body => attributesOfAll (isRequired && kind = .oneOrMore) body
  | .combine kind body =>
    match kind with
    | .mixed => []
    | .choice => attributesOfAll false body
    | _ => attributesOfAll isRequired body
  | .resolved _ body => attributesOfAll isRequired body
  | _ => []

end

/-- The attribute of a pattern. -/
def attributeSpec (a : AttributePattern) (isRequired : Bool) : AttributeSpec Text where
  name := a.name
  isRequired := isRequired
  values := if a.values.isEmpty then none else some a.values
  defaultValue := none
  datatype := a.datatype
  documentation := a.documentation
  suggested := none

/-- One attribute for each name: the first pattern says what it is, and it is required if any
occurrence is. -/
def mergeAttributes (occurrences : List (AttributePattern × Bool)) : List (AttributeSpec Text) :=
  occurrences.foldl
    (fun found (a, isRequired) =>
      if found.any (·.name = a.name) then
        found.map fun f => if f.name = a.name && isRequired then { f with isRequired := true } else f
      else found ++ [attributeSpec a isRequired]) []

end Pattern

/-! ### Grammars -/

/-- Why a grammar is not imported. -/
inductive RngError where
  /-- It is not a well-formed document. -/
  | unreadable
  /-- It declares no element with a name. -/
  | noElements
  /-- A node in it cannot be named. -/
  | misnamed (name : Text)
deriving DecidableEq

namespace RngError

/-- The wording of an error. -/
def message : RngError → Text
  | .unreadable => Text.ofString "RNG parse error"
  | .noElements => Text.ofString "RNG grammar declares no named elements"
  | .misnamed name => Text.ofString "Invalid tag name " ++ name.quoted

end RngError

namespace RngGrammar

/-- The definition of an element. -/
def elementSpec (g : RngGrammar) (e : ElementPattern) : ElementSpec Text :=
  let body := Pattern.expandAll g.defines e.body
  { name := e.name
    documentation := e.documentation
    attributeClasses := []
    modelClasses := []
    attributes := Pattern.mergeAttributes (Pattern.attributesOfAll true body)
    shape := none
    content :=
      match Pattern.contentModel body with
      | some m => .model m
      | none => .children [] }

/-- The named elements, the first of each name. -/
def namedElements (g : RngGrammar) : List ElementPattern :=
  g.elements.foldl
    (fun found e =>
      if e.name.isEmpty || found.any fun (f : ElementPattern) => f.name = e.name then found
      else found ++ [e]) []

/-- The definitions of the named elements, in alphabetical order without regard to case. -/
def elementSpecs (g : RngGrammar) : List (ElementSpec Text) :=
  let keyed := g.namedElements.map fun e => (e.name.lower, g.elementSpec e)
  (keyed.mergeSort fun (a, _) (b, _) => Text.compare a b != .gt).map (·.2)

end RngGrammar

/-- Reads the element definitions of a grammar. -/
def parseRng (document : Text) : Except RngError (List (ElementSpec Text)) :=
  match Xml.parse? document with
  | none => .error .unreadable
  | some root =>
    let g := RelaxNg.ofXml root
    match g.namedElements.findSome? g.obstacleOf with
    | some name => .error (.misnamed name)
    | none =>
      match g.elementSpecs with
      | [] => .error .noElements
      | specs => .ok specs

/-- The schema of a grammar's elements. -/
def Schema.ofRng (id name : Json) (elements : List (ElementSpec Text)) : Schema Json :=
  Schema.ofElements id name (elements.map (·.map Json.text))

end MarkupGrammar
