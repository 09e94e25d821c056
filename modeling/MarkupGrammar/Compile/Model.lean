import MarkupGrammar.Compile.Expansion

/-!
# From particles to content models

An expanded particle becomes a model when it stands alone and an item when it stands among others.
The two differ in what they make of a particle without content: alone it is an empty model, among
others it is dropped. A reference's own bounds replace those of the macro it refers to.
-/

namespace MarkupGrammar

variable {Name : Type}

namespace ContentModel

/-- The model of an element that declares no particles. -/
def ofNoParticles : ContentModel Name := ⟨.empty, [], Bounds.optional⟩

/-- The choice of the members of a class; nothing for a class without members. -/
def ofMembers (names : List Name) (bounds : Bounds) : Option (ContentModel Name) :=
  match names with
  | [] => none
  | names => some ⟨.choice, names.map fun n => .element n Bounds.once, bounds⟩

/-- The model with other bounds. -/
def withBounds (m : ContentModel Name) (bounds : Bounds) : ContentModel Name :=
  { m with bounds }

end ContentModel

namespace GroupKind

/-- The arrangement of the items of a group. -/
def arrangement : GroupKind → Arrangement
  | .sequence => .sequence
  | .choice => .choice
  | .interleave => .interleave

end GroupKind

namespace Expansion

mutual

/-- The model of a particle that stands alone. -/
def toModel : Expansion Name → Option (ContentModel Name)
  | .group kind parts bounds => some ⟨kind.arrangement, toItems parts, bounds⟩
  | .element name bounds => some ⟨.element, [.element name bounds], bounds⟩
  | .members names bounds => ContentModel.ofMembers names bounds
  | .content parts bounds => (compile parts).map fun m => m.withBounds bounds
  | .text bounds => some ⟨.text, [], bounds⟩
  | .empty => some ⟨.empty, [], Bounds.never⟩
  | .nothing => none
  | .unusable => none

/-- The item of a particle that stands among others. -/
def toItem : Expansion Name → Option (Item Name)
  | .group kind parts bounds =>
    some (.group ⟨kind.arrangement, toItems parts, bounds⟩ bounds)
  | .element name bounds => some (.element name bounds)
  | .members names bounds =>
    (ContentModel.ofMembers names Bounds.once).map fun m => .group m bounds
  | .content parts bounds =>
    match compile parts with
    | none => none
    | some m => if m.arrangement = .empty then none else some (.group m bounds)
  | .text bounds => some (.text bounds)
  | .empty => none
  | .nothing => none
  | .unusable => none

/-- The items of a list of particles. -/
def toItems : List (Expansion Name) → List (Item Name)
  | [] => []
  | e :: es =>
    match e.toItem with
    | none => toItems es
    | some item => item :: toItems es

/-- The model of a list of particles: empty for none, the model of the one, a sequence of several.
Nothing when several particles leave no item. -/
def compile : List (Expansion Name) → Option (ContentModel Name)
  | [] => some ContentModel.ofNoParticles
  | [e] => e.toModel
  | e :: f :: es =>
    match (match e.toItem with
      | none => toItems (f :: es)
      | some item => item :: toItems (f :: es)) with
    | [] => none
    | items => some ⟨.sequence, items, Bounds.once⟩

end

end Expansion

namespace CorpusIndex

variable [Label Name]

/-- The expansion of content that may not be declared, with the macros not yet visited. -/
def expandContent (index : CorpusIndex Name) (visited : List Name)
    (content : Option (List (Particle Name))) : List (Expansion Name) :=
  expandAll index (index.macrosWithout visited) (content.getD [])

/-- The content model of particles, with macros already visited on the way to them. -/
def compileContent (index : CorpusIndex Name) (visited : List Name)
    (content : Option (List (Particle Name))) : Option (ContentModel Name) :=
  Expansion.compile (index.expandContent visited content)

end CorpusIndex

end MarkupGrammar
