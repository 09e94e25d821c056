import MarkupGrammar.Corpus.Index

/-!
# Expansion of references

Before particles become a content model, every reference in them is replaced by what it refers to: a
reference to a class by the members of the class, one to a macro by the macro's own particles.
Macros may refer to each other in circles. A macro is expanded at most once on any path: what lies
inside a macro is expanded with the macros that are left when that one is taken out.

So expansion is recursion on the macros that are left, and within one macro on its particles. The
result is a finite tree with no references in it, and all that comes later is recursion on that
tree.
-/

namespace MarkupGrammar

/-- The kinds of particles that group others. -/
inductive GroupKind where
  | sequence
  | choice
  | interleave
deriving DecidableEq

/-- A particle without references. -/
inductive Expansion (Name : Type) where
  | group (kind : GroupKind) (parts : List (Expansion Name)) (bounds : Bounds)
  | element (name : Name) (bounds : Bounds)
  /-- A choice of the members of a class. -/
  | members (names : List Name) (bounds : Bounds)
  /-- The content of a macro. -/
  | content (parts : List (Expansion Name)) (bounds : Bounds)
  | text (bounds : Bounds)
  | empty
  /-- A particle that stands for nothing: of an unknown type, or with a reference that leads nowhere
  or back into a macro that it is in. -/
  | nothing
  /-- A reference by a value that cannot be a name. -/
  | unusable

namespace CorpusIndex

variable {Name : Type} [Label Name]

/-- The macros that are left when those already visited are taken out. -/
def macrosWithout (index : CorpusIndex Name) (visited : List Name) : Table Name (MacroDef Name) :=
  index.macros.filter fun (key, _) => !visited.elem key

mutual

/-- Expands a particle with the macros that are left. -/
def expand (index : CorpusIndex Name) (left : Table Name (MacroDef Name)) :
    Particle Name → Expansion Name
  | ⟨kind, key, bounds, content⟩ =>
    match kind with
    | .sequence => .group .sequence (expandAll index left content) bounds
    | .alternate => .group .choice (expandAll index left content) bounds
    | .interleave => .group .interleave (expandAll index left content) bounds
    | .textNode => .text bounds
    | .empty => .empty
    | .unsupported => .nothing
    | .elementRef =>
      match key with
      | none => .nothing
      | some name => if Label.isVoid name then .nothing else .element name bounds
    | .classRef =>
      match key with
      | none => .nothing
      | some name =>
        if Label.isVoid name then .nothing
        else if !Label.isName name then .unusable
        else .members (index.membersOf name) bounds
    | .macroRef =>
      match key with
      | none => .nothing
      | some name =>
        if Label.isVoid name then .nothing
        else if !Label.isName name then .unusable
        else
          match h : left.take? name with
          | none => .nothing
          | some (definition, rest) =>
            have : rest.length < left.length := by
              have := Table.length_of_take? h
              omega
            match definition.content with
            | none => .nothing
            | some particles => .content (expandAll index rest particles) bounds
termination_by p => (left.length, sizeOf p)

/-- Expands the particles of a list. -/
def expandAll (index : CorpusIndex Name) (left : Table Name (MacroDef Name)) :
    List (Particle Name) → List (Expansion Name)
  | [] => []
  | p :: ps => expand index left p :: expandAll index left ps
termination_by ps => (left.length, sizeOf ps)

end

end CorpusIndex

namespace Expansion

variable {Name : Type}

mutual

/-- Whether every reference in an expansion is by a value that can be a name. -/
def isUsable : Expansion Name → Bool
  | .group _ parts _ => areUsable parts
  | .content parts _ => areUsable parts
  | .unusable => false
  | _ => true

/-- Whether every reference in a list of expansions is by a value that can be a name. -/
def areUsable : List (Expansion Name) → Bool
  | [] => true
  | e :: es => e.isUsable && areUsable es

end

end Expansion

end MarkupGrammar
