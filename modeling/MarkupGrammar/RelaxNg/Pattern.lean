import MarkupGrammar.Grammar.Label

/-!
# RELAX NG patterns

A RELAX NG grammar gives each element a list of patterns, and may name lists of patterns to refer
to. References may go in circles. Before anything is read off patterns, each reference is replaced
by the patterns it refers to, at most once on any path; what is left is a finite tree in which a
reference stands only where it leads nowhere or back into itself.

An element inside a pattern stands for its name. Its own patterns belong to that element's
definition and not to the one it occurs in.

A node that cannot be named is kept as a pattern that says nothing, since the import may stumble
over it.
-/

namespace MarkupGrammar

/-- The patterns that say how often their content may occur. -/
inductive RepeatKind where
  | optional
  | zeroOrMore
  | oneOrMore
deriving DecidableEq

/-- The patterns that combine others. -/
inductive CombineKind where
  | choice
  | interleave
  | group
  | mixed
deriving DecidableEq

/-- What an attribute pattern says of an attribute. `obstacle` is the name of a node that cannot be
named and stands before its description. -/
structure AttributePattern where
  name : Text
  values : List Text
  datatype : Option Text
  documentation : Option Text
  obstacle : Option Text
deriving DecidableEq

/-- A pattern. -/
inductive Pattern where
  | element (name : Text)
  | attr (a : AttributePattern)
  /-- A description of the pattern it stands in. -/
  | commentary
  | text
  /-- A datum, a fixed value or a list of such. -/
  | data
  | empty
  | combine (kind : CombineKind) (body : List Pattern)
  | occurs (kind : RepeatKind) (body : List Pattern)
  | ref (name : Text)
  /-- A reference with the patterns it refers to. -/
  | resolved (name : Text) (body : List Pattern)
  /-- A pattern that says nothing about content. -/
  | other
  /-- A node that cannot be named, as it is written. -/
  | misnamed (name : Text)

namespace Pattern

mutual

/-- The pattern with its references replaced by the definitions that are left. -/
def expand (left : Table Text (List Pattern)) : Pattern → Pattern
  | .combine kind body => .combine kind (expandAll left body)
  | .occurs kind body => .occurs kind (expandAll left body)
  | .resolved name body => .resolved name (expandAll left body)
  | .ref name =>
    match h : left.take? name with
    | none => .ref name
    | some (body, rest) =>
      have : sizeOf rest + sizeOf body < sizeOf left := Table.sizeOf_of_take? h
      .resolved name (expandAll rest body)
  | p => p
termination_by p => sizeOf left + sizeOf p

/-- The patterns of a list with their references replaced. -/
def expandAll (left : Table Text (List Pattern)) : List Pattern → List Pattern
  | [] => []
  | p :: ps => expand left p :: expandAll left ps
termination_by ps => sizeOf left + sizeOf ps

end

/-- Whether a pattern belongs to the content of the element it stands in. -/
def isContent : Pattern → Bool
  | .attr _ => false
  | .commentary => false
  | .misnamed _ => false
  | _ => true

end Pattern

/-- An element with the patterns of its definition. `obstacle` is the name of a node that cannot be
named and stands before its description. -/
structure ElementPattern where
  name : Text
  documentation : Option Text
  obstacle : Option Text
  body : List Pattern

/-- A grammar: its elements in the order of the document, and its named lists of patterns, the first
of each name. -/
structure RngGrammar where
  elements : List ElementPattern
  defines : Table Text (List Pattern)

end MarkupGrammar
