import MarkupGrammar.Check.Structure
import MarkupGrammar.Markup.Balance
import MarkupGrammar.Xml.Document

/-!
# Validation of a document

A document is checked for its structure only once it is well formed. When it is not, one diagnostic
says so, placed where the tags show the mistake, if they show it.
-/

namespace MarkupGrammar

/-- Where a malformed document shows its mistake. -/
inductive MalformedPlace where
  /-- A `<` that cannot begin markup. -/
  | stray (position : Position)
  /-- A tag without a counterpart. -/
  | unbalanced (problem : TagProblem) (position : Position)
  /-- Nowhere in its tags. -/
  | elsewhere
deriving DecidableEq

namespace MalformedPlace

/-- The place of the mistake: a stray `<` before a tag without a counterpart. -/
def ofText (document : Text) : MalformedPlace :=
  match Text.strayBracket? document with
  | some position => .stray position
  | none =>
    match Balance.mismatch? (Tag.ofText document) with
    | some (problem, position) => .unbalanced problem position
    | none => .elsewhere

end MalformedPlace

/-- Where a document that is not well formed shows its mistake; nothing for a well-formed
document. -/
def checkWellFormed (document : Text) : Option MalformedPlace :=
  if Xml.isWellFormed document then none else some (MalformedPlace.ofText document)

/-- What is found in a document: that it is malformed, or the defects of its structure. -/
inductive Validation (Name : Type) where
  | malformed (place : MalformedPlace)
  | checked (diagnostics : List (Diagnostic Name))

namespace Schema

/-- Validates a document. A blank document has no defects. -/
def validate {Name : Type} [Label Name] (s : Schema Name) (document : Text) : Validation Name :=
  if document.isBlank then .checked []
  else
    match checkWellFormed document with
    | some place => .malformed place
    | none => .checked (s.checkStructure document)

end Schema

end MarkupGrammar
