import MarkupGrammar.Grammar.Label
import MarkupGrammar.Markup.Position

/-!
# Diagnostics

What the checks find wrong with a document is a `Finding`: data about the defect, not a sentence. A
diagnostic is a finding with a position. Code, severity and wording are functions of the finding, so
that laws of the checks do not depend on how a defect is worded.

Long lists of names are cut in a message. The limits count from the end of the list when they are
negative.
-/

namespace MarkupGrammar

/-- How bad a defect is. -/
inductive Severity where
  | error
  | warning
deriving DecidableEq

namespace Severity

def word : Severity → String
  | .error => "error"
  | .warning => "warning"

end Severity

/-- A defect of a document, with what a message about it has to name. -/
inductive Finding (Name : Type) where
  | unknownElement (name : Text)
  | unknownAttribute (attr element : Text)
  | invalidValue (value attr : Text) (allowed : List Name)
  | invalidNesting (child parent : Text)
  | missingAttribute (attr : Name) (element : Text)
  | choiceViolation (child other : Name) (parent : Text)
  | tooMany (child : Name) (most : Nat) (parent : Text)
  | tooFew (child : Name) (least : Nat) (parent : Text)
  | missingChild (parent : Text) (child : Name)
  | selfClosing (element : Text) (required : List Name)
  | notEmpty (parent : Text)
  | unclosed (name : Text)

/-- A defect at a place. What a place is does not matter to a check, which only hands it on. -/
structure Diagnostic (Name : Type) (Place : Type := Position) where
  finding : Finding Name
  position : Place

/-- How many names of a list a message shows. A limit that is no integer admits no message. -/
structure PreviewLimits where
  values : Option Int
  children : Option Int

namespace PreviewLimits

/-- The limits that hold unless others are set. -/
def standard : PreviewLimits := ⟨some 5, some 3⟩

end PreviewLimits

/-- The first items of a list up to a limit; a negative limit counts from the end. -/
def takeUpTo {α : Type} (limit : Int) (xs : List α) : List α :=
  match limit with
  | .ofNat n => xs.take n
  | .negSucc n => xs.take (xs.length - (n + 1))

namespace Finding

variable {Name : Type}

/-- The code that names the kind of defect. -/
def code : Finding Name → String
  | .unknownElement _ => "unknown_element"
  | .unknownAttribute .. => "unknown_attribute"
  | .invalidValue .. => "invalid_attribute_value"
  | .invalidNesting .. => "invalid_nesting"
  | .missingAttribute .. => "missing_required_attribute"
  | .choiceViolation .. => "choice_violation"
  | .tooMany .. => "cardinality_exceeded"
  | .tooFew .. => "cardinality_below_minimum"
  | .missingChild .. => "missing_required_child"
  | .selfClosing .. => "self_closing_with_required_children"
  | .notEmpty _ => "invalid_empty_content"
  | .unclosed _ => "unclosed_tag"

/-- How bad the kind of defect is. -/
def severity : Finding Name → Severity
  | .unknownElement _ => .warning
  | .unknownAttribute .. => .warning
  | .invalidValue .. => .warning
  | .invalidNesting .. => .error
  | .missingAttribute .. => .error
  | .choiceViolation .. => .error
  | .tooMany .. => .error
  | .tooFew .. => .warning
  | .missingChild .. => .warning
  | .selfClosing .. => .warning
  | .notEmpty _ => .error
  | .unclosed _ => .error

/-- An element's name as a message shows it. -/
def tag (name : Text) : Text := Text.ofString "<" ++ name ++ Text.ofString ">"

variable [Label Name]

/-- The names of a list up to a limit, with a mark when some are left out. Only texts can be
listed. -/
def preview? (limit : Option Int) (names : List Name) : Option Text := do
  let limit ← limit
  let shown ← (takeUpTo limit names).mapM Label.text?
  let mark := if limit < (names.length : Int) then Text.ofString "..." else []
  return Text.join (Text.ofString ", ") shown ++ mark

/-- The wording of a defect; `none` when it has to list something that is no text. -/
def message? (limits : PreviewLimits) : Finding Name → Option Text
  | .unknownElement name => some (Text.ofString "Unknown element " ++ tag name)
  | .unknownAttribute attr element =>
    some (Text.ofString "Unknown attribute \"" ++ attr ++ Text.ofString "\" on " ++ tag element)
  | .invalidValue value attr allowed =>
    (preview? limits.values allowed).map fun shown =>
      Text.ofString "Invalid value \"" ++ value ++ Text.ofString "\" for @" ++ attr
        ++ Text.ofString ". Allowed: " ++ shown
  | .invalidNesting child parent =>
    some (tag child ++ Text.ofString " is not allowed inside " ++ tag parent)
  | .missingAttribute attr element =>
    some (Text.ofString "Missing required attribute \"" ++ Label.plain attr
      ++ Text.ofString "\" on " ++ tag element)
  | .choiceViolation child other parent =>
    some (tag (Label.plain child) ++ Text.ofString " cannot be used together with "
      ++ tag (Label.plain other) ++ Text.ofString " inside " ++ tag parent
      ++ Text.ofString " (choice violation)")
  | .tooMany child most parent =>
    some (tag (Label.plain child) ++ Text.ofString " can appear at most " ++ Text.ofNat most
      ++ Text.ofString " time(s) in " ++ tag parent)
  | .tooFew child least parent =>
    some (tag (Label.plain child) ++ Text.ofString " must appear at least " ++ Text.ofNat least
      ++ Text.ofString " time(s) in " ++ tag parent)
  | .missingChild parent child =>
    some (tag parent ++ Text.ofString " requires " ++ tag (Label.plain child)
      ++ Text.ofString " child element")
  | .selfClosing element required =>
    (preview? limits.children required).map fun shown =>
      Text.ofString "<" ++ element ++ Text.ofString "/> is self-closing but requires children: "
        ++ shown
  | .notEmpty parent => some (tag parent ++ Text.ofString " should be empty but contains children")
  | .unclosed name => some (Text.ofString "Unclosed tag " ++ tag name)

end Finding

end MarkupGrammar
