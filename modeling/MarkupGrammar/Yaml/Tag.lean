import MarkupGrammar.Yaml.Number
import MarkupGrammar.Yaml.Timestamp

/-!
# Tags

A tag says what a node's value is. A plain scalar without a tag gets one by its form; the forms of
two tags never meet. Two tags have no value of their own and matter as keys only: that of entries to
be merged, and that of a mapping's own value.
-/

namespace MarkupGrammar

namespace Yaml

/-- What a node's value is. -/
inductive Tag where
  | null
  | bool
  | int
  | float
  | timestamp
  | text
  | sequence
  | mapping
  | pairs
  /-- Entries of another mapping, to be merged into this one. -/
  | merge
  /-- The value of the mapping that it is a key of, where a scalar is asked for. -/
  | value
  /-- One that no value in JSON belongs to. -/
  | other
deriving DecidableEq

namespace Tag

/-- The tag of an address. -/
def ofAddress (t : Text) : Tag :=
  match Text.after? (Text.ofString "tag:yaml.org,2002:") t with
  | none => .other
  | some name =>
    let names : List (String × Tag) :=
      [("null", .null), ("bool", .bool), ("int", .int), ("float", .float),
       ("timestamp", .timestamp), ("str", .text), ("seq", .sequence), ("map", .mapping), ("omap", .pairs), ("pairs", .pairs),
       ("merge", .merge), ("value", .value)]
    ((names.find? fun (word, _) => name = Text.ofString word).map fun (_, tag) => tag).getD .other

/-- The words for truth, in the three ways of writing them. -/
def truthWords : List String :=
  ["yes", "Yes", "YES", "true", "True", "TRUE", "on", "On", "ON"]

/-- The words for falsehood. -/
def falseWords : List String :=
  ["no", "No", "NO", "false", "False", "FALSE", "off", "Off", "OFF"]

/-- The tag that a plain scalar has by its form. -/
def ofPlain (t : Text) : Tag :=
  let isAmong (words : List String) : Bool := words.any fun w => t = Text.ofString w
  if isAmong (truthWords ++ falseWords) then .bool
  else if Number.isDouble t then .float
  else if Number.isInteger t then .int
  else if isAmong ["<<"] then .merge
  else if isAmong ["", "~", "null", "Null", "NULL"] then .null
  else if (Timestamp.ofText? true t).isSome then .timestamp
  else if isAmong ["="] then .value
  else if isAmong ["!", "&", "*"] then .other
  else .text

end Tag

/-- The truth value of a scalar, which may be written in any case. -/
def toTruth (t : Text) : Except YamlError Bool :=
  let word := Number.lower t
  if ["yes", "true", "on"].any fun w => word = Text.ofString w then .ok true
  else if ["no", "false", "off"].any fun w => word = Text.ofString w then .ok false
  else .error (.notATruthValue word)

/-- The value of a scalar with a tag. -/
def scalarValue (tag : Tag) (t : Text) : Except YamlError Json :=
  match tag with
  | .null => .ok .null
  | .bool => (toTruth t).map .bool
  | .int => (Number.toInteger t).map .int
  | .float => (Number.toDouble t).map .float
  | .timestamp =>
    match Timestamp.ofText? false t with
    | none => .error .notATime
    | some time =>
      match time.impossible? with
      | some part => .error (.impossibleTime part)
      | none => .ok (.text time.toText)
  | .text => .ok (.text t)
  | _ => .error .malformed

end Yaml

end MarkupGrammar
