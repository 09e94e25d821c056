import MarkupGrammar.Binary64.Shortest
import MarkupGrammar.Json.Basic
import MarkupGrammar.Text.Quoted

/-!
# Values in messages

An error names the value that it is about. `Json.quoted` is the exact form, in which a text stands
between quotes and so cannot be taken for a number; `Json.plain` is the running form, in which a
text at the top stands for itself.
-/

namespace MarkupGrammar

namespace Json

mutual

/-- The exact form of a value in a message. -/
def quoted : Json → Text
  | .null => Text.ofString "None"
  | .bool true => Text.ofString "True"
  | .bool false => Text.ofString "False"
  | .int i => Text.ofInt i
  | .float x => Binary64.messageLayout.render x
  | .text t => t.quoted
  | .array items =>
    CodePoint.ofChar '[' :: Text.join (Text.ofString ", ") (quotedItems items)
      ++ [CodePoint.ofChar ']']
  | .object fields =>
    CodePoint.ofChar '\x7b' :: Text.join (Text.ofString ", ") (quotedFields fields)
      ++ [CodePoint.ofChar '\x7d']

def quotedItems : List Json → List Text
  | [] => []
  | x :: xs => quoted x :: quotedItems xs

def quotedFields : List (Text × Json) → List Text
  | [] => []
  | (k, v) :: r => (k.quoted ++ Text.ofString ": " ++ quoted v) :: quotedFields r

end

/-- The running form of a value in a message. -/
def plain : Json → Text
  | .text t => t
  | v => v.quoted

/-- A name as the key of an object. -/
def keyText (name : Json) : Text :=
  match name with
  | .text t => t
  | .null => Text.ofString "null"
  | .bool true => Text.ofString "true"
  | .bool false => Text.ofString "false"
  | .float x => Binary64.jsonLayout.render x
  | v => v.quoted

end Json

end MarkupGrammar
