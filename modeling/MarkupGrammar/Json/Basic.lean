import MarkupGrammar.Binary64.Basic
import MarkupGrammar.Text.Numeral

/-!
# JSON values

Grammars, compiled modules and requests are JSON. The fields of an object keep the order in which
they were written, because a compiled module lists its elements and classes in that order; a key
that is written twice keeps its first place and its last value. Integers are unbounded and apart
from doubles, since a bound of `1` is an integer and one of `1.0` is not.

`Json.same` is equality of values as keys: `1`, `1.0` and `true` are the same number, and "not a
number" is the same as itself. It is what decides whether two names are the same name, and it is the
equality test of `BEq`, coarser than propositional equality.
-/

namespace MarkupGrammar

/-- A JSON value. -/
inductive Json where
  | null
  | bool (b : Bool)
  | int (i : Int)
  | float (x : Binary64)
  | text (t : Text)
  | array (items : List Json)
  | object (fields : List (Text × Json))

namespace Json

instance : Inhabited Json := ⟨.null⟩

instance : Coe Text Json := ⟨.text⟩

/-- A JSON text from a string literal. -/
def string (s : String) : Json := .text (Text.ofString s)

/-- A JSON integer from a natural number. -/
def nat (n : Nat) : Json := .int n

/-- An object with the given fields, whose keys are written as string literals. -/
def ofFields (fields : List (String × Json)) : Json :=
  .object (fields.map fun (k, v) => (Text.ofString k, v))

/-- The value under a key. -/
def lookup (key : Text) : List (Text × Json) → Option Json
  | [] => none
  | (k, v) :: r => if k = key then some v else lookup key r

/-- Writes a field: a key that is already there keeps its place. -/
def insertField (key : Text) (value : Json) : List (Text × Json) → List (Text × Json)
  | [] => [(key, value)]
  | (k, v) :: r => if k = key then (k, value) :: r else (k, v) :: insertField key value r

/-- The value of a field of an object. -/
def field? (key : String) : Json → Option Json
  | .object fields => lookup (Text.ofString key) fields
  | _ => none

/-- The fields of an object. -/
def object? : Json → Option (List (Text × Json))
  | .object fields => some fields
  | _ => none

/-- The items of an array. -/
def array? : Json → Option (List Json)
  | .array items => some items
  | _ => none

/-- The text of a JSON string. -/
def text? : Json → Option Text
  | .text t => some t
  | _ => none

/-- Whether the value is a field that says nothing: null, false, zero, or an empty text, array or
object. -/
def isVoid : Json → Bool
  | .null => true
  | .bool b => !b
  | .int i => i == 0
  | .float x => x.isZero
  | .text t => t.isEmpty
  | .array items => items.isEmpty
  | .object fields => fields.isEmpty

/-- A number with its exact value, where the value is an integer, a boolean counting as 0 or 1. -/
def toInt? : Json → Option Int
  | .bool b => some (if b then 1 else 0)
  | .int i => some i
  | .float x => x.toInt?
  | _ => none

/-- Whether two scalars are the same value; numbers are compared by what they count. -/
def sameScalar (a b : Json) : Bool :=
  match a.toInt?, b.toInt? with
  | some i, some j => i == j
  | some _, none => false
  | none, some _ => false
  | none, none =>
    match a, b with
    | .null, .null => true
    | .text s, .text t => s == t
    | .float x, .float y => x.same y
    | _, _ => false

mutual

/-- Whether two values are the same. The order of an object's fields does not count. -/
def same : Json → Json → Bool
  | .array xs, b =>
    match b with
    | .array ys => sameItems xs ys
    | _ => false
  | .object fs, b =>
    match b with
    | .object gs => fs.length == gs.length && sameFields fs gs
    | _ => false
  | a, b => sameScalar a b

/-- Whether two arrays hold the same values in the same order. -/
def sameItems : List Json → List Json → Bool
  | [], ys => ys.isEmpty
  | x :: xs, ys =>
    match ys with
    | [] => false
    | y :: ys => same x y && sameItems xs ys

/-- Whether each field is found with the same value among other fields. -/
def sameFields : List (Text × Json) → List (Text × Json) → Bool
  | [], _ => true
  | (k, v) :: r, gs =>
    match lookup k gs with
    | none => false
    | some w => same v w && sameFields r gs

end

instance : BEq Json := ⟨same⟩

/-- Whether the value can name something, that is, can be looked up: arrays and objects cannot. -/
def isName : Json → Bool
  | .array _ => false
  | .object _ => false
  | _ => true

/-- A number as a quotient; an infinity has the denominator zero. -/
def quotient? : Json → Option (Int × Nat)
  | .bool b => some (if b then 1 else 0, 1)
  | .int i => some (i, 1)
  | .float (.finite negative m e) =>
    let (n, d) := Binary64.quotient m e
    some (if negative then -(n : Int) else n, d)
  | .float (.infinity negative) => some (if negative then -1 else 1, 0)
  | .float .nan => some (0, 0)
  | _ => none

/-- The order of two names, where they have one: texts by code point, numbers by size. -/
def compare? (a b : Json) : Option Ordering :=
  match a, b with
  | .text s, .text t => some (Text.compare s t)
  | a, b =>
    match a.quotient?, b.quotient? with
    | some (n, d), some (n', d') => some (Ord.compare (n * d') (n' * d))
    | _, _ => none

end Json

end MarkupGrammar
