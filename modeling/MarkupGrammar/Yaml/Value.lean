import MarkupGrammar.Json.Display
import MarkupGrammar.Yaml.Node

/-!
# Values of YAML

The value of a document is a JSON value. A mapping takes over the entries of those merged into it,
unless it has them itself; of several in a sequence the first counts. Keys are scalars and compared
as values, so that the keys `1` and `true` are one key; in an object a key is a text again.

A tag may ask for what a node does not have, and a document may hold several such faults. The one
that counts is the one nested least, and of these the first.
-/

namespace MarkupGrammar

namespace Yaml

/-- The value of a node, or the fault that counts and how much deeper than the node it is met. -/
abbrev Outcome := Except (Nat × YamlError) Json

namespace Outcome

/-- Something wrong with the node itself. -/
def wrong : Outcome := .error (0, .malformed)

/-- The fault that counts among some, if there is one. -/
def leastFault : List Outcome → Option (Nat × YamlError)
  | [] => none
  | .ok _ :: r => leastFault r
  | .error f :: r =>
    match leastFault r with
    | none => some f
    | some f' => if f.1 ≤ f'.1 then some f else some f'

/-- The values of some outcomes that are met one level deeper. -/
def inner (outcomes : List Outcome) : Except (Nat × YamlError) (List Json) :=
  match leastFault outcomes with
  | some (level, e) => .error (level + 1, e)
  | none => .ok (outcomes.filterMap fun o => o.toOption)

end Outcome

/-- A key and its value. -/
abbrev Pair := Outcome × Outcome

/-- Writes an entry: a key that is already there keeps its place. -/
def insertEntry (key value : Json) : List (Json × Json) → List (Json × Json)
  | [] => [(key, value)]
  | (k, v) :: r => if k == key then (k, value) :: r else (k, v) :: insertEntry key value r

/-- The object with some entries. -/
def objectOf (entries : List (Json × Json)) : Json :=
  .object (entries.foldl (fun fields (k, v) => Json.insertField k.keyText v fields) [])

/-- The entries of keys and values that alternate. -/
def alternate : List Json → List (Json × Json)
  | k :: v :: r => (k, v) :: alternate r
  | _ => []

/-- The value of a mapping with some entries. A key has to be a scalar. -/
def mappingValue (pairs : List Pair) : Outcome := do
  let key (o : Outcome) : Outcome :=
    match o with
    | .ok k => if k.isName then .ok k else Outcome.wrong
    | .error e => .error e
  let values ← Outcome.inner (pairs.flatMap fun (k, v) => [key k, v])
  return objectOf ((alternate values).foldl (fun entries (k, v) => insertEntry k v entries) [])

/-- The value of a list of pairs. -/
def pairsValue (pairs : List Pair) : Outcome := do
  let values ← Outcome.inner (pairs.flatMap fun (k, v) => [k, v])
  return .array ((alternate values).map fun (k, v) => .array [k, v])

/-- Entries to be merged into a mapping, and its own. -/
structure Entries where
  merged : List Pair
  own : List Pair

/-- All entries, those that count later. -/
def Entries.all (es : Entries) : List Pair := es.merged ++ es.own

mutual

/-- The text of a node where a scalar is asked for. -/
def Node.text? : Node → Option Text
  | .scalar _ t => some t
  | .sequence .. => none
  | .mapping _ entries => ownValue? entries

/-- The text of a mapping's own value. -/
def ownValue? : List (Node × Node) → Option Text
  | [] => none
  | (k, v) :: r => if k.tag = .value then v.text? else ownValue? r

end

/-- The value of a node that is to be a scalar. -/
def Node.scalarOutcome (n : Node) : Outcome :=
  match n.text? with
  | none => Outcome.wrong
  | some t => (scalarValue n.tag t).mapError fun e => (0, e)

mutual

/-- The value of a node. What a collection holds is looked at after all that it stands beside. -/
def Node.outcome : Node → Outcome
  | .scalar tag t =>
    if tag = .sequence || tag = .mapping || tag = .pairs then .error (1, .malformed)
    else (scalarValue tag t).mapError fun e => (0, e)
  | .sequence tag items =>
    match tag with
    | .sequence => (Outcome.inner (outcomes items)).map .array
    | .pairs =>
      match singleEntries items with
      | some pairs => pairsValue pairs
      | none => .error (1, .malformed)
    | .mapping => .error (1, .malformed)
    | _ => Outcome.wrong
  | .mapping tag entries =>
    match tag with
    | .mapping =>
      match splitEntries entries with
      | some es => mappingValue es.all
      | none => .error (1, .malformed)
    | .sequence => .error (1, .malformed)
    | .pairs => .error (1, .malformed)
    | _ => Node.scalarOutcome (.mapping tag entries)

/-- The values of some nodes. -/
def outcomes : List Node → List Outcome
  | [] => []
  | n :: r => n.outcome :: outcomes r

/-- The entries of items that are mappings with one entry each. -/
def singleEntries : List Node → Option (List Pair)
  | [] => some []
  | .mapping _ [(k, v)] :: r => (singleEntries r).map fun pairs => (k.outcome, v.outcome) :: pairs
  | _ => none

/-- The entries of a mapping; nothing when something is to be merged that has none. -/
def splitEntries : List (Node × Node) → Option Entries
  | [] => some ⟨[], []⟩
  | (k, v) :: r => do
    if k.tag = .merge then
      let merged ← v.mergedEntries
      let es ← splitEntries r
      return { es with merged := merged ++ es.merged }
    else
      let es ← splitEntries r
      let key : Outcome :=
        match k with
        | .scalar .value t => .ok (.text t)
        | k => k.outcome
      return { es with own := (key, v.outcome) :: es.own }

/-- The entries that a node gives to the mapping it is merged into. -/
def Node.mergedEntries : Node → Option (List Pair)
  | .scalar .. => none
  | .mapping _ entries => (splitEntries entries).map Entries.all
  | .sequence _ items => mergedOfItems items

/-- The entries that mappings give, the later ones first. -/
def mergedOfItems : List Node → Option (List Pair)
  | [] => some []
  | .mapping _ entries :: r => do return (← mergedOfItems r) ++ (← splitEntries entries).all
  | _ :: _ => none

end

/-- The value of a document. It is null when there is none. -/
def ofTokens (tokens : List Token) : Except YamlError Json := do
  match ← Node.ofTokens tokens with
  | none => return .null
  | some root => root.outcome.mapError fun (_, e) => e

/-- Reads a YAML text. -/
def parse (t : Text) : Except YamlError Json :=
  if t.all isAdmitted then ofTokens (Token.ofText (Text.unifyLineEnds t)) else .error .malformed

end Yaml

end MarkupGrammar
