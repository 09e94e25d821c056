import MarkupGrammar.Check.Diagnostic
import MarkupGrammar.Module.Dump

/-!
# Statistics of a schema

How many elements, classes and attributes a schema has, which elements admit the most children and
which classes have the most attributes. Equal counts are listed in order of the names.
-/

namespace MarkupGrammar

/-- What is counted of a schema. -/
structure SchemaStatistics where
  elements : Nat
  attributeClasses : Nat
  attributes : Nat
  withModel : Nat
  topElements : List (Json × Nat)
  topClasses : List (Json × Nat)

/-- Statistics as a JSON value. -/
def SchemaStatistics.toJson (s : SchemaStatistics) : Json :=
  let ranking (entries : List (Json × Nat)) : Json :=
    .array (entries.map fun (name, n) => .array [name, .nat n])
  Json.ofFields
    [("elements", .nat s.elements), ("attribute_classes", .nat s.attributeClasses),
     ("attributes", .nat s.attributes), ("with_content_model", .nat s.withModel),
     ("top_elements_by_children", ranking s.topElements),
     ("top_attribute_classes", ranking s.topClasses)]

/-- Whether all names that share a count have an order among each other. -/
def areRankable (counts : List (Json × Nat)) : Bool :=
  counts.all fun (_, n) =>
    let tied := (counts.filter fun (_, m) => m == n).map (·.1)
    tied.length ≤ 1 || tied.all (·.text?.isSome) || tied.all (·.quotient?.isSome)

/-- The entries by falling count and then by name, up to a limit if there is one. -/
def ranked (limit : Option Int) (counts : List (Json × Nat)) : Except Fault (List (Json × Nat)) :=
  if areRankable counts then
    let sorted := counts.mergeSort fun (a, m) (b, n) =>
      n < m || (m == n && Json.compare? a b != some .gt)
    .ok (match limit with
      | none => sorted
      | some limit => takeUpTo limit sorted)
  else .error .wrongKind

/-- The statistics of a schema; the rankings go up to a limit if there is one. -/
def Schema.statistics (s : Schema Json) (limit : Option Int) : Except Fault SchemaStatistics := do
  let topElements ← ranked limit (s.elements.map fun (key, e) => (key, e.children.length))
  let topClasses ← ranked limit (s.attributeClasses.map fun (key, as) => (key, as.length))
  return {
    elements := s.elements.length
    attributeClasses := s.attributeClasses.length
    attributes := s.elements.foldl (fun n (key, _) => n + (s.attributesOf key).length) 0
    withModel := s.elements.countP fun (_, e) => e.model?.isSome
    topElements, topClasses }

end MarkupGrammar
