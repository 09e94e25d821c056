import MarkupGrammar.Json.Display

/-!
# Names of a grammar

Elements, classes, macros and attributes have names. A well-formed grammar names them by text; a
grammar that was read without being checked may hold any JSON value where a name belongs, and the
engine carries it along. So whatever is said about grammars is said over a type of names that are
`Label`s, and the two types of names in use are `Text` and `Json`.

Only equality of names decides anything. How a name is written matters in messages, and which texts
are names matters because the names in a document are texts.
-/

namespace MarkupGrammar

/-- A type of names: they can be compared, a text is one of them, and each can be written as a JSON
value. -/
class Label (Name : Type) extends BEq Name where
  ofText : Text → Name
  toJson : Name → Json

instance : Label Text where
  ofText t := t
  toJson t := .text t

instance : Label Json where
  ofText t := .text t
  toJson v := v

namespace Label

variable {Name : Type} [Label Name]

/-- The name in running text. -/
def plain (n : Name) : Text := (toJson n).plain

/-- The text of a name, if it is a text. -/
def text? (n : Name) : Option Text := (toJson n).text?

/-- Whether the name is missing in effect: a name that is written as an empty value names
nothing. -/
def isVoid (n : Name) : Bool := (toJson n).isVoid

/-- Whether the name can be looked up. -/
def isName (n : Name) : Bool := (toJson n).isName

end Label

/-- A finite map that keeps the order in which its keys were first written. -/
abbrev Table (Key Value : Type) := List (Key × Value)

namespace Table

variable {Key Value : Type} [BEq Key]

/-- The value under a key. -/
def find? (key : Key) : Table Key Value → Option Value
  | [] => none
  | (k, v) :: r => if k == key then some v else find? key r

/-- Writes a value under a key. A key that is already there keeps its place. -/
def insert (key : Key) (value : Value) : Table Key Value → Table Key Value
  | [] => [(key, value)]
  | (k, v) :: r => if k == key then (k, value) :: r else (k, v) :: insert key value r

/-- The value under a key, and the map without the key. -/
def take? (key : Key) : Table Key Value → Option (Value × Table Key Value)
  | [] => none
  | (k, v) :: r =>
    if k == key then some (v, r) else (take? key r).map fun (w, r') => (w, (k, v) :: r')

/-- The map that results when entries are written one after the other. -/
def ofEntries (entries : List (Key × Value)) : Table Key Value :=
  entries.foldl (fun t (k, v) => t.insert k v) []

theorem length_of_take? {key : Key} {t r : Table Key Value} {v : Value}
    (h : t.take? key = some (v, r)) : t.length = r.length + 1 := by
  induction t generalizing v r with
  | nil => simp [take?] at h
  | cons e t ih =>
    obtain ⟨k, w⟩ := e
    unfold take? at h
    split at h
    · simp only [Option.some.injEq, Prod.mk.injEq] at h
      simp [h.2]
    · obtain ⟨⟨w', r'⟩, hr, he⟩ := Option.map_eq_some_iff.1 h
      simp only [Prod.mk.injEq] at he
      simp [← he.2, ih hr]

theorem sizeOf_of_take? [SizeOf Key] [SizeOf Value] {key : Key} {t r : Table Key Value} {v : Value}
    (h : t.take? key = some (v, r)) : sizeOf r + sizeOf v < sizeOf t := by
  induction t generalizing v r with
  | nil => simp [take?] at h
  | cons e t ih =>
    obtain ⟨k, w⟩ := e
    unfold take? at h
    split at h
    · simp only [Option.some.injEq, Prod.mk.injEq] at h
      obtain ⟨rfl, rfl⟩ := h
      simp only [List.cons.sizeOf_spec, Prod.mk.sizeOf_spec]
      omega
    · obtain ⟨⟨w', r'⟩, hr, he⟩ := Option.map_eq_some_iff.1 h
      simp only [Prod.mk.injEq] at he
      obtain ⟨rfl, rfl⟩ := he
      have := ih hr
      simp only [List.cons.sizeOf_spec]
      omega

end Table

end MarkupGrammar
