import MarkupGrammar.Grammar.Failure
import MarkupGrammar.Text.Blank

/-!
# Descriptions

An entry of a corpus is documented by a short description, or else by a description in markup, of
which the first line of prose is kept. Either way what is kept has single spaces and none at its
ends, and an empty description is no description.
-/

namespace MarkupGrammar

namespace Text

theorem length_lt_of_dropWhile_eq_cons {p : CodePoint → Bool} (c : CodePoint) {d : CodePoint}
    {r rest : Text} (h : r.dropWhile p = d :: rest) : rest.length < (c :: r).length := by
  have hle : (r.dropWhile p).length ≤ r.length := (List.dropWhile_suffix p).length_le
  rw [h, List.length_cons] at hle
  rw [List.length_cons]
  omega

/-- The text without its tags: each `<` with everything up to the next `>` goes. A `<` without a `>`
after it stays. -/
def stripTags : Text → Text
  | [] => []
  | c :: r =>
    if c = CodePoint.ofChar '<' then
      match h : r.dropWhile (· != CodePoint.ofChar '>') with
      | [] => c :: stripTags r
      | _ :: rest =>
        have : rest.length < (c :: r).length := length_lt_of_dropWhile_eq_cons c h
        stripTags rest
    else c :: stripTags r
termination_by t => t.length
decreasing_by
  · exact Nat.lt_succ_self r.length
  · exact this
  · exact Nat.lt_succ_self r.length

/-- The first line of prose in a description with markup. -/
def firstProse (t : Text) : Option Text :=
  match trim (stripTags t) with
  | [] => none
  | u => collapse (firstLine u)

end Text

namespace Json

/-- A field collapsed; nothing when it is void. A field that says something has to be a text. -/
def collapsedField (key : String) (entry : Json) : Except Fault (Option Text) := do
  let v ← entry.get key
  if v.isVoid then return none
  match v with
  | .text t => return t.collapse
  | _ => throw .wrongKind

/-- The description of an entry of a corpus. -/
def description (entry : Json) : Except Fault (Option Text) := do
  match ← entry.collapsedField "shortDesc" with
  | some short => return some short
  | none =>
    let v ← entry.get "desc"
    let first :=
      match v with
      | .array items => items.head?.getD .null
      | v => v
    match first with
    | .text t => return t.firstProse
    | _ => return none

end Json

end MarkupGrammar
