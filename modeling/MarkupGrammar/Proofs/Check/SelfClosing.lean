import MarkupGrammar.Proofs.Check.Repair
import MarkupGrammar.Proofs.Grammar.Table

/-!
# Elements without content

An element without content has two spellings: one tag that closes itself, or a pair of tags with
nothing between them. The check takes different ways through them. The first asks at once which
children are required; the second opens an element, closes it again, and looks at a list of children
that is empty. Both come to the same but for the wording: where the one warns that the tag closes
itself, the other reports each required child as missing.

An empty model is the exception on the first way, where its items are never looked at. So the two
agree as long as an empty model has none.

## Main results

* `childrenDefects_nil` — an element without children misses those that it requires, no more
* `selfClosing_or_missing` — the warning on one side and the missing children on the other
* `checkTags_pair` — one element of any tags written in the other way
-/

namespace MarkupGrammar

variable {Name : Type} [Label Name]

namespace Schema

/-- Empty models are empty: none of the schema's elements has one with items. -/
def HasBareEmptyModels (s : Schema Name) : Prop :=
  ∀ name m, s.modelOf? name = some m → m.arrangement = .empty → m.items = []

/-- Each child that an element requires, reported as missing at the element's tag. -/
def missingDefects (s : Schema Name) (name : Text) (position : Position) :
    List (Diagnostic Name) :=
  match s.modelOf? name with
  | none => []
  | some m => m.requiredChildren.map fun r => ⟨.missingChild name r, position⟩

variable {s : Schema Name}

/-- **An element without children.** No defect of conformance arises, and all that is required is
missing. -/
theorem childrenDefects_nil (s : Schema Name) (name : Text) (position : Position) :
    s.childrenDefects name position [] = s.missingDefects name position := by
  rw [childrenDefects, missingDefects]
  cases s.modelOf? name with
  | none => rfl
  | some m =>
    have hall : (m.requiredChildren.filter fun r =>
        ([] : List (Child Name)).all fun c => !(c.name == r)) = m.requiredChildren :=
      List.filter_eq_self.mpr fun _ _ => rfl
    simp only [m.check_nil, List.nil_append, hall]

omit [Label Name] in
theorem requiredChildren_eq_nil [BEq Name] {m : ContentModel Name} (h : m.items = []) :
    m.requiredChildren = [] := by
  obtain ⟨arrangement, items, bounds⟩ := m
  obtain rfl : items = [] := h
  simp [ContentModel.requiredChildren, ContentModel.demands, Item.demandsOfAll]

/-- **Warning or missing children.** Either the tag that closes itself is worth no warning and no
child is missing in the pair, or the warning names the children that are. -/
theorem selfClosing_or_missing (h : s.HasBareEmptyModels) (name : Text) (position : Position) :
    (s.selfClosingDefects name position = [] ∧ s.missingDefects name position = []) ∨
    ∃ m, s.modelOf? name = some m ∧
      s.selfClosingDefects name position = [⟨.selfClosing name m.requiredChildren, position⟩] ∧
      s.missingDefects name position
        = m.requiredChildren.map fun r => ⟨.missingChild name r, position⟩ := by
  rw [selfClosingDefects, missingDefects]
  cases hmodel : s.modelOf? name with
  | none => exact Or.inl ⟨rfl, rfl⟩
  | some m =>
    by_cases hrequired : m.requiredChildren = []
    · exact Or.inl ⟨if_pos (Or.inr hrequired), congrArg (List.map _) hrequired⟩
    · have harrangement : m.arrangement ≠ .empty := fun harrangement =>
        hrequired (requiredChildren_eq_nil (h name m hmodel harrangement))
      exact Or.inr ⟨m, rfl, if_neg (not_or.mpr ⟨harrangement, hrequired⟩), rfl⟩

/-- It is enough to look at the elements one by one. -/
theorem hasBareEmptyModels_of_elements
    (h : ∀ entry ∈ s.elements, ∀ m, entry.2.model? = some m → m.arrangement = .empty →
      m.items = []) : s.HasBareEmptyModels := by
  intro name m hmodel
  obtain ⟨spec, hspec, hm⟩ := Option.bind_eq_some_iff.mp hmodel
  obtain ⟨key, hentry⟩ := Table.exists_mem_of_find? hspec
  exact h (key, spec) hentry m hm

/-! ### The two ways of the run -/

/-- The run over an element that closes itself. -/
theorem walk_selfClosing (stack : OpenTags Name) (name : Text) (position : Position)
    (attributes : List Attribute) (rest : List Tag) :
    s.walk stack (⟨.selfClosing, name, position, attributes⟩ :: rest)
      = s.checkOpening stack.head? ⟨.selfClosing, name, position, attributes⟩
        ++ (s.selfClosingDefects name position
          ++ s.walk (stack.addChild ⟨.selfClosing, name, position, attributes⟩) rest) := by
  rw [walk, ← checkSelfClosing_eq s ⟨.selfClosing, name, position, attributes⟩,
    ← List.append_assoc]
  rfl

/-- The run over a pair: the element is closed as soon as it is open. What is checked at the opening
tag, and what its parent records, is what it would be for the other spelling. -/
theorem walk_pair (stack : OpenTags Name) (name : Text) (position : Position)
    (attributes : List Attribute) (closing : Position) (closingAttributes : List Attribute)
    (rest : List Tag) :
    s.walk stack (⟨.opening, name, position, attributes⟩
        :: ⟨.closing, name, closing, closingAttributes⟩ :: rest)
      = s.checkOpening stack.head? ⟨.selfClosing, name, position, attributes⟩
        ++ (s.missingDefects name position
          ++ s.walk (stack.addChild ⟨.selfClosing, name, position, attributes⟩) rest) := by
  have hopen : s.step stack ⟨.opening, name, position, attributes⟩
      = (⟨name, position, s.element? (Label.ofText name), []⟩
          :: stack.addChild ⟨.selfClosing, name, position, attributes⟩,
        s.checkOpening stack.head? ⟨.selfClosing, name, position, attributes⟩) := rfl
  have hclose := step_closing s (stack.addChild ⟨.selfClosing, name, position, attributes⟩) name
    position [] closing closingAttributes
  rw [childrenDefects_nil, List.reverse_nil] at hclose
  rw [walk, hopen, walk, hclose]

/-- **An element without content means the same in both spellings.** In any tags, however badly
nested, write an element that closes itself as a pair of tags. What is reported before it and after
it stays. In between, the warning that the tag closes itself gives way to one missing child for each
that is required, in order and at the same place; without a warning there is nothing on either side,
since no list of children that is empty offends against a model. -/
theorem checkTags_pair (s : Schema Name) (h : s.HasBareEmptyModels) (before after : List Tag)
    (name : Text) (position : Position) (attributes : List Attribute) (closing : Position)
    (closingAttributes : List Attribute) :
    (∃ earlier later warning missing,
      s.checkTags (before ++ ⟨.selfClosing, name, position, attributes⟩ :: after)
        = earlier ++ (warning ++ later) ∧
      s.checkTags (before ++ ⟨.opening, name, position, attributes⟩
          :: ⟨.closing, name, closing, closingAttributes⟩ :: after)
        = earlier ++ (missing ++ later) ∧
      ((warning = [] ∧ missing = []) ∨
        ∃ m, s.modelOf? name = some m ∧
          warning = [⟨.selfClosing name m.requiredChildren, position⟩] ∧
          missing = m.requiredChildren.map fun r => ⟨.missingChild name r, position⟩)) ∧
    ∀ m : ContentModel Name, m.check name ([] : List (Child Name)) = [] := by
  refine ⟨?_, fun m => m.check_nil name⟩
  refine ⟨(s.emissions [] before).flatten ++ s.checkOpening (s.openedBy [] before).head?
      ⟨.selfClosing, name, position, attributes⟩,
    s.walk ((s.openedBy [] before).addChild ⟨.selfClosing, name, position, attributes⟩) after,
    s.selfClosingDefects name position, s.missingDefects name position, ?_, ?_,
    selfClosing_or_missing h name position⟩
  · rw [checkTags, walk_append, walk_selfClosing, List.append_assoc]
  · rw [checkTags, walk_append, walk_pair, List.append_assoc]

/-- A list that has to have a head and an item, and has neither. -/
theorem checkTags_pair_list :
    lists.HasBareEmptyModels ∧
    (lists.checkStructure (Text.ofString "<list/>")).map (·.finding.code)
      = ["self_closing_with_required_children"] ∧
    (lists.checkStructure (Text.ofString "<list></list>")).map (·.finding.code)
      = ["missing_required_child", "missing_required_child"] ∧
    ∃ earlier later warning missing,
      lists.checkStructure (Text.ofString "<list/>") = earlier ++ (warning ++ later) ∧
      lists.checkStructure (Text.ofString "<list></list>") = earlier ++ (missing ++ later) ∧
      ((warning = [] ∧ missing = []) ∨
        ∃ m, lists.modelOf? (Text.ofString "list") = some m ∧
          warning = [⟨.selfClosing (Text.ofString "list") m.requiredChildren, ⟨1, 1⟩⟩] ∧
          missing = m.requiredChildren.map fun r =>
            ⟨.missingChild (Text.ofString "list") r, ⟨1, 1⟩⟩) := by
  have hmodels : lists.HasBareEmptyModels := by
    refine hasBareEmptyModels_of_elements fun entry hentry m hm hempty => ?_
    obtain rfl := List.mem_singleton.mp hentry
    obtain rfl := Option.some.inj hm
    exact nomatch hempty
  have hself : Tag.ofText (Text.ofString "<list/>")
      = [⟨.selfClosing, Text.ofString "list", ⟨1, 1⟩, []⟩] := by
    decide +kernel
  have hpair : Tag.ofText (Text.ofString "<list></list>")
      = [⟨.opening, Text.ofString "list", ⟨1, 1⟩, []⟩,
          ⟨.closing, Text.ofString "list", ⟨1, 7⟩, []⟩] := by
    decide +kernel
  have hattributes : lists.attributesOf (Label.ofText (Text.ofString "list")) = [] := by cbv
  rw [checkStructure, checkStructure, hself, hpair]
  refine ⟨hmodels, ?_, ?_, (checkTags_pair lists hmodels [] [] (Text.ofString "list") ⟨1, 1⟩ []
    ⟨1, 7⟩ []).1⟩
  · rw [checkTags, walk, walk, step]
    simp only [checkOpening, checkAttributes, hattributes]
    decide +kernel
  · rw [checkTags, walk, walk, step]
    simp only [checkOpening, checkAttributes, hattributes]
    decide +kernel

end Schema

end MarkupGrammar
