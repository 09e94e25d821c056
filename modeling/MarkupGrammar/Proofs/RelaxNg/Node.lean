import MarkupGrammar.Proofs.Json.Object
import MarkupGrammar.Proofs.RelaxNg.Element

/-!
# Nodes of a grammar

A node is a pattern by its name. `RelaxNg.kinds` lists the names with what they stand for, and every
pattern but two is read off that list: a node that cannot be named stands for that, and a node of
any other name in the namespace of RELAX NG for a pattern that says nothing.

The named elements and the definitions of a grammar are looked up among all nodes of its document,
and the first of a name is the one that counts.

## Main results

* `exists_kind_of_pattern?`, `pattern?_of_isNamed` — which nodes are which patterns
* `find?_defines_ofXml` — a definition is the first node of its name
* `mem_namedElements_iff` — and so is a named element
-/

namespace MarkupGrammar

namespace RelaxNg

/-! ### Patterns by the names of their nodes -/

/-- The kinds of patterns, by the names of their nodes. -/
def kinds : List (String × (XmlNode → Pattern)) :=
  [("element", fun node => .element (nameOf node)),
   ("attribute", fun node => .attr (attributePattern node)),
   ("documentation", fun _ => .commentary),
   ("desc", fun _ => .commentary),
   ("text", fun _ => .text),
   ("data", fun _ => .data),
   ("value", fun _ => .data),
   ("list", fun _ => .data),
   ("empty", fun _ => .empty),
   ("choice", fun node => .combine .choice (patterns node.children)),
   ("interleave", fun node => .combine .interleave (patterns node.children)),
   ("group", fun node => .combine .group (patterns node.children)),
   ("mixed", fun node => .combine .mixed (patterns node.children)),
   ("optional", fun node => .occurs .optional (patterns node.children)),
   ("zeroOrMore", fun node => .occurs .zeroOrMore (patterns node.children)),
   ("oneOrMore", fun node => .occurs .oneOrMore (patterns node.children)),
   ("ref", fun node => .ref (nameOf node))]

theorem isNamed_iff {word : String} {node : XmlNode} :
    isNamed word node = true ↔
      ∃ attributes children, node = .element ⟨space, Text.ofString word⟩ attributes children := by
  rw [isNamed, decide_eq_true_eq]
  constructor
  · intro h
    cases node with
    | element name attributes children =>
      rw [patternName?] at h
      split at h
      · next hspace =>
        obtain ⟨s, stem⟩ := name
        obtain rfl : s = space := hspace
        obtain rfl := Option.some.inj h
        exact ⟨attributes, children, rfl⟩
      · exact nomatch h
    | _ => exact nomatch h
  · rintro ⟨attributes, children, rfl⟩
    rw [patternName?, if_pos rfl]

/-- A node of a listed name is the pattern listed for it. -/
theorem pattern?_of_isNamed {kind : String × (XmlNode → Pattern)} (hkind : kind ∈ kinds)
    {node : XmlNode} (h : isNamed kind.1 node = true) : pattern? node = some (kind.2 node) := by
  obtain ⟨attributes, children, rfl⟩ := isNamed_iff.mp h
  simp only [kinds, List.mem_cons, List.not_mem_nil, or_false] at hkind
  rcases hkind with rfl | rfl | rfl | rfl | rfl | rfl | rfl | rfl | rfl | rfl | rfl | rfl | rfl |
      rfl | rfl | rfl | rfl <;>
    · rw [pattern?]
      rfl

/-- What a node stands for is not in its children, or its name is listed. -/
theorem pattern?_element_eq_or (name : ExpandedName) (attributes : List XmlAttribute) :
    (∃ kind ∈ kinds, name = ⟨space, Text.ofString kind.1⟩) ∨
      ∃ p : Option Pattern,
        (∀ q ∈ p, (q = .misnamed name.stem ∧ name.stem.contains (CodePoint.ofChar ':') = true) ∨
          q = .other) ∧
        ∀ children, pattern? (.element name attributes children) = p := by
  obtain ⟨s, stem⟩ := name
  by_cases hlisted : ∃ kind ∈ kinds, (⟨s, stem⟩ : ExpandedName) = ⟨space, Text.ofString kind.1⟩
  · exact Or.inl hlisted
  · refine Or.inr ?_
    by_cases hcolon : stem.contains (CodePoint.ofChar ':') = true
    · refine ⟨some (.misnamed stem), by simpa using hcolon, fun children => ?_⟩
      rw [pattern?, misnamed?]
      simp only [hcolon, if_true]
    · by_cases hspace : s = space
      · subst hspace
        have hno : ∀ kind ∈ kinds, decide (stem = Text.ofString kind.1) = false := by
          intro kind hkind
          exact decide_eq_false fun heq => hlisted ⟨kind, hkind, heq ▸ rfl⟩
        simp only [kinds, List.forall_mem_cons] at hno
        refine ⟨some .other, by simp, fun children => ?_⟩
        rw [pattern?, misnamed?]
        simp only [hcolon, hno, bne_self_eq_false, Bool.or_false, Bool.false_eq_true, if_false]
      · refine ⟨none, by simp, fun children => ?_⟩
        rw [pattern?, misnamed?]
        simp only [hcolon, bne_iff_ne.mpr hspace, Bool.false_eq_true, if_false, if_true]

/-- A pattern that says something about content is listed for the name of its node. -/
theorem exists_kind_of_pattern? {node : XmlNode} {p : Pattern} (h : pattern? node = some p) :
    (∃ name, p = .misnamed name) ∨ p = .other ∨
      ∃ kind ∈ kinds, isNamed kind.1 node = true ∧ p = kind.2 node := by
  cases node with
  | element name attributes children =>
    rcases pattern?_element_eq_or name attributes with ⟨kind, hkind, rfl⟩ | ⟨q, hq, hchildren⟩
    · have hnamed : isNamed kind.1
          (.element ⟨space, Text.ofString kind.1⟩ attributes children) = true :=
        isNamed_iff.mpr ⟨attributes, children, rfl⟩
      rw [pattern?_of_isNamed hkind hnamed] at h
      exact Or.inr (Or.inr ⟨kind, hkind, hnamed, (Option.some.inj h).symm⟩)
    · rw [hchildren] at h
      rcases hq p h with ⟨rfl, -⟩ | rfl
      · exact Or.inl ⟨name.stem, rfl⟩
      · exact Or.inr (Or.inl rfl)
  | _ => simp [pattern?] at h

/-- Only a node that cannot be named stands for that. -/
theorem misnamed?_of_pattern? {node : XmlNode} {name : Text}
    (h : pattern? node = some (.misnamed name)) : misnamed? node ≠ none := by
  cases node with
  | element n attributes children =>
    rcases pattern?_element_eq_or n attributes with ⟨kind, hkind, rfl⟩ | ⟨q, hq, hchildren⟩
    · rw [pattern?_of_isNamed hkind (isNamed_iff.mpr ⟨attributes, children, rfl⟩)] at h
      revert h kind
      simp [kinds]
    · rw [hchildren] at h
      rcases hq _ h with ⟨-, hcolon⟩ | heq
      · rw [misnamed?, if_pos hcolon]
        exact Option.some_ne_none _
      · exact nomatch heq
  | _ => simp [pattern?] at h

theorem patterns_eq_filterMap (siblings : List XmlNode) :
    patterns siblings = siblings.filterMap pattern? := by
  induction siblings with
  | nil => rw [patterns]; rfl
  | cons node siblings ih =>
    rw [patterns, List.filterMap_cons, ih]
    cases pattern? node <;> rfl

theorem mem_patterns_iff {siblings : List XmlNode} {p : Pattern} :
    p ∈ patterns siblings ↔ ∃ node ∈ siblings, pattern? node = some p := by
  rw [patterns_eq_filterMap, List.mem_filterMap]

/-- A node of a listed name is among the patterns of its siblings. -/
theorem mem_patterns_of_mem_kinds {kind : String × (XmlNode → Pattern)} (hkind : kind ∈ kinds)
    {siblings : List XmlNode} {node : XmlNode} (hnode : node ∈ siblings)
    (h : isNamed kind.1 node = true) : kind.2 node ∈ patterns siblings :=
  mem_patterns_iff.mpr ⟨node, hnode, pattern?_of_isNamed hkind h⟩

/-- A pattern among siblings says nothing about content, or is listed for the name of its node. -/
theorem exists_kind_of_mem_patterns {siblings : List XmlNode} {p : Pattern}
    (h : p ∈ patterns siblings) :
    (∃ name, p = .misnamed name) ∨ p = .other ∨
      ∃ node ∈ siblings, ∃ kind ∈ kinds, isNamed kind.1 node = true ∧ p = kind.2 node := by
  obtain ⟨node, hnode, hp⟩ := mem_patterns_iff.mp h
  rcases exists_kind_of_pattern? hp with hmisnamed | hother | hkind
  · exact Or.inl hmisnamed
  · exact Or.inr (Or.inl hother)
  · exact Or.inr (Or.inr ⟨node, hnode, hkind⟩)

/-! ### The first node of a name -/

/-- The first node in a document that is a RELAX NG element of one kind and has a name. -/
def named? (word : String) (root : XmlNode) (name : Text) : Option XmlNode :=
  ((nodes root).filter (isNamed word)).find? fun node => nameOf node = name

theorem find?_append {t u : Table Text (List Pattern)} {name : Text} :
    Table.find? name (t ++ u) = (t.find? name).or (u.find? name) := by
  induction t with
  | nil => rfl
  | cons e t ih =>
    obtain ⟨k, v⟩ := e
    rw [List.cons_append, Table.find?, Table.find?, ih]
    split <;> rfl

theorem find?_addDefine (defines : Table Text (List Pattern)) (node : XmlNode) (name : Text) :
    (addDefine defines node).find? name
      = (defines.find? name).or
          (if nameOf node = name ∧ name ≠ [] then some (patterns node.children) else none) := by
  rw [addDefine]
  by_cases htaken : (nameOf node).isEmpty || (defines.find? (nameOf node)).isSome
  · rw [if_pos htaken]
    split
    · next hname =>
      obtain ⟨rfl, hne⟩ := hname
      simp only [List.isEmpty_eq_false_iff.mpr hne, Bool.false_or] at htaken
      obtain ⟨body, hbody⟩ := Option.isSome_iff_exists.mp htaken
      rw [hbody]
      rfl
    · rw [Option.or_none]
  · rw [if_neg htaken, find?_append]
    simp only [Bool.or_eq_true, not_or, List.isEmpty_iff] at htaken
    congr 1
    by_cases hname : nameOf node = name
    · subst hname
      simp [Table.find?, htaken.1]
    · simp [Table.find?, hname]

/-- **A definition is the first node of its name.** -/
theorem find?_defines_ofXml (root : XmlNode) (name : Text) :
    (ofXml root).defines.find? name
      = if name = [] then none
        else (named? "define" root name).map fun d => patterns d.children := by
  have hfold : ∀ (nodes : List XmlNode) (defines : Table Text (List Pattern)),
      (nodes.foldl addDefine defines).find? name
        = (defines.find? name).or (if name = [] then none
            else (nodes.find? fun node => nameOf node = name).map
              fun d => patterns d.children) := by
    intro nodes
    induction nodes with
    | nil => intro defines; simp
    | cons node nodes ih =>
      intro defines
      rw [List.foldl_cons, ih, find?_addDefine, Option.or_assoc]
      congr 1
      by_cases hname : name = []
      · simp [hname]
      · by_cases hnode : nameOf node = name <;> simp [hname, hnode]
  exact hfold _ []

end RelaxNg

namespace RngGrammar

variable {found : List ElementPattern} {e first : ElementPattern}

theorem mem_addNamed_iff :
    e ∈ addNamed found first ↔
      e ∈ found ∨ first = e ∧ e.name ≠ [] ∧ ∀ f ∈ found, f.name ≠ e.name := by
  by_cases hpassed : first.name = [] ∨ ∃ f ∈ found, f.name = first.name
  · rw [addNamed_of_passed hpassed]
    refine ⟨Or.inl, fun h => h.elim id ?_⟩
    rintro ⟨rfl, hnamed, hnew⟩
    rcases hpassed with hempty | ⟨f, hf, hsame⟩
    · exact absurd hempty hnamed
    · exact absurd hsame (hnew f hf)
  · push Not at hpassed
    rw [addNamed_of_new hpassed.1 hpassed.2, List.mem_append, List.mem_singleton]
    refine or_congr_right ⟨?_, fun h => h.1.symm⟩
    rintro rfl
    exact ⟨rfl, hpassed⟩

/-- Passing an element over leaves no name free that it has. -/
theorem forall_mem_addNamed_iff {name : Text} (hname : name ≠ []) :
    (∀ f ∈ addNamed found first, f.name ≠ name) ↔
      (∀ f ∈ found, f.name ≠ name) ∧ first.name ≠ name := by
  constructor
  · intro h
    have hfree : ∀ f ∈ found, f.name ≠ name := fun f hf => h f (mem_addNamed_iff.mpr (Or.inl hf))
    refine ⟨hfree, ?_⟩
    rintro rfl
    exact h first (mem_addNamed_iff.mpr (Or.inr ⟨rfl, hname, hfree⟩)) rfl
  · rintro ⟨hfree, hfirst⟩ f hf
    rcases mem_addNamed_iff.mp hf with hf | ⟨rfl, -⟩
    · exact hfree f hf
    · exact hfirst

theorem mem_foldl_addNamed_iff (hnamed : e.name ≠ []) (elements : List ElementPattern) :
    e ∈ elements.foldl addNamed found ↔
      e ∈ found ∨ (∀ f ∈ found, f.name ≠ e.name) ∧
        elements.find? (fun f => f.name = e.name) = some e := by
  induction elements generalizing found with
  | nil => simp
  | cons first elements ih =>
    rw [List.foldl_cons, ih, mem_addNamed_iff, forall_mem_addNamed_iff hnamed, List.find?_cons]
    by_cases hsame : first.name = e.name
    · simp [hsame, hnamed, and_comm]
    · have hother : first ≠ e := fun heq => hsame (heq ▸ rfl)
      simp [hsame, hother]

/-- **A named element is the first of its name.** -/
theorem mem_namedElements_iff {g : RngGrammar} :
    e ∈ g.namedElements ↔
      e.name ≠ [] ∧ g.elements.find? (fun f => f.name = e.name) = some e := by
  refine ⟨fun h => ?_, fun ⟨hnamed, hfind⟩ => ?_⟩
  · have hnamed := (isNamed_namedElements g).named e h
    rw [namedElements_eq, mem_foldl_addNamed_iff hnamed] at h
    exact ⟨hnamed, h.elim (fun h => (List.not_mem_nil h).elim) And.right⟩
  · rw [namedElements_eq, mem_foldl_addNamed_iff hnamed]
    exact Or.inr ⟨fun f hf => (List.not_mem_nil hf).elim, hfind⟩

end RngGrammar

end MarkupGrammar
