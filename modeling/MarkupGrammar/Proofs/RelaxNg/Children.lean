import MarkupGrammar.Proofs.RelaxNg.Node
import MarkupGrammar.Proofs.RelaxNg.Reachable

/-!
# Children of an imported element

The children of an imported element are the elements that its node leads to in the document of the
grammar: through the patterns that hold content, and through references to the first definition of
their name, into which a path may go as often as it likes. An element on the way is a child, and
the path ends there.

`RelaxNg.LeadsTo` says this of nodes, so that it can be read without knowing how a node becomes a
pattern. A name without a definition leads nowhere, and neither does the empty name.

## Main results

* `leadsTo_iff_reaches` — nodes lead where their patterns lead
* `children_parseRng` — the children of every imported element
-/

namespace MarkupGrammar

namespace RelaxNg

open Pattern

/-- The names of the patterns that hold content of the element that they stand in. -/
def containers : List String :=
  ["optional", "zeroOrMore", "oneOrMore", "choice", "interleave", "group", "mixed"]

/-- Siblings lead to an element with a name: it is one of them, or the children of a container among
them lead to it, or those of the first definition that a reference among them names. -/
inductive LeadsTo (root : XmlNode) (name : Text) : List XmlNode → Prop
  | element {siblings : List XmlNode} {node : XmlNode} (hnode : node ∈ siblings)
      (hkind : isNamed "element" node = true) (hname : nameOf node = name) :
      LeadsTo root name siblings
  | inside {siblings : List XmlNode} {node : XmlNode} {word : String} (hnode : node ∈ siblings)
      (hword : word ∈ containers) (hkind : isNamed word node = true)
      (h : LeadsTo root name node.children) : LeadsTo root name siblings
  | definition {siblings : List XmlNode} {node d : XmlNode} (hnode : node ∈ siblings)
      (hkind : isNamed "ref" node = true) (hname : nameOf node ≠ [])
      (hd : named? "define" root (nameOf node) = some d) (h : LeadsTo root name d.children) :
      LeadsTo root name siblings

/-! ### Elements, references and containers among nodes -/

section Kinds

variable {kind : String × (XmlNode → Pattern)} {node : XmlNode} {siblings : List XmlNode}
  {name : Text} {body : List Pattern}

/-- A pattern holds patterns when it combines or repeats them. -/
def Holds (body : List Pattern) (p : Pattern) : Prop :=
  (∃ kind, p = .combine kind body) ∨ ∃ kind, p = .occurs kind body

theorem element_eq_kind_iff (hkind : kind ∈ kinds) :
    .element name = kind.2 node ↔ kind.1 = "element" ∧ nameOf node = name := by
  revert kind
  simp [kinds, eq_comm]

theorem ref_eq_kind_iff (hkind : kind ∈ kinds) :
    .ref name = kind.2 node ↔ kind.1 = "ref" ∧ nameOf node = name := by
  revert kind
  simp [kinds, eq_comm]

theorem resolved_ne_kind (hkind : kind ∈ kinds) : .resolved name body ≠ kind.2 node := by
  revert kind
  simp [kinds]

/-- Of the listed kinds, containers hold the patterns among their children, and no other kind holds
anything. -/
theorem holds_kind_iff (hkind : kind ∈ kinds) :
    Holds body (kind.2 node) ↔ kind.1 ∈ containers ∧ patterns node.children = body := by
  revert kind
  simp [kinds, Holds, containers]

/-- Every container is listed. -/
theorem exists_mem_kinds_of_mem_containers {word : String} (hword : word ∈ containers) :
    ∃ p, (word, p) ∈ kinds := by
  simp only [containers, List.mem_cons, List.not_mem_nil, or_false] at hword
  rcases hword with rfl | rfl | rfl | rfl | rfl | rfl | rfl <;> simp [kinds]

theorem element_mem_patterns_iff :
    .element name ∈ patterns siblings ↔
      ∃ node ∈ siblings, isNamed "element" node = true ∧ nameOf node = name := by
  constructor
  · intro h
    rcases exists_kind_of_mem_patterns h with ⟨other, heq⟩ | heq |
        ⟨node, hnode, kind, hkind, hnamed, heq⟩
    · exact nomatch heq
    · exact nomatch heq
    · obtain ⟨hword, hname⟩ := (element_eq_kind_iff hkind).mp heq
      exact ⟨node, hnode, hword ▸ hnamed, hname⟩
  · rintro ⟨node, hnode, hnamed, rfl⟩
    have hlisted : ("element", fun node => .element (nameOf node)) ∈ kinds := by simp [kinds]
    exact mem_patterns_of_mem_kinds hlisted hnode hnamed

theorem ref_mem_patterns_iff :
    .ref name ∈ patterns siblings ↔
      ∃ node ∈ siblings, isNamed "ref" node = true ∧ nameOf node = name := by
  constructor
  · intro h
    rcases exists_kind_of_mem_patterns h with ⟨other, heq⟩ | heq |
        ⟨node, hnode, kind, hkind, hnamed, heq⟩
    · exact nomatch heq
    · exact nomatch heq
    · obtain ⟨hword, hname⟩ := (ref_eq_kind_iff hkind).mp heq
      exact ⟨node, hnode, hword ▸ hnamed, hname⟩
  · rintro ⟨node, hnode, hnamed, rfl⟩
    have hlisted : ("ref", fun node => .ref (nameOf node)) ∈ kinds := by simp [kinds]
    exact mem_patterns_of_mem_kinds hlisted hnode hnamed

/-- No reference is resolved in a document. -/
theorem resolved_not_mem_patterns : .resolved name body ∉ patterns siblings := by
  intro h
  rcases exists_kind_of_mem_patterns h with ⟨other, heq⟩ | heq | ⟨node, -, kind, hkind, -, heq⟩
  · exact nomatch heq
  · exact nomatch heq
  · exact resolved_ne_kind hkind heq

/-- **What holds patterns among the patterns of siblings are their containers.** -/
theorem exists_holds_iff :
    (∃ p ∈ patterns siblings, Holds body p) ↔
      ∃ node ∈ siblings, ∃ word ∈ containers, isNamed word node = true ∧
        patterns node.children = body := by
  constructor
  · rintro ⟨p, hp, hbody⟩
    rcases exists_kind_of_mem_patterns hp with ⟨other, rfl⟩ | rfl |
        ⟨node, hnode, kind, hkind, hnamed, rfl⟩
    · simp [Holds] at hbody
    · simp [Holds] at hbody
    · obtain ⟨hword, hchildren⟩ := (holds_kind_iff hkind).mp hbody
      exact ⟨node, hnode, kind.1, hword, hnamed, hchildren⟩
  · rintro ⟨node, hnode, word, hword, hnamed, rfl⟩
    obtain ⟨p, hkind⟩ := exists_mem_kinds_of_mem_containers hword
    exact ⟨p node, mem_patterns_of_mem_kinds hkind hnode hnamed,
      (holds_kind_iff hkind).mpr ⟨hword, rfl⟩⟩

end Kinds

/-- What holds patterns is passed through. -/
theorem reaches_of_holds {defines : Table Text (List Pattern)} {target : Pattern → Prop}
    {ps body : List Pattern} {p : Pattern} (hp : p ∈ ps) (hbody : Holds body p)
    (h : Reaches defines (fun _ => true) target body) :
    Reaches defines (fun _ => true) target ps := by
  rcases hbody with ⟨kind, rfl⟩ | ⟨kind, rfl⟩
  · exact .inCombination hp rfl h
  · exact .inRepetition hp h

/-! ### Nodes lead where their patterns lead -/

theorem LeadsTo.reaches {root : XmlNode} {name : Text} {siblings : List XmlNode}
    (h : LeadsTo root name siblings) :
    Reaches (ofXml root).defines (fun _ => true) (· = .element name) (patterns siblings) := by
  induction h with
  | element hnode hkind hname =>
    exact .here (element_mem_patterns_iff.mpr ⟨_, hnode, hkind, hname⟩) rfl
  | inside hnode hword hkind _ ih =>
    obtain ⟨p, hp, hbody⟩ := exists_holds_iff.mpr ⟨_, hnode, _, hword, hkind, rfl⟩
    exact reaches_of_holds hp hbody ih
  | definition hnode hkind hname hd _ ih =>
    refine .inDefinition (ref_mem_patterns_iff.mpr ⟨_, hnode, hkind, rfl⟩) ?_ ih
    rw [find?_defines_ofXml, if_neg hname, hd]
    rfl

/-- **Nodes lead where their patterns lead.** -/
theorem leadsTo_iff_reaches {root : XmlNode} {name : Text} {siblings : List XmlNode} :
    LeadsTo root name siblings ↔
      Reaches (ofXml root).defines (fun _ => true) (· = .element name) (patterns siblings) := by
  refine ⟨LeadsTo.reaches, fun h => ?_⟩
  obtain ⟨ps, hps⟩ : ∃ ps, ps = patterns siblings := ⟨_, rfl⟩
  rw [← hps] at h
  induction h generalizing siblings with
  | here hp h =>
    subst hps h
    obtain ⟨node, hnode, hkind, hname⟩ := element_mem_patterns_iff.mp hp
    exact .element hnode hkind hname
  | inCombination hp hkind _ ih =>
    subst hps
    obtain ⟨node, hnode, word, hword, hnamed, hbody⟩ :=
      exists_holds_iff.mp ⟨_, hp, Or.inl ⟨_, rfl⟩⟩
    exact .inside hnode hword hnamed (ih hbody.symm)
  | inRepetition hp _ ih =>
    subst hps
    obtain ⟨node, hnode, word, hword, hnamed, hbody⟩ :=
      exists_holds_iff.mp ⟨_, hp, Or.inr ⟨_, rfl⟩⟩
    exact .inside hnode hword hnamed (ih hbody.symm)
  | inDefinition hp hfind _ ih =>
    subst hps
    obtain ⟨node, hnode, hnamed, rfl⟩ := ref_mem_patterns_iff.mp hp
    rw [find?_defines_ofXml] at hfind
    split at hfind
    · exact nomatch hfind
    · next hname =>
      obtain ⟨d, hd, rfl⟩ := Option.map_eq_some_iff.mp hfind
      exact .definition hnode hnamed hname hd (ih rfl)
  | inResolved hp _ _ =>
    subst hps
    exact (resolved_not_mem_patterns hp).elim

/-- The named elements of a grammar are the first element nodes of their names. -/
theorem exists_node_of_mem_namedElements {root : XmlNode} {e : ElementPattern}
    (he : e ∈ (ofXml root).namedElements) :
    ∃ node, named? "element" root e.name = some node ∧ e.body = patterns node.children := by
  have hfind := (RngGrammar.mem_namedElements_iff.mp he).2
  simp only [ofXml, List.find?_map, Option.map_eq_some_iff] at hfind
  obtain ⟨node, hnode, rfl⟩ := hfind
  exact ⟨node, hnode, rfl⟩

end RelaxNg

open RelaxNg in
/-- **The children of imported elements.** Every imported element is the first element node of its
name, and its children are the names that the children of that node lead to. -/
theorem children_parseRng {document : Text} {specs : List (ElementSpec Text)}
    (h : parseRng document = .ok specs) :
    ∃ root, Xml.parse? document = some root ∧
      ∀ spec ∈ specs, ∃ node, named? "element" root spec.name = some node ∧
        ∀ name : Text, name ∈ spec.children ↔ name ≠ [] ∧ LeadsTo root name node.children := by
  obtain ⟨root, hroot, -, -, rfl⟩ := parseRng_eq_ok_iff.mp h
  refine ⟨root, hroot, fun spec hspec => ?_⟩
  obtain ⟨e, he, rfl⟩ := RngGrammar.mem_elementSpecs_iff.mp hspec
  obtain ⟨node, hnode, hbody⟩ := exists_node_of_mem_namedElements he
  refine ⟨node, hnode, fun name => ?_⟩
  rw [RngGrammar.mem_children_elementSpec_iff (distinct_defines_ofXml root), hbody,
    leadsTo_iff_reaches]

/-- A grammar with a definition that refers to itself, a second definition of its name, and a
reference to a name without definition. -/
def circularGrammar : Text :=
  Text.ofString "<grammar xmlns=\"http://relaxng.org/ns/structure/1.0\">"
    ++ Text.ofString "<element name=\"p\"><ref name=\"d\"/><ref name=\"e\"/></element>"
    ++ Text.ofString "<define name=\"d\"><choice><ref name=\"d\"/><element name=\"a\"/></choice>"
    ++ Text.ofString "</define>"
    ++ Text.ofString "<define name=\"d\"><element name=\"b\"/></define></grammar>"

/-- In it `p` leads to `a`, round the circle, but not to what the second definition holds. -/
theorem children_circularGrammar :
    ∃ specs, parseRng circularGrammar = .ok specs ∧
      ∃ root, Xml.parse? circularGrammar = some root ∧ ∃ spec ∈ specs, ∃ node,
        RelaxNg.named? "element" root spec.name = some node ∧
          RelaxNg.LeadsTo root (Text.ofString "a") node.children ∧
          ¬ RelaxNg.LeadsTo root (Text.ofString "b") node.children := by
  have himport : importsElement
      (fun spec => spec.name = Text.ofString "p" && spec.children = [Text.ofString "a"])
      circularGrammar = true := by
    decide +kernel
  obtain ⟨specs, hspecs, spec, hspec, htest⟩ := exists_mem_of_importsElement himport
  obtain ⟨root, hroot, hchildren⟩ := children_parseRng hspecs
  obtain ⟨node, hnode, hnames⟩ := hchildren spec hspec
  simp only [Bool.and_eq_true, decide_eq_true_eq] at htest
  refine ⟨specs, hspecs, root, hroot, spec, hspec, node, hnode, ?_, fun hb => ?_⟩
  · exact ((hnames _).mp (htest.2 ▸ List.mem_singleton_self _)).2
  · have hmem := (hnames (Text.ofString "b")).mpr ⟨by decide, hb⟩
    rw [htest.2] at hmem
    exact absurd hmem (by decide)

end MarkupGrammar
