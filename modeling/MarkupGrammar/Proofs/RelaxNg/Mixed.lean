import Mathlib.Data.List.Forall2
import MarkupGrammar.Proofs.RelaxNg.Node
import MarkupGrammar.Proofs.RelaxNg.WrittenOut

/-!
# Grammars with mixed content written out

In a document a mixed pattern is written out by renaming its node to an interleaving and putting a
text pattern before its children. Nothing else about the document changes: what is said of any other
node, its name, its description, its values, is said of the node in its place.

## Main results

* `WrittenOut.patterns` — nodes with mixed patterns written out are patterns written out
* `isWrittenOut_ofXml` — and so is their grammar
* `parseRng_writtenOut` — which elements are imported, and what may change about them
-/

namespace MarkupGrammar

namespace RelaxNg

/-- Some mixed patterns among nodes, each with patterns that satisfy `Q`, are written out. -/
inductive WrittenOut (Q : List Pattern → Prop) : List XmlNode → List XmlNode → Prop
  | nil : WrittenOut Q [] []
  | same {node : XmlNode} {siblings others : List XmlNode} (h : WrittenOut Q siblings others) :
      WrittenOut Q (node :: siblings) (node :: others)
  | inside {name : ExpandedName} {attributes : List XmlAttribute}
      {children written siblings others : List XmlNode} (hchildren : WrittenOut Q children written)
      (h : WrittenOut Q siblings others) :
      WrittenOut Q (.element name attributes children :: siblings)
        (.element name attributes written :: others)
  | mixed {attributes : List XmlAttribute} {children written siblings others : List XmlNode}
      (hQ : Q (patterns children)) (hchildren : WrittenOut Q children written)
      (h : WrittenOut Q siblings others) :
      WrittenOut Q (.element ⟨space, Text.ofString "mixed"⟩ attributes children :: siblings)
        (.element ⟨space, Text.ofString "interleave"⟩ attributes
          (.element ⟨space, Text.ofString "text"⟩ [] [] :: written) :: others)

theorem isNamed_element_eq (word other : String) (attributes : List XmlAttribute)
    (children : List XmlNode) :
    isNamed word (.element ⟨space, Text.ofString other⟩ attributes children)
      = decide (other = word) := by
  simp [isNamed, patternName?, Text.ofString_injective.eq_iff]

section Nodes

variable (attributes : List XmlAttribute) (children written : List XmlNode)

/-- The children of a node have no say in whether it is a description, or whether it can be
named. -/
theorem isDescription_element_eq (name : ExpandedName) :
    isDescription (.element name attributes children)
      = isDescription (.element name attributes written) :=
  rfl

theorem misnamed?_element_eq (name : ExpandedName) :
    misnamed? (.element name attributes children) = misnamed? (.element name attributes written) :=
  rfl

theorem isDescription_of_isMixture {word : String} (h : word ∈ ["mixed", "interleave"]) :
    isDescription (.element ⟨space, Text.ofString word⟩ attributes children) = false := by
  rw [isDescription]
  revert h word
  decide

theorem misnamed?_of_isMixture {word : String} (h : word ∈ ["mixed", "interleave"]) :
    misnamed? (.element ⟨space, Text.ofString word⟩ attributes children) = none := by
  rw [misnamed?]
  revert h word
  decide

end Nodes

namespace WrittenOut

variable {Q : List Pattern → Prop} {siblings others : List XmlNode}

theorem refl (Q : List Pattern → Prop) (siblings : List XmlNode) :
    WrittenOut Q siblings siblings := by
  induction siblings with
  | nil => exact .nil
  | cons node siblings ih => exact .same ih

/-! ### Descriptions -/

theorem innerTextOfAll_eq (h : WrittenOut Q siblings others) :
    innerTextOfAll siblings = innerTextOfAll others := by
  induction h with
  | nil => rfl
  | same _ ih => rw [innerTextOfAll, innerTextOfAll, ih]
  | inside _ _ hchildren ih =>
    rw [innerTextOfAll, innerTextOfAll, innerText, innerText, hchildren, ih]
  | mixed _ _ _ hchildren ih =>
    rw [innerTextOfAll, innerTextOfAll, innerText, innerText, innerTextOfAll, innerText, hchildren,
      ih]
    rfl

theorem leadingText_eq (h : WrittenOut Q siblings others) :
    leadingText siblings = leadingText others := by
  induction h with
  | @same node _ _ _ ih =>
    cases node with
    | text t => rw [leadingText, leadingText, ih]
    | _ => rfl
  | _ => rfl

theorem innerText_find?_eq (h : WrittenOut Q siblings others) :
    (siblings.find? isDescription).map innerText = (others.find? isDescription).map innerText := by
  induction h with
  | nil => rfl
  | same _ ih =>
    rw [List.find?_cons, List.find?_cons]
    split
    · rfl
    · exact ih
  | @inside name attributes children written _ _ hchildren _ _ ih =>
    rw [List.find?_cons, List.find?_cons, isDescription_element_eq attributes children written]
    split
    · simp [innerText, hchildren.innerTextOfAll_eq]
    · exact ih
  | mixed _ _ _ _ ih =>
    rw [List.find?_cons, List.find?_cons, isDescription_of_isMixture _ _ (by simp),
      isDescription_of_isMixture _ _ (by simp)]
    exact ih

theorem documentation_eq {children written : List XmlNode} (h : WrittenOut Q children written)
    (name : ExpandedName) (attributes : List XmlAttribute) :
    documentation (.element name attributes children)
      = documentation (.element name attributes written) := by
  have hbind : ∀ d : Option XmlNode, (d.bind fun d => unlessEmpty (Text.trim (innerText d)))
      = (d.map innerText).bind fun t => unlessEmpty (Text.trim t) := by
    intro d
    cases d <;> rfl
  rw [documentation, documentation, hbind, hbind, XmlNode.children, XmlNode.children,
    h.innerText_find?_eq]

theorem misnamed_takeWhile_eq (h : WrittenOut Q siblings others) :
    (siblings.takeWhile fun child => !isDescription child).findSome? misnamed?
      = (others.takeWhile fun child => !isDescription child).findSome? misnamed? := by
  induction h with
  | nil => rfl
  | same _ ih =>
    rw [List.takeWhile_cons, List.takeWhile_cons]
    split
    · rw [List.findSome?_cons, List.findSome?_cons, ih]
    · rfl
  | @inside other attributes children written _ _ _ _ _ ih =>
    rw [List.takeWhile_cons, List.takeWhile_cons,
      isDescription_element_eq attributes children written]
    split
    · rw [List.findSome?_cons, List.findSome?_cons,
        misnamed?_element_eq attributes children written, ih]
    · rfl
  | mixed _ _ _ _ ih =>
    rw [List.takeWhile_cons, List.takeWhile_cons, isDescription_of_isMixture _ _ (by simp),
      isDescription_of_isMixture _ _ (by simp)]
    simp only [Bool.not_false, if_true]
    rw [List.findSome?_cons, List.findSome?_cons, misnamed?_of_isMixture _ _ (by simp),
      misnamed?_of_isMixture _ _ (by simp)]
    exact ih

theorem obstacle_eq {children written : List XmlNode} (h : WrittenOut Q children written)
    (name : ExpandedName) (attributes : List XmlAttribute) :
    obstacle (.element name attributes children) = obstacle (.element name attributes written) := by
  rw [obstacle, obstacle, XmlNode.children, XmlNode.children, h.misnamed_takeWhile_eq]

/-! ### Nodes anywhere inside -/

/-- A node, and the same node with mixed patterns written out inside it. -/
inductive Inside (Q : List Pattern → Prop) : XmlNode → XmlNode → Prop
  | element {name : ExpandedName} {attributes : List XmlAttribute} {children written : List XmlNode}
      (h : WrittenOut Q children written) :
      Inside Q (.element name attributes children) (.element name attributes written)

/-- **Only mixtures and texts are touched.** The nodes of any other name, anywhere inside, are the
same with mixed patterns written out inside them. -/
theorem filter_nodesOfAll (h : WrittenOut Q siblings others) {word : String}
    (hword : word ∉ ["mixed", "interleave", "text"]) :
    List.Forall₂ (Inside Q) ((nodesOfAll siblings).filter (isNamed word))
      ((nodesOfAll others).filter (isNamed word)) := by
  simp only [List.mem_cons, List.not_mem_nil, or_false, not_or] at hword
  induction h with
  | nil => exact .nil
  | same _ ih =>
    rw [nodesOfAll, nodesOfAll, List.filter_append, List.filter_append]
    refine List.rel_append (List.forall₂_same.mpr fun node hnode => ?_) ih
    obtain ⟨attributes, children, rfl⟩ := isNamed_iff.mp (List.mem_filter.mp hnode).2
    exact .element (refl Q children)
  | @inside name attributes children written _ _ hchildren _ ihchildren ih =>
    have hnamed : isNamed word (.element name attributes children)
        = isNamed word (.element name attributes written) := rfl
    rw [nodesOfAll, nodesOfAll, List.filter_append, List.filter_append]
    refine List.rel_append ?_ ih
    rw [nodes, nodes, List.filter_cons, List.filter_cons, hnamed]
    split
    · exact .cons (.element hchildren) ihchildren
    · exact ihchildren
  | mixed _ _ _ ihchildren ih =>
    rw [nodesOfAll, nodesOfAll, List.filter_append, List.filter_append]
    refine List.rel_append ?_ ih
    rw [nodes, nodes, nodesOfAll, nodes, nodesOfAll]
    simpa [isNamed_element_eq, Ne.symm hword.1, Ne.symm hword.2.1, Ne.symm hword.2.2]
      using ihchildren

section Lists

variable {α : Type} {f : XmlNode → Option α} {ns ms : List XmlNode}

/-- What is read off nodes of a name does not change, if it changes for none of them. -/
theorem filterMap_eq_of_forall₂ (hf : ∀ n m, Inside Q n m → f n = f m)
    (h : List.Forall₂ (Inside Q) ns ms) : ns.filterMap f = ms.filterMap f := by
  induction h with
  | nil => rfl
  | cons hnode _ ih => rw [List.filterMap_cons, List.filterMap_cons, hf _ _ hnode, ih]

theorem bind_head?_eq_of_forall₂ (hf : ∀ n m, Inside Q n m → f n = f m)
    (h : List.Forall₂ (Inside Q) ns ms) : ns.head?.bind f = ms.head?.bind f := by
  cases h with
  | nil => rfl
  | cons hnode _ => exact hf _ _ hnode

end Lists

section Element

variable {children written : List XmlNode} (h : WrittenOut Q children written)
  (name : ExpandedName) (attributes : List XmlAttribute)

include h

theorem filter_nodes {word : String} (hword : word ∉ ["mixed", "interleave", "text"]) :
    List.Forall₂ (Inside Q) ((nodes (.element name attributes children)).filter (isNamed word))
      ((nodes (.element name attributes written)).filter (isNamed word)) := by
  have hinside : WrittenOut Q [.element name attributes children]
      [.element name attributes written] := .inside h .nil
  simpa only [nodesOfAll, List.append_nil] using hinside.filter_nodesOfAll hword

theorem values_eq :
    (attributePattern (.element name attributes children)).values
      = (attributePattern (.element name attributes written)).values := by
  refine filterMap_eq_of_forall₂ ?_ (h.filter_nodes name attributes (by decide))
  rintro _ _ ⟨hinside⟩
  simp only [XmlNode.children, hinside.leadingText_eq]

theorem datatype_eq :
    (attributePattern (.element name attributes children)).datatype
      = (attributePattern (.element name attributes written)).datatype := by
  simp only [attributePattern]
  rw [← List.head?_filter, ← List.head?_filter]
  refine bind_head?_eq_of_forall₂ ?_ (h.filter_nodes name attributes (by decide))
  rintro _ _ ⟨-⟩
  rfl

/-- What an attribute pattern says does not change. -/
theorem attributePattern_eq :
    attributePattern (.element name attributes children)
      = attributePattern (.element name attributes written) := by
  rw [AttributePattern.mk.injEq]
  exact ⟨rfl, h.values_eq name attributes, h.datatype_eq name attributes,
    h.documentation_eq name attributes, h.obstacle_eq name attributes⟩

end Element

/-! ### Patterns -/

/-- Whatever a node of a listed kind stands for, it may have mixed patterns written out in it. -/
theorem kind {kind : String × (XmlNode → Pattern)} (hkind : kind ∈ kinds) {name : ExpandedName}
    {attributes : List XmlAttribute} {children written : List XmlNode}
    (hchildren : WrittenOut Q children written)
    (hpatterns : Pattern.WrittenOut Q (patterns children) (patterns written)) {ps qs : List Pattern}
    (h : Pattern.WrittenOut Q ps qs) :
    Pattern.WrittenOut Q (kind.2 (.element name attributes children) :: ps)
      (kind.2 (.element name attributes written) :: qs) := by
  simp only [kinds, List.mem_cons, List.not_mem_nil, or_false] at hkind
  rcases hkind with rfl | rfl | rfl | rfl | rfl | rfl | rfl | rfl | rfl | rfl | rfl | rfl | rfl |
      rfl | rfl | rfl | rfl
  case inr.inl =>
    dsimp only
    rw [hchildren.attributePattern_eq name attributes]
    exact .simple rfl h
  all_goals
    first
    | exact .simple rfl h
    | exact .combine hpatterns h
    | exact .occurs hpatterns h

/-- **Nodes with mixed patterns written out are patterns written out.** -/
theorem patterns (h : WrittenOut Q siblings others) :
    Pattern.WrittenOut Q (RelaxNg.patterns siblings) (RelaxNg.patterns others) := by
  induction h with
  | nil =>
    rw [RelaxNg.patterns]
    exact .nil
  | @same node _ _ _ ih =>
    rw [RelaxNg.patterns, RelaxNg.patterns]
    cases pattern? node with
    | none => exact ih
    | some p => exact .same p ih
  | @inside name attributes children written _ _ hchildren _ hpatterns ih =>
    rw [RelaxNg.patterns, RelaxNg.patterns]
    rcases pattern?_element_eq_or name attributes with ⟨kind, hkind, rfl⟩ | ⟨p, -, hp⟩
    · have hnamed : ∀ inner,
          isNamed kind.1 (.element ⟨space, Text.ofString kind.1⟩ attributes inner) = true :=
        fun inner => isNamed_iff.mpr ⟨attributes, inner, rfl⟩
      rw [pattern?_of_isNamed hkind (hnamed children), pattern?_of_isNamed hkind (hnamed written)]
      exact WrittenOut.kind hkind hchildren hpatterns ih
    · rw [hp, hp]
      cases p with
      | none => exact ih
      | some p => exact .same p ih
  | @mixed attributes children written _ _ hQ _ _ hpatterns ih =>
    have hkinds : ("mixed", fun node => .combine .mixed (RelaxNg.patterns node.children)) ∈ kinds ∧
        ("interleave", fun node => .combine .interleave (RelaxNg.patterns node.children)) ∈ kinds ∧
        ("text", fun _ => .text) ∈ kinds := by
      simp [kinds]
    obtain ⟨hmixed, hinterleave, htext⟩ := hkinds
    rw [RelaxNg.patterns, RelaxNg.patterns,
      pattern?_of_isNamed hmixed (isNamed_iff.mpr ⟨_, _, rfl⟩),
      pattern?_of_isNamed hinterleave (isNamed_iff.mpr ⟨_, _, rfl⟩)]
    simp only [XmlNode.children]
    rw [RelaxNg.patterns, pattern?_of_isNamed htext (isNamed_iff.mpr ⟨_, _, rfl⟩)]
    exact .mixed hQ hpatterns ih

end WrittenOut

/-! ### Comparing documents -/

mutual

/-- Whether a node is another with mixed patterns written out, those whose patterns pass a test. -/
def isWrittenOut (test : List Pattern → Bool) : XmlNode → XmlNode → Bool
  | .element name attributes children, .element name' attributes' children' =>
    attributes = attributes' &&
      (name = name' && areWrittenOut test children children' ||
        name = ⟨space, Text.ofString "mixed"⟩ && name' = ⟨space, Text.ofString "interleave"⟩ &&
          test (patterns children) &&
          match children' with
          | .element text [] [] :: written =>
            text = ⟨space, Text.ofString "text"⟩ && areWrittenOut test children written
          | _ => false)
  | .text t, .text u => t = u
  | .reference t, .reference u => t = u
  | .aside, .aside => true
  | _, _ => false

/-- Whether nodes are others with mixed patterns written out. -/
def areWrittenOut (test : List Pattern → Bool) : List XmlNode → List XmlNode → Bool
  | [], [] => true
  | node :: siblings, other :: others =>
    isWrittenOut test node other && areWrittenOut test siblings others
  | _, _ => false

end

section Comparison

variable {Q : List Pattern → Prop} {test : List Pattern → Bool}

mutual

theorem writtenOut_cons_of_isWrittenOut (htest : ∀ body, test body = true → Q body)
    (node : XmlNode) {other : XmlNode} {siblings others : List XmlNode}
    (hnode : isWrittenOut test node other = true) (h : WrittenOut Q siblings others) :
    WrittenOut Q (node :: siblings) (other :: others) := by
  cases node with
  | element name attributes children =>
    cases other with
    | element name' attributes' children' =>
      simp only [isWrittenOut, Bool.and_eq_true, Bool.or_eq_true, decide_eq_true_eq] at hnode
      obtain ⟨rfl, ⟨rfl, hchildren⟩ | ⟨⟨⟨rfl, rfl⟩, hbody⟩, hwritten⟩⟩ := hnode
      · exact .inside (writtenOut_of_areWrittenOut htest children hchildren) h
      · split at hwritten
        · next text written =>
          simp only [Bool.and_eq_true, decide_eq_true_eq] at hwritten
          obtain ⟨rfl, hchildren⟩ := hwritten
          exact .mixed (htest _ hbody) (writtenOut_of_areWrittenOut htest children hchildren) h
        · exact nomatch hwritten
    | _ => simp [isWrittenOut] at hnode
  | text t =>
    cases other with
    | text u =>
      obtain rfl : t = u := by simpa [isWrittenOut] using hnode
      exact .same h
    | _ => simp [isWrittenOut] at hnode
  | reference t =>
    cases other with
    | reference u =>
      obtain rfl : t = u := by simpa [isWrittenOut] using hnode
      exact .same h
    | _ => simp [isWrittenOut] at hnode
  | aside =>
    cases other with
    | aside => exact .same h
    | _ => simp [isWrittenOut] at hnode

/-- What compares as written out is. -/
theorem writtenOut_of_areWrittenOut (htest : ∀ body, test body = true → Q body)
    (siblings : List XmlNode) {others : List XmlNode}
    (h : areWrittenOut test siblings others = true) : WrittenOut Q siblings others := by
  cases siblings with
  | nil =>
    cases others with
    | nil => exact .nil
    | cons other others => simp [areWrittenOut] at h
  | cons node siblings =>
    cases others with
    | nil => simp [areWrittenOut] at h
    | cons other others =>
      rw [areWrittenOut, Bool.and_eq_true] at h
      exact writtenOut_cons_of_isWrittenOut htest node h.1
        (writtenOut_of_areWrittenOut htest siblings h.2)

end

end Comparison

end RelaxNg

/-! ### Grammars -/

/-- The same element, with mixed patterns written out. -/
structure ElementPattern.IsWrittenOut (Q : List Pattern → Prop) (e written : ElementPattern) :
    Prop where
  name : e.name = written.name
  documentation : e.documentation = written.documentation
  obstacle : e.obstacle = written.obstacle
  body : Pattern.WrittenOut Q e.body written.body

/-- The same grammar, with mixed patterns written out. -/
structure RngGrammar.IsWrittenOut (Q : List Pattern → Prop) (g written : RngGrammar) : Prop where
  elements : List.Forall₂ (ElementPattern.IsWrittenOut Q) g.elements written.elements
  defines : Pattern.WrittenOut.OfTables Q g.defines written.defines

namespace RelaxNg

open Pattern.WrittenOut (OfTables)

variable {Q : List Pattern → Prop}

theorem WrittenOut.addDefine ⦃t u : Table Text (List Pattern)⦄ (h : OfTables Q t u)
    ⦃node other : XmlNode⦄ (hnode : WrittenOut.Inside Q node other) :
    OfTables Q (RelaxNg.addDefine t node) (RelaxNg.addDefine u other) := by
  obtain @⟨name, attributes, children, written, hinside⟩ := hnode
  have hname : nameOf (.element name attributes children)
      = nameOf (.element name attributes written) := rfl
  rw [RelaxNg.addDefine, RelaxNg.addDefine, hname, h.isSome_find?]
  split
  · exact h
  · exact List.rel_append h (.cons ⟨rfl, hinside.patterns⟩ .nil)

/-- **A document with mixed patterns written out is a grammar with mixed patterns written out.** -/
theorem isWrittenOut_ofXml {root other : XmlNode} (h : WrittenOut Q [root] [other]) :
    (ofXml root).IsWrittenOut Q (ofXml other) := by
  have hnodes : ∀ word : String, word ∉ ["mixed", "interleave", "text"] →
      List.Forall₂ (WrittenOut.Inside Q) ((nodes root).filter (isNamed word))
        ((nodes other).filter (isNamed word)) := by
    intro word hword
    simpa only [nodesOfAll, List.append_nil] using h.filter_nodesOfAll hword
  constructor
  · refine List.forall₂_map_left_iff.mpr (List.forall₂_map_right_iff.mpr
      ((hnodes "element" (by decide)).imp ?_))
    rintro _ _ @⟨name, attributes, _, _, hinside⟩
    exact ⟨rfl, hinside.documentation_eq name attributes, hinside.obstacle_eq name attributes,
      hinside.patterns⟩
  · exact List.rel_foldl (WrittenOut.addDefine (Q := Q)) .nil (hnodes "define" (by decide))

end RelaxNg

/-- The element without its attributes. -/
def ElementSpec.withoutAttributes {Name : Type} (spec : ElementSpec Name) : ElementSpec Name :=
  { spec with attributes := [] }

namespace RngGrammar

open Pattern Pattern.WrittenOut

variable {Q R : List Pattern → Prop} {g written : RngGrammar}

theorem addNamed_of_isWrittenOut ⦃found others : List ElementPattern⦄
    (hfound : List.Forall₂ (ElementPattern.IsWrittenOut Q) found others) ⦃e other : ElementPattern⦄
    (he : e.IsWrittenOut Q other) :
    List.Forall₂ (ElementPattern.IsWrittenOut Q) (addNamed found e) (addNamed others other) := by
  have hany : (found.any fun f => f.name = e.name) = others.any fun f => f.name = e.name := by
    induction hfound with
    | nil => rfl
    | cons hf _ ih => rw [List.any_cons, List.any_cons, hf.name, ih]
  rw [addNamed, addNamed, ← he.name, hany]
  split
  · exact hfound
  · exact List.rel_append hfound (.cons he .nil)

theorem IsWrittenOut.namedElements (h : g.IsWrittenOut Q written) :
    List.Forall₂ (ElementPattern.IsWrittenOut Q) g.namedElements written.namedElements :=
  List.rel_foldl (addNamed_of_isWrittenOut (Q := Q)) .nil h.elements

/-- The expanded patterns of an element. -/
theorem IsWrittenOut.expandAll_body (h : g.IsWrittenOut Q written) (hpasses : Passes g.defines Q R)
    (hg : g.defines.Distinct) (hwritten : written.defines.Distinct) {e other : ElementPattern}
    (he : e.IsWrittenOut Q other) :
    WrittenOut R (Pattern.expandAll g.defines e.body)
      (Pattern.expandAll written.defines other.body) :=
  expandAll hpasses hg hwritten (fun _ _ hfind => hfind) h.defines he.body

/-- What is read off the elements of a grammar comes in the order of their names. -/
theorem map_elementSpecs {α : Type} (g : RngGrammar) (f : ElementSpec Text → α) :
    g.elementSpecs.map f
      = ((g.namedElements.map fun e => (e.name.lower, f (g.elementSpec e))).mergeSort
          fun a b => Text.compare a.1 b.1 != .gt).map Prod.snd := by
  have hsort := List.map_mergeSort (f := Prod.map id f)
    (l := g.namedElements.map fun e => (e.name.lower, g.elementSpec e))
    (r := fun a b => Text.compare a.1 b.1 != .gt) (s := fun a b => Text.compare a.1 b.1 != .gt)
    fun _ _ _ _ => rfl
  rw [List.map_map] at hsort
  have hread : (fun e => (e.name.lower, f (g.elementSpec e)))
      = Prod.map id f ∘ fun e => (e.name.lower, g.elementSpec e) := rfl
  rw [hread, ← hsort, List.map_map, elementSpecs, List.map_map]
  rfl

/-- What is the same of every element is the same of the whole grammar. -/
theorem IsWrittenOut.map_elementSpecs {α : Type} {f : ElementSpec Text → α}
    (h : g.IsWrittenOut Q written) (hf : ∀ e other, e.IsWrittenOut Q other →
      f (g.elementSpec e) = f (written.elementSpec other)) :
    g.elementSpecs.map f = written.elementSpecs.map f := by
  have hkeyed : ∀ {elements others : List ElementPattern},
      List.Forall₂ (ElementPattern.IsWrittenOut Q) elements others →
        (elements.map fun e => (e.name.lower, f (g.elementSpec e)))
          = others.map fun e => (e.name.lower, f (written.elementSpec e)) := by
    intro elements others helements
    induction helements with
    | nil => rfl
    | cons he _ ih => rw [List.map_cons, List.map_cons, ih, he.name, hf _ _ he]
  rw [RngGrammar.map_elementSpecs, RngGrammar.map_elementSpecs, hkeyed h.namedElements]

section Element

variable (h : g.IsWrittenOut Q written) (hg : g.defines.Distinct)
  (hwritten : written.defines.Distinct) {e other : ElementPattern} (he : e.IsWrittenOut Q other)

include h hg hwritten he

/-- **At most the attributes of an element change** when mixed patterns are written out. -/
theorem IsWrittenOut.withoutAttributes_elementSpec (hpasses : Passes g.defines Q R) :
    (g.elementSpec e).withoutAttributes = (written.elementSpec other).withoutAttributes := by
  have hbody := (h.expandAll_body hpasses hg hwritten he).sameContent
  simp only [ElementSpec.withoutAttributes, elementSpec, he.name, he.documentation, hbody.model]

variable (hpasses : Passes g.defines Q fun body => ¬ LeadsToAttribute [] body)

include hpasses

/-- Nothing changes, where the mixed patterns lead to no named attribute. -/
theorem IsWrittenOut.elementSpec_eq : g.elementSpec e = written.elementSpec other := by
  have hbody := h.expandAll_body hpasses hg hwritten he
  simp only [elementSpec, he.name, he.documentation, hbody.sameContent.model,
    hbody.attributesOfAll_eq]

/-- And nothing more stands in the way of the import. -/
theorem IsWrittenOut.obstacleOf_eq_none_iff :
    g.obstacleOf e = none ↔ written.obstacleOf other = none := by
  have hbody := h.expandAll_body hpasses hg hwritten he
  have hcontent := hbody.sameContent.obstacle
  simp only [obstacleOf, he.obstacle, Option.or_eq_none_iff, hcontent]
  refine and_congr_left fun hnone => ?_
  rw [attributeObstacle, attributeObstacle, hbody.meetAll_eq [] (hcontent.trans hnone)]

end Element

/-- A grammar is imported if it is with mixed patterns written out, where these lead to no named
attribute. -/
theorem IsWrittenOut.findSome?_obstacleOf_eq_none_iff (h : g.IsWrittenOut Q written)
    (hg : g.defines.Distinct) (hwritten : written.defines.Distinct)
    (hpasses : Passes g.defines Q fun body => ¬ LeadsToAttribute [] body) :
    g.namedElements.findSome? g.obstacleOf = none ↔
      written.namedElements.findSome? written.obstacleOf = none := by
  have hall : ∀ {elements others : List ElementPattern},
      List.Forall₂ (ElementPattern.IsWrittenOut Q) elements others →
        (elements.findSome? g.obstacleOf = none ↔ others.findSome? written.obstacleOf = none) := by
    intro elements others helements
    simp only [List.findSome?_eq_none_iff]
    induction helements with
    | nil => simp
    | cons he _ ih =>
      rw [List.forall_mem_cons, List.forall_mem_cons, ih,
        h.obstacleOf_eq_none_iff hg hwritten he hpasses]
  exact hall h.namedElements

end RngGrammar

open RelaxNg Pattern Pattern.WrittenOut in
/-- **Mixed content written out.** When mixed patterns of a grammar are written out as interleavings
with text, the elements that are imported are the same but for their attributes. When none of the
patterns that are written out leads to a named attribute, they are the same altogether, and they are
imported from the one document exactly if they are from the other. -/
theorem parseRng_writtenOut {document written : Text} {root other : XmlNode}
    (hroot : Xml.parse? document = some root) (hother : Xml.parse? written = some other) :
    (RelaxNg.WrittenOut (fun _ => True) [root] [other] →
      ∀ specs others, parseRng document = .ok specs → parseRng written = .ok others →
        specs.map ElementSpec.withoutAttributes = others.map ElementSpec.withoutAttributes) ∧
    (RelaxNg.WrittenOut (fun body => ¬ LeadsToAttribute (ofXml root).defines body) [root] [other] →
      ∀ specs, parseRng document = .ok specs ↔ parseRng written = .ok specs) := by
  have hg := distinct_defines_ofXml root
  have hwritten := distinct_defines_ofXml other
  constructor
  · intro h specs others hspecs hothers
    obtain ⟨_, hroot', -, -, rfl⟩ := parseRng_eq_ok_iff.mp hspecs
    obtain rfl := Option.some.inj (hroot.symm.trans hroot')
    obtain ⟨_, hother', -, -, rfl⟩ := parseRng_eq_ok_iff.mp hothers
    obtain rfl := Option.some.inj (hother.symm.trans hother')
    have hgrammar := isWrittenOut_ofXml h
    exact hgrammar.map_elementSpecs fun e f he =>
      hgrammar.withoutAttributes_elementSpec hg hwritten he (passes_true _)
  · intro h specs
    have hgrammar := isWrittenOut_ofXml h
    have hpasses := passes_leadsToAttribute (ofXml root).defines
    have hspecs : (ofXml root).elementSpecs = (ofXml other).elementSpecs := by
      simpa using hgrammar.map_elementSpecs (f := id) fun e f he =>
        hgrammar.elementSpec_eq hg hwritten he hpasses
    have hobstacle := hgrammar.findSome?_obstacleOf_eq_none_iff hg hwritten hpasses
    have hnamed : (ofXml root).namedElements = [] ↔ (ofXml other).namedElements = [] := by
      rw [← List.length_eq_zero_iff, hgrammar.namedElements.length_eq, List.length_eq_zero_iff]
    simp only [parseRng_eq_ok_iff, hroot, hother, Option.some.injEq, exists_eq_left', hobstacle,
      hspecs, ne_eq, hnamed]

open RelaxNg Pattern in
/-- Whether a document is another with mixed patterns written out, those that lead to no named
attribute where `isStrict` asks for it. -/
def writesOut (isStrict : Bool) (document written : Text) : Bool :=
  (Xml.parse? document).any fun root => (Xml.parse? written).any fun other =>
    areWrittenOut
      (fun body =>
        !isStrict || (attributesOfAll true (expandAll (ofXml root).defines body)).isEmpty)
      [root] [other]

open RelaxNg Pattern in
theorem exists_of_writesOut {isStrict : Bool} {document written : Text}
    (h : writesOut isStrict document written = true) :
    ∃ root other, Xml.parse? document = some root ∧ Xml.parse? written = some other ∧
      RelaxNg.WrittenOut
        (fun body => isStrict = true → ¬ LeadsToAttribute (ofXml root).defines body)
        [root] [other] := by
  simp only [writesOut, Option.any_eq_true] at h
  obtain ⟨root, hroot, other, hother, h⟩ := h
  refine ⟨root, other, hroot, hother, writtenOut_of_areWrittenOut (fun body htest => ?_) _ h⟩
  intro hstrict
  rw [leadsToAttribute_iff (distinct_defines_ofXml root), not_not, ← List.isEmpty_iff]
  simpa [hstrict] using htest

/-- A grammar in which `p` holds a mixed pattern that refers to an element. -/
def mixedReference : Text :=
  grammarHolding "<mixed><ref name=\"d\"/></mixed>" "<element name=\"a\"/>"

/-- The grammar with the mixed pattern written out. -/
def interleavedReference : Text :=
  grammarHolding "<interleave><text/><ref name=\"d\"/></interleave>" "<element name=\"a\"/>"

open RelaxNg Pattern in
/-- A mixed pattern that refers to an element is the same as an interleaving. -/
theorem parseRng_writtenOut_reference :
    ∃ root other, Xml.parse? mixedReference = some root ∧
      Xml.parse? interleavedReference = some other ∧
      RelaxNg.WrittenOut (fun body => ¬ LeadsToAttribute (ofXml root).defines body)
        [root] [other] ∧
      ∃ specs, parseRng mixedReference = .ok specs ∧ parseRng interleavedReference = .ok specs := by
  have hwrites : writesOut true mixedReference interleavedReference = true := by decide +kernel
  have himport : importsElement (fun _ => true) mixedReference = true := by decide +kernel
  obtain ⟨root, other, hroot, hother, h⟩ := exists_of_writesOut hwrites
  obtain ⟨specs, hspecs, -⟩ := exists_mem_of_importsElement himport
  simp only [forall_const] at h
  exact ⟨root, other, hroot, hother, h, specs, hspecs,
    ((parseRng_writtenOut hroot hother).2 h specs).mp hspecs⟩

/-- A grammar in which `p` holds a mixed pattern with an attribute. -/
def mixedAttribute : Text := grammarHolding "<mixed><attribute name=\"x\"/></mixed>" ""

/-- The grammar with the mixed pattern written out. -/
def interleavedAttribute : Text :=
  grammarHolding "<interleave><text/><attribute name=\"x\"/></interleave>" ""

/-- A mixed pattern with an attribute is not the same as an interleaving: its attribute is lost. -/
theorem losesAttribute_mixedAttribute :
    ∃ root other, Xml.parse? mixedAttribute = some root ∧
      Xml.parse? interleavedAttribute = some other ∧
      RelaxNg.WrittenOut (fun _ => True) [root] [other] ∧
      parseRng mixedAttribute ≠ parseRng interleavedAttribute := by
  have hwrites : writesOut false mixedAttribute interleavedAttribute = true := by decide +kernel
  have hlost : importsElement (fun e => e.name = Text.ofString "p" && e.attributes.isEmpty)
      mixedAttribute = true := by
    decide +kernel
  have hfound : importsElement (fun e => e.name = Text.ofString "p" &&
      e.attributes.map (fun a => (a.name, a.isRequired)) = [(Text.ofString "x", true)])
      interleavedAttribute = true := by
    decide +kernel
  obtain ⟨root, other, hroot, hother, h⟩ := exists_of_writesOut hwrites
  refine ⟨root, other, hroot, hother, by simpa using h, fun heq => ?_⟩
  obtain ⟨specs, hspecs, e, he, hempty⟩ := exists_mem_of_importsElement hlost
  obtain ⟨others, hothers, f, hf, hx⟩ := exists_mem_of_importsElement hfound
  simp only [Bool.and_eq_true, decide_eq_true_eq] at hempty hx
  obtain rfl := Except.ok.inj (hspecs.symm.trans (heq.trans hothers))
  obtain rfl := eq_of_mem_parseRng hspecs he hf (hempty.1.trans hx.1.symm)
  rw [List.isEmpty_iff.mp hempty.2] at hx
  exact nomatch hx.2

end MarkupGrammar
