import MarkupGrammar.Check.Structure
import MarkupGrammar.Proofs.Check.Conformance
import MarkupGrammar.Proofs.RelaxNg.AttributeList
import MarkupGrammar.Proofs.RelaxNg.Children
import MarkupGrammar.Proofs.RelaxNg.Demands

/-!
# Required children of an imported element

A child that an imported element requires is in every list of children that the grammar admits for
it, unless its patterns have a place where it is forced. So a document that keeps to its grammar is
told of a missing child for the sake of such a place only.

## Main results

* `missingChild_mem_checkClosing` — of which children an element is told that they are missing
* `requiredChildren_parseRng` — which of them the grammar demands as well
-/

namespace MarkupGrammar

/-! ### Missing children -/

mutual

theorem ContentModel.demands_map {Name Other : Type} (f : Name → Other) (m : ContentModel Name) :
    (m.map f).demands = m.demands.map f := by
  obtain ⟨arrangement, items, bounds⟩ := m
  rw [ContentModel.map, ContentModel.demands, ContentModel.demands, Item.demandsOfAll_mapAll]
  split <;> rfl
termination_by (sizeOf m, 1)

theorem Item.demandsOfAll_mapAll {Name Other : Type} (f : Name → Other) (items : List (Item Name)) :
    Item.demandsOfAll (Item.mapAll f items) = (Item.demandsOfAll items).map f := by
  cases items with
  | nil => rfl
  | cons item items =>
    rw [Item.mapAll, Item.demandsOfAll, Item.demandsOfAll, Item.demands_map f item,
      Item.demandsOfAll_mapAll f items, List.map_append]
termination_by (sizeOf items, 0)

theorem Item.demands_map {Name Other : Type} (f : Name → Other) (item : Item Name) :
    (item.map f).demands = item.demands.map f := by
  cases item with
  | element name bounds =>
    rw [Item.map, Item.demands, Item.demands]
    split <;> rfl
  | group content bounds =>
    rw [Item.map, Item.demands, Item.demands, ContentModel.demands_map f content]
    split <;> rfl
  | _ => rfl
termination_by (sizeOf item, 0)

end

theorem ElementSpec.model?_map {Name Other : Type} (f : Name → Other) (e : ElementSpec Name) :
    (e.map f).model? = e.model?.map fun m => m.map f := by
  obtain ⟨name, documentation, attributeClasses, modelClasses, attributes, shape, content⟩ := e
  cases content <;> rfl

/-- **Missing children** are required by the model of the element, and not among its children. -/
theorem missingChild_mem_checkClosing {Name : Type} [Label Name] {frame : OpenTag Name}
    {parent : Text} {child : Name} {position : Position}
    (h : ⟨.missingChild parent child, position⟩ ∈ Schema.checkClosing frame) :
    ∃ m, frame.spec.bind ElementSpec.model? = some m ∧ child ∈ m.demands ∧
      ∀ c ∈ frame.reversedChildren, (c.name == child) = false := by
  rw [Schema.checkClosing] at h
  split at h
  · exact (List.not_mem_nil h).elim
  · next m hm =>
    rcases List.mem_append.mp h with h | h
    · exact (Bool.false_ne_true (m.isConformance_of_mem_check h)).elim
    · obtain ⟨required, hrequired, heq⟩ := List.mem_map.mp h
      obtain ⟨-, rfl⟩ := Finding.missingChild.inj (congrArg Diagnostic.finding heq)
      obtain ⟨hmem, hmissing⟩ := List.mem_filter.mp hrequired
      refine ⟨m, hm, Label.mem_of_mem_eraseDups hmem, fun c hc => ?_⟩
      simp only [Bool.not_eq_true', List.any_eq_false, List.mem_reverse, Bool.not_eq_true]
        at hmissing
      exact hmissing c hc

/-! ### Imported elements -/

namespace RngGrammar

open Pattern

variable {g : RngGrammar} {meaning : Text → Language Text} {name : Text}

/-- **A name that the model of an element demands is in all words of its patterns, or it is
forced.** -/
theorem compels_or_forces_elementSpec (hg : g.defines.Distinct)
    (hmeaning : IsReading g.defines meaning) (e : ElementPattern) {m : ContentModel Text}
    (hm : (g.elementSpec e).model? = some m) (h : name ∈ m.demands) :
    Compels (languageOf meaning e.body) name ∨ Forces g.defines meaning name true e.body := by
  rw [model?_elementSpec] at hm
  have hdemanded : Compels (languageOf meaning (expandAll g.defines e.body)) name ∨
      Forces [] meaning name true (expandAll g.defines e.body) :=
    compels_or_forces_contentModel _ hm h
  rcases hdemanded with hcompels | hforces
  · rw [languageOf_expandAll hg hmeaning] at hcompels
    exact Or.inl hcompels
  · exact Or.inr (hforces.of_expandAll hg hmeaning)

end RngGrammar

open RelaxNg Pattern in
/-- **Required children of imported elements.** Whatever the references of a grammar mean, a child
that the model of an element requires is in every list of children that the patterns of the element
admit, unless it is forced: it is demanded where a repetition is all there is and its content is
loose, so that the empty list is admitted there, and no other list without the child. An element
of a document whose children are admitted is told of a missing child for such a place only. -/
theorem requiredChildren_parseRng {document : Text} {specs : List (ElementSpec Text)}
    (h : parseRng document = .ok specs) :
    ∃ root, Xml.parse? document = some root ∧
      ∀ meaning, IsReading (ofXml root).defines meaning →
        (∀ ps, Loose (ofXml root).defines ps → [] ∈ languageOf meaning ps) ∧
        ∀ spec ∈ specs, ∃ node, named? "element" root spec.name = some node ∧
          let body := patterns node.children
          (∀ m, spec.model? = some m → ∀ name ∈ m.requiredChildren,
            (∀ word ∈ languageOf meaning body, name ∈ word) ∨
              Forces (ofXml root).defines meaning name true body) ∧
          ∀ (frame : OpenTag Json) (word : List Text), frame.spec = some (spec.map Json.text) →
            frame.reversedChildren.reverse.map Child.name = word.map Json.text →
              word ∈ languageOf meaning body → ∀ parent child position,
                ⟨.missingChild parent child, position⟩ ∈ Schema.checkClosing frame →
                  ∃ name, child = .text name ∧
                    Forces (ofXml root).defines meaning name true body := by
  obtain ⟨root, hroot, -, -, rfl⟩ := parseRng_eq_ok_iff.mp h
  have hg := distinct_defines_ofXml root
  refine ⟨root, hroot, fun meaning hmeaning =>
    ⟨fun ps hloose => hloose.nil_mem hmeaning, fun spec hspec => ?_⟩⟩
  obtain ⟨e, he, rfl⟩ := RngGrammar.mem_elementSpecs_iff.mp hspec
  obtain ⟨node, hnode, hbody⟩ := exists_node_of_mem_namedElements he
  refine ⟨node, hnode, ?_⟩
  rw [← hbody]
  constructor
  · intro m hm name hname
    exact RngGrammar.compels_or_forces_elementSpec hg hmeaning e hm
      (Label.mem_of_mem_eraseDups hname)
  · intro frame word hframe hchildren hword parent child position hmissing
    obtain ⟨mapped, hmapped, hdemanded, habsent⟩ := missingChild_mem_checkClosing hmissing
    rw [hframe, Option.bind_some, ElementSpec.model?_map] at hmapped
    obtain ⟨m, hm, rfl⟩ := Option.map_eq_some_iff.mp hmapped
    rw [ContentModel.demands_map] at hdemanded
    obtain ⟨name, hname, rfl⟩ := List.mem_map.mp hdemanded
    refine ⟨name, rfl, ?_⟩
    rcases RngGrammar.compels_or_forces_elementSpec hg hmeaning e hm hname with hcompels | hforces
    · -- the name is in the word, and so among the children
      have hmem : Json.text name ∈ frame.reversedChildren.reverse.map Child.name :=
        hchildren ▸ List.mem_map_of_mem (hcompels word hword)
      obtain ⟨c, hc, hsame⟩ := List.mem_map.mp hmem
      have hequal : (c.name == Json.text name) = true :=
        (LawfulLabel.beq_ofText_iff c.name name).mpr hsame
      exact absurd ((habsent c (List.mem_reverse.mp hc)).symm.trans hequal) Bool.false_ne_true
    · exact hforces

/-! ### Repetitions of a single element -/

namespace Pattern

/-- An element in repetitions, the outermost first, and nothing else. -/
def nested : List RepeatKind → Text → List Pattern
  | [], name => [.element name]
  | kind :: kinds, name => [.occurs kind (nested kinds name)]

/-- Whether patterns are an element in repetitions, and nothing else. -/
def isNested : List RepeatKind → Text → List Pattern → Bool
  | [], name, [.element n] => n = name
  | kind :: kinds, name, [.occurs k body] => k = kind && isNested kinds name body
  | _, _, _ => false

theorem eq_nested_of_isNested {kinds : List RepeatKind} {name : Text} {ps : List Pattern}
    (h : isNested kinds name ps = true) : ps = nested kinds name := by
  induction kinds generalizing ps with
  | nil =>
    rw [isNested.eq_def] at h
    split at h
    · rw [of_decide_eq_true h]
      rfl
    · contradiction
    · contradiction
  | cons kind kinds ih =>
    rw [isNested.eq_def] at h
    split at h
    · contradiction
    · next heq =>
      obtain ⟨rfl, rfl⟩ := List.cons.inj heq
      rw [Bool.and_eq_true, decide_eq_true_eq] at h
      rw [h.1, ih h.2]
      rfl
    · contradiction

/-- An element that may be left out may be left out however often it is repeated. -/
theorem nil_mem_languageOf_nested (meaning : Text → Language Text) {kinds : List RepeatKind}
    {name : Text} (h : ∃ kind ∈ kinds, kind ≠ .oneOrMore) :
    [] ∈ languageOf meaning (nested kinds name) := by
  induction kinds with
  | nil =>
    obtain ⟨kind, hkind, -⟩ := h
    exact nomatch hkind
  | cons kind kinds ih =>
    rw [nested, languageOf_cons, languageOf_nil, mul_one, language]
    by_cases hkind : kind = .oneOrMore
    · refine nil_mem_words (ih ?_)
      obtain ⟨other, hother, hne⟩ := h
      rcases List.mem_cons.mp hother with rfl | hother
      · exact absurd hkind hne
      · exact ⟨other, hother, hne⟩
    · exact nil_mem_words_of_ne hkind

section

variable {defines : Table Text (List Pattern)} {kinds : List RepeatKind} {name : Text}

theorem not_loose_nested (h : ∀ kind ∈ kinds, kind = .oneOrMore) :
    ¬ Loose defines (nested kinds name) := by
  intro hloose
  cases kinds with
  | nil => cases hloose with
    | occurs heq hkind => exact nomatch (content_singleton rfl).symm.trans heq
    | ref heq hfind hbody => exact nomatch (content_singleton rfl).symm.trans heq
    | resolved heq hbody => exact nomatch (content_singleton rfl).symm.trans heq
  | cons kind kinds => cases hloose with
    | occurs heq hkind =>
      obtain ⟨rfl, -⟩ := Pattern.occurs.inj
        (List.singleton_inj.mp ((content_singleton rfl).symm.trans heq))
      exact hkind (h kind List.mem_cons_self)
    | ref heq hfind hbody => exact nomatch (content_singleton rfl).symm.trans heq
    | resolved heq hbody => exact nomatch (content_singleton rfl).symm.trans heq

/-- Nothing is forced about an element that may not be left out. -/
theorem not_forces_nested {meaning : Text → Language Text} {forced : Text}
    (h : ∀ kind ∈ kinds, kind = .oneOrMore) :
    ¬ Forces defines meaning forced true (nested kinds name) := by
  induction kinds with
  | nil =>
    intro hforces
    cases hforces with
    | here heq hloose hname => exact nomatch (content_singleton rfl).symm.trans heq
    | inLone heq hbody => exact nomatch (content_singleton rfl).symm.trans heq
    | inCombination hp hkind hbody => exact nomatch List.mem_singleton.mp hp
    | inRepetition hp hbody => exact nomatch List.mem_singleton.mp hp
    | inDefinition hp hfind hbody => exact nomatch List.mem_singleton.mp hp
    | inResolved hp hbody => exact nomatch List.mem_singleton.mp hp
  | cons kind kinds ih =>
    have hinner := List.forall_mem_cons.mp h
    intro hforces
    cases hforces with
    | here heq hloose hname =>
      obtain ⟨-, rfl⟩ := Pattern.occurs.inj
        (List.singleton_inj.mp ((content_singleton rfl).symm.trans heq))
      exact not_loose_nested hinner.2 hloose
    | inLone heq hbody =>
      obtain ⟨-, rfl⟩ := Pattern.occurs.inj
        (List.singleton_inj.mp ((content_singleton rfl).symm.trans heq))
      exact ih hinner.2 hbody
    | inCombination hp hkind hbody => exact nomatch List.mem_singleton.mp hp
    | inRepetition hp hbody =>
      obtain ⟨-, rfl⟩ := Pattern.occurs.inj (List.mem_singleton.mp hp)
      exact ih hinner.2 hbody
    | inDefinition hp hfind hbody => exact nomatch List.mem_singleton.mp hp
    | inResolved hp hbody => exact nomatch List.mem_singleton.mp hp

end

end Pattern

open RelaxNg Pattern in
/-- Whether the first element `p` of a document holds the element `a` in repetitions only. -/
def holdsNested (kinds : List RepeatKind) (document : Text) : Bool :=
  (Xml.parse? document).any fun root =>
    (named? "element" root (Text.ofString "p")).any fun node =>
      isNested kinds (Text.ofString "a") (patterns node.children)

open RelaxNg Pattern in
theorem exists_of_holdsNested {kinds : List RepeatKind} {document : Text}
    (h : holdsNested kinds document = true) :
    ∃ root node, Xml.parse? document = some root ∧
      named? "element" root (Text.ofString "p") = some node ∧
        patterns node.children = nested kinds (Text.ofString "a") := by
  simp only [holdsNested, Option.any_eq_true] at h
  obtain ⟨root, hroot, node, hnode, hnested⟩ := h
  exact ⟨root, node, hroot, hnode, eq_nested_of_isNested hnested⟩

/-- Whether an element is `p` and requires `a`. -/
def requiresA (spec : ElementSpec Text) : Bool :=
  spec.name = Text.ofString "p" &&
    spec.model?.any fun m => m.requiredChildren.elem (Text.ofString "a")

/-- A grammar in which `p` holds one `a` or more. -/
def repeatedElement : Text :=
  grammarHolding "<oneOrMore><element name=\"a\"/></oneOrMore>" ""

open RelaxNg Pattern in
/-- An element that is repeated is required, and is in every list of children. -/
theorem requiredChildren_repeated :
    ∃ specs, parseRng repeatedElement = .ok specs ∧ ∃ spec ∈ specs, requiresA spec = true ∧
      ∃ root node, Xml.parse? repeatedElement = some root ∧
        named? "element" root spec.name = some node ∧
        ∀ word ∈ languageOf (leastReading (ofXml root).defines) (patterns node.children),
          Text.ofString "a" ∈ word := by
  have himport : importsElement requiresA repeatedElement = true := by decide +kernel
  have hholds : holdsNested [.oneOrMore] repeatedElement = true := by decide +kernel
  obtain ⟨specs, hspecs, spec, hspec, hrequires⟩ := exists_mem_of_importsElement himport
  obtain ⟨root', node', hroot', hnode', hpatterns⟩ := exists_of_holdsNested hholds
  obtain ⟨root, hroot, hsound⟩ := requiredChildren_parseRng hspecs
  obtain rfl := Option.some.inj (hroot.symm.trans hroot')
  obtain ⟨node, hnode, hnames, -⟩ := (hsound _ (isReading_leastReading _)).2 spec hspec
  refine ⟨specs, hspecs, spec, hspec, hrequires, root, node, hroot, hnode, ?_⟩
  simp only [requiresA, Bool.and_eq_true, decide_eq_true_eq, Option.any_eq_true,
    List.elem_eq_mem] at hrequires
  obtain ⟨hname, m, hm, hmem⟩ := hrequires
  obtain rfl := Option.some.inj (hnode.symm.trans (hname ▸ hnode'))
  refine (hnames m hm _ hmem).resolve_right ?_
  rw [hpatterns]
  exact not_forces_nested (by decide)

/-- A grammar in which `p` holds one or more times an `a` that may be left out. -/
def repeatedOption : Text :=
  grammarHolding "<oneOrMore><optional><element name=\"a\"/></optional></oneOrMore>" ""

open RelaxNg Pattern in
/-- **An optional element that is repeated is required,** though no children at all are admitted. -/
theorem requiresOptional_repeatedOption :
    ∃ root node, Xml.parse? repeatedOption = some root ∧
      named? "element" root (Text.ofString "p") = some node ∧
      (∀ meaning, [] ∈ languageOf meaning (patterns node.children)) ∧
      ∃ specs, parseRng repeatedOption = .ok specs ∧
        ∃ spec ∈ specs, spec.name = Text.ofString "p" ∧
          ∃ m, spec.model? = some m ∧ Text.ofString "a" ∈ m.requiredChildren := by
  have himport : importsElement requiresA repeatedOption = true := by decide +kernel
  have hholds : holdsNested [.oneOrMore, .optional] repeatedOption = true := by decide +kernel
  obtain ⟨specs, hspecs, spec, hspec, hrequires⟩ := exists_mem_of_importsElement himport
  obtain ⟨root, node, hroot, hnode, hpatterns⟩ := exists_of_holdsNested hholds
  simp only [requiresA, Bool.and_eq_true, decide_eq_true_eq, Option.any_eq_true,
    List.elem_eq_mem] at hrequires
  refine ⟨root, node, hroot, hnode, fun meaning => ?_, specs, hspecs, spec, hspec, hrequires⟩
  rw [hpatterns]
  exact nil_mem_languageOf_nested meaning ⟨.optional, by simp, nofun⟩

end MarkupGrammar
