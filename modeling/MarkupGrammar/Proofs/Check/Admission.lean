import MarkupGrammar.Proofs.Check.Emptiness
import MarkupGrammar.Proofs.Check.Tree
import MarkupGrammar.Proofs.Grammar.Table

/-!
# Children that a model does not admit

Two checks look at a child that its parent's model does not have. The opening tag of the child is
compared with the elements in the model, unless there are none. When the parent closes, an empty
model reports that there are children at all; so does an empty model in a group, as long as the
models around it are looked at part by part.

Between the two lies one kind of model: it has no elements and refuses no children, such as a model
of text alone. It leaves open what else may stand in the element, and nothing is reported of any
child. For all other models no child that is not admitted goes unreported, at any depth of a
well-nested document.

## Main definitions

* `TagTree.IsIn` — an element of a forest, at any depth
* `ContentModel.refusesChildren` — a model that has no room for children

## Main results

* `ContentModel.notEmpty_mem_check_iff` — children are refused by the models that have no room
* `ContentModel.check_eq_nil` — where nothing is named and nothing refused, nothing is at fault
* `reports_inadmissible` — what is reported of a child that the model does not admit
-/

namespace MarkupGrammar

/-- An element of a forest, at any depth. -/
inductive TagTree.IsIn (t : TagTree) : List TagTree → Prop where
  | root {forest : List TagTree} (h : t ∈ forest) : IsIn t forest
  | inside {name : Text} {position : Position} {attributes : List Attribute}
    {content : List TagTree} {closing : Position} {closingAttributes : List Attribute}
    {forest : List TagTree}
    (h : .pair name position attributes content closing closingAttributes ∈ forest)
    (ht : IsIn t content) : IsIn t forest

/-! ### Models without room for children -/

section Models

variable {Name Place : Type}

mutual

/-- Whether a model has no room for children: it is empty, or has such a model among its parts and
asks for all of them. -/
def ContentModel.refusesChildren : ContentModel Name → Bool
  | ⟨arrangement, items, _⟩ =>
    match arrangement with
    | .empty => true
    | .sequence => Item.anyRefusesChildren items
    | .interleave => Item.anyRefusesChildren items
    | .group => Item.anyRefusesChildren items
    | .choice => false
    | .element => false
    | .text => false

/-- Whether one of the items has no room for children. -/
def Item.anyRefusesChildren : List (Item Name) → Bool
  | [] => false
  | item :: items => item.refusesChildren || Item.anyRefusesChildren items

/-- Whether an item has no room for children. -/
def Item.refusesChildren : Item Name → Bool
  | .group content _ => content.refusesChildren
  | .element _ _ => false
  | .text _ => false
  | .pattern _ _ => false

end

variable [BEq Name] {parent : Text} {first : Child Name Place} {rest : List (Child Name Place)}

mutual

/-- **Children are refused by the models that have no room for them,** and the first child is where
it is said. -/
theorem ContentModel.notEmpty_mem_check_iff (m : ContentModel Name) :
    (⟨.notEmpty parent, first.position⟩ : Diagnostic Name Place) ∈ m.check parent (first :: rest)
      ↔ m.refusesChildren = true := by
  obtain ⟨arrangement, items, bounds⟩ := m
  cases arrangement with
  | choice =>
    refine ⟨fun hd => ?_, nofun⟩
    exact nomatch isNotEmpty_of_mem_checkChoice hd
  | sequence => exact Item.notEmpty_mem_checkAll_iff items
  | interleave => exact Item.notEmpty_mem_checkAll_iff items
  | group => exact Item.notEmpty_mem_checkAll_iff items
  | empty => exact ⟨fun _ => rfl, fun _ => List.mem_singleton_self _⟩
  | element => exact ⟨nofun, nofun⟩
  | text => exact ⟨nofun, nofun⟩

theorem Item.notEmpty_mem_checkAll_iff (items : List (Item Name)) :
    (⟨.notEmpty parent, first.position⟩ : Diagnostic Name Place)
        ∈ Item.checkAll parent (first :: rest) items
      ↔ Item.anyRefusesChildren items = true := by
  cases items with
  | nil => exact ⟨nofun, nofun⟩
  | cons item items =>
    rw [Item.checkAll, List.mem_append, Item.notEmpty_mem_check_iff item,
      Item.notEmpty_mem_checkAll_iff items, Item.anyRefusesChildren, Bool.or_eq_true]

theorem Item.notEmpty_mem_check_iff (item : Item Name) :
    (⟨.notEmpty parent, first.position⟩ : Diagnostic Name Place)
        ∈ item.check parent (first :: rest)
      ↔ item.refusesChildren = true := by
  cases item with
  | element name bounds =>
    refine ⟨fun hd => ?_, nofun⟩
    exact nomatch isNotEmpty_of_mem_checkCount hd
  | text bounds => exact ⟨nofun, nofun⟩
  | group content bounds => exact ContentModel.notEmpty_mem_check_iff content
  | pattern name bounds => exact ⟨nofun, nofun⟩

end

/-- Without names there are no alternatives to tell apart. -/
theorem checkChoice_eq_nil {items : List (Item Name)} {children : List (Child Name Place)}
    (h : Item.namesOfAll items = []) : checkChoice parent items children = [] := by
  have hnone : alternatives items = [] := by
    have hfilter : (items.map Item.names).filter (fun names => !names.isEmpty) = [] := by
      induction items with
      | nil => rfl
      | cons item items ih =>
        rw [Item.namesOfAll, List.append_eq_nil_iff] at h
        rw [List.map_cons, h.1]
        exact ih h.2
    rw [alternatives, hfilter]
    rfl
  have hunused : ∀ children : List (Child Name Place), usedAlternatives [] children = [] := by
    intro children
    induction children with
    | nil => rfl
    | cons child children ih => exact ih
  rw [checkChoice, hnone, hunused]

mutual

/-- **Where nothing is named and nothing refused, nothing is at fault.** -/
theorem ContentModel.check_eq_nil (m : ContentModel Name) {children : List (Child Name Place)}
    (hnames : m.names = []) (hrefuses : m.refusesChildren = false) :
    m.check parent children = [] := by
  obtain ⟨arrangement, items, bounds⟩ := m
  cases arrangement with
  | choice => exact checkChoice_eq_nil hnames
  | sequence => exact Item.checkAll_eq_nil items hnames hrefuses
  | interleave => exact Item.checkAll_eq_nil items hnames hrefuses
  | group => exact Item.checkAll_eq_nil items hnames hrefuses
  | empty => exact nomatch hrefuses
  | element => rfl
  | text => rfl

theorem Item.checkAll_eq_nil (items : List (Item Name)) {children : List (Child Name Place)}
    (hnames : Item.namesOfAll items = []) (hrefuses : Item.anyRefusesChildren items = false) :
    Item.checkAll parent children items = [] := by
  cases items with
  | nil => rfl
  | cons item items =>
    rw [Item.namesOfAll, List.append_eq_nil_iff] at hnames
    rw [Item.anyRefusesChildren, Bool.or_eq_false_iff] at hrefuses
    rw [Item.checkAll, Item.check_eq_nil item hnames.1 hrefuses.1,
      Item.checkAll_eq_nil items hnames.2 hrefuses.2, List.append_nil]

theorem Item.check_eq_nil (item : Item Name) {children : List (Child Name Place)}
    (hnames : item.names = []) (hrefuses : item.refusesChildren = false) :
    item.check parent children = [] := by
  cases item with
  | element name bounds => exact nomatch hnames
  | text bounds => rfl
  | group content bounds => exact ContentModel.check_eq_nil content hnames hrefuses
  | pattern name bounds => rfl

end

end Models

/-! ### Children of an element -/

variable {Name : Type} [Label Name]

namespace Schema

variable {s : Schema Name}

theorem mem_checkForest_of_mem {parent : Option Text} {t : TagTree} {forest : List TagTree}
    (h : t ∈ forest) {d : Diagnostic Name} (hd : d ∈ s.checkTree parent t) :
    d ∈ s.checkForest parent forest := by
  induction forest with
  | nil => exact nomatch h
  | cons u forest ih =>
    rw [checkForest, List.mem_append]
    rcases List.mem_cons.mp h with rfl | h
    · exact Or.inl hd
    · exact Or.inr (ih h)

/-- What is wrong with an element is reported, however deep it stands. -/
theorem exists_parent_of_isIn {t : TagTree} {forest : List TagTree} (h : t.IsIn forest)
    (outer : Option Text) :
    ∃ parent, ∀ d ∈ s.checkTree parent t, d ∈ s.checkForest outer forest := by
  induction h generalizing outer with
  | root h => exact ⟨outer, fun d hd => mem_checkForest_of_mem h hd⟩
  | @inside name position attributes content closing closingAttributes forest h _ ih =>
    obtain ⟨parent, hcontent⟩ := ih (some name)
    refine ⟨parent, fun d hd => mem_checkForest_of_mem h ?_⟩
    rw [checkTree, List.mem_append, List.mem_append]
    exact Or.inl (Or.inr (hcontent d hd))

/-- What is wrong with an element as it opens is wrong with the element. -/
theorem mem_checkTree_of_mem_openingDefects {parent : Option Text} {t : TagTree}
    {d : Diagnostic Name} (hd : d ∈ s.openingDefects parent t.opening) :
    d ∈ s.checkTree parent t := by
  cases t with
  | selfClosing name position attributes =>
    rw [checkTree]
    exact List.mem_append_left _ hd
  | pair name position attributes content closing closingAttributes =>
    rw [checkTree, List.append_assoc]
    exact List.mem_append_left _ hd

/-- The place of an element in a parent whose model does not have it: it is misplaced, unless the
model has no elements at all. -/
theorem placeDefects_eq [LawfulLabel Name] {name : Text} {m : ContentModel Name}
    (hmodel : s.modelOf? name = some m) {tag : Tag}
    (hnot : Label.ofText tag.name ∉ m.elementNames) :
    s.placeDefects (some name) tag
      = if m.elementNames = [] then [] else [⟨.invalidNesting tag.name name, tag.position⟩] := by
  obtain ⟨spec, hspec, hm⟩ := Option.bind_eq_some_iff.mp hmodel
  have hchildren : spec.children = m.elementNames := by
    obtain ⟨_, _, _, _, _, _, content⟩ := spec
    cases content with
    | model m' =>
      obtain rfl := Option.some.inj hm
      rfl
    | children names => exact nomatch hm
  have helem : m.elementNames.elem (Label.ofText tag.name) = false :=
    Bool.eq_false_iff.mpr (mt (Label.IsText.elem_iff ⟨tag.name, rfl⟩ _).mp hnot)
  simp only [placeDefects, hspec, hchildren, helem, Bool.or_false, List.isEmpty_iff]

/-- **A child that the model does not admit is reported,** as long as the model admits another or
has no room for any. In a well-nested document take an element with a model, at any depth, and a
child of it that is declared and whose name is not in the model. If there are names in the model,
the child is misplaced. If the model has no room for children, that is said at the first of them.
Only a model that does neither tolerates the child: its place is not at fault, and neither are the
children when the parent closes. -/
theorem reports_inadmissible [LawfulLabel Name] (s : Schema Name) {forest : List TagTree}
    {name : Text} {position : Position} {attributes : List Attribute} {content : List TagTree}
    {closing : Position} {closingAttributes : List Attribute}
    (hparent : (TagTree.pair name position attributes content closing closingAttributes).IsIn forest)
    {child : TagTree} (hchild : child ∈ content) {m : ContentModel Name}
    (hmodel : s.modelOf? name = some m) {spec : ElementSpec Name}
    (hspec : s.element? (Label.ofText child.opening.name) = some spec)
    (hnot : Label.ofText child.opening.name ∉ m.elementNames) :
    (m.elementNames ≠ [] →
      ⟨.invalidNesting child.opening.name name, child.opening.position⟩
        ∈ s.checkTags (TagTree.tagsOfAll forest)) ∧
    (m.refusesChildren = true → ∃ first ∈ content.head?,
      ⟨.notEmpty name, first.opening.position⟩ ∈ s.checkTags (TagTree.tagsOfAll forest)) ∧
    (m.elementNames = [] → m.refusesChildren = false →
      s.placeDefects (some name) child.opening = [] ∧
      m.check name (content.map TagTree.child) = []) := by
  obtain ⟨parent, hreported⟩ := exists_parent_of_isIn (s := s) hparent none
  have hplace := placeDefects_eq hmodel hnot
  rw [checkTags_tagsOfAll]
  refine ⟨fun hnames => hreported _ ?_, fun hrefuses => ?_, fun hnames hrefuses => ⟨?_, ?_⟩⟩
  · rw [if_neg hnames] at hplace
    rw [checkTree, List.mem_append, List.mem_append]
    refine Or.inl (Or.inr (mem_checkForest_of_mem hchild (mem_checkTree_of_mem_openingDefects ?_)))
    rw [openingDefects, hspec]
    simp only [hplace]
    exact List.mem_append_left _ (List.mem_singleton_self _)
  · cases content with
    | nil => exact absurd hchild List.not_mem_nil
    | cons first others =>
      refine ⟨first, rfl, hreported _ ?_⟩
      rw [checkTree, List.mem_append, childrenDefects, hmodel]
      have hrefused : (⟨.notEmpty name, first.child.position⟩ : Diagnostic Name)
          ∈ m.check name (first.child :: others.map TagTree.child) :=
        m.notEmpty_mem_check_iff.mpr hrefuses
      exact Or.inr (List.mem_append_left _ hrefused)
  · rw [hplace, if_pos hnames]
  · refine m.check_eq_nil ?_ hrefuses
    rw [ContentModel.elementNames] at hnames
    cases hall : m.names with
    | nil => rfl
    | cons n ns =>
      rw [hall, List.eraseDups_cons] at hnames
      exact absurd hnames (List.cons_ne_nil _ _)

/-- A schema of paragraphs, which hold text, line breaks, which hold nothing, and lists of items. -/
def drafts : Schema Text :=
  Schema.ofElements (Text.ofString "drafts") (Text.ofString "Drafts")
    [⟨Text.ofString "p", none, [], [], [], some .mixed, .model ⟨.text, [], Bounds.once⟩⟩,
      ⟨Text.ofString "lb", none, [], [], [], some .empty, .model ⟨.empty, [], Bounds.never⟩⟩,
      ⟨Text.ofString "list", none, [], [], [], some .sequence,
        .model ⟨.sequence, [.element (Text.ofString "item") Bounds.anyNumber], Bounds.once⟩⟩]

/-- A paragraph where only items may stand, and one where nothing may. -/
theorem reports_inadmissible_drafts :
    (⟨.invalidNesting (Text.ofString "p") (Text.ofString "list"), ⟨1, 7⟩⟩
      ∈ drafts.checkStructure (Text.ofString "<list><p/></list>")) ∧
    ∃ first ∈ [TagTree.selfClosing (Text.ofString "p") ⟨1, 5⟩ []].head?,
      ⟨.notEmpty (Text.ofString "lb"), first.opening.position⟩
        ∈ drafts.checkStructure (Text.ofString "<lb><p/></lb>") := by
  have hlist : Tag.ofText (Text.ofString "<list><p/></list>") = TagTree.tagsOfAll
      [.pair (Text.ofString "list") ⟨1, 1⟩ []
        [.selfClosing (Text.ofString "p") ⟨1, 7⟩ []] ⟨1, 11⟩ []] := by
    decide +kernel
  have hbreak : Tag.ofText (Text.ofString "<lb><p/></lb>") = TagTree.tagsOfAll
      [.pair (Text.ofString "lb") ⟨1, 1⟩ []
        [.selfClosing (Text.ofString "p") ⟨1, 5⟩ []] ⟨1, 9⟩ []] := by
    decide +kernel
  rw [checkStructure, checkStructure, hlist, hbreak]
  exact ⟨(reports_inadmissible drafts (.root (List.mem_singleton_self _))
      (List.mem_singleton_self _) (m := ⟨.sequence, [.element (Text.ofString "item")
        Bounds.anyNumber], Bounds.once⟩) rfl rfl (by decide +kernel)).1 (by decide +kernel),
    (reports_inadmissible drafts (.root (List.mem_singleton_self _))
      (List.mem_singleton_self _) (m := ⟨.empty, [], Bounds.never⟩) rfl rfl
      (by decide +kernel)).2.1 rfl⟩

/-- A model of text alone tolerates any child: a line break in a paragraph is not among the elements
in the paragraph's model, which has no unresolved part, and nothing is reported. -/
theorem tolerates_textOnly :
    Tag.ofText (Text.ofString "<p><lb/></p>") = TagTree.tagsOfAll
      [.pair (Text.ofString "p") ⟨1, 1⟩ []
        [.selfClosing (Text.ofString "lb") ⟨1, 4⟩ []] ⟨1, 9⟩ []] ∧
    drafts.modelOf? (Text.ofString "p") = some ⟨.text, [], Bounds.once⟩ ∧
    (drafts.element? (Label.ofText (Text.ofString "lb"))).isSome = true ∧
    Label.ofText (Text.ofString "lb")
      ∉ (⟨.text, [], Bounds.once⟩ : ContentModel Text).elementNames ∧
    drafts.checkStructure (Text.ofString "<p><lb/></p>") = [] := by
  have htags : Tag.ofText (Text.ofString "<p><lb/></p>") = TagTree.tagsOfAll
      [.pair (Text.ofString "p") ⟨1, 1⟩ []
        [.selfClosing (Text.ofString "lb") ⟨1, 4⟩ []] ⟨1, 9⟩ []] := by
    decide +kernel
  have hparagraph : drafts.attributesOf (Label.ofText (Text.ofString "p")) = [] := by cbv
  have hbreak : drafts.attributesOf (Label.ofText (Text.ofString "lb")) = [] := by cbv
  refine ⟨htags, rfl, rfl, by decide +kernel, ?_⟩
  rw [checkStructure, htags, checkTags_tagsOfAll, ← List.isEmpty_iff]
  simp only [checkForest, checkTree, openingDefects, checkAttributes, hparagraph,
    hbreak]
  decide +kernel

end Schema

end MarkupGrammar
