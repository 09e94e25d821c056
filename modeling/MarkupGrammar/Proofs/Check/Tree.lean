import MarkupGrammar.Check.Report
import MarkupGrammar.Proofs.Check.Conformance

/-!
# The check of a tree

The structural check is one pass with a stack of open elements, each with the children met so far.
On tags that are well nested it computes something that needs no stack: a recursion over the
elements as a forest. Every element is checked against its parent and for its attributes when it
opens, then its content is checked, then its children, all of them and in order.

## Main definitions

* `TagTree` — an element as its tags delimit it, and `WellNested` tags, which are those of a forest
* `Schema.checkTree`, `Schema.checkForest` — the recursion, in terms of the schema and names alone

## How the two meet

`walk_tags_append` says what the pass does with the tags of one tree, whatever is open and whatever
tags follow: it reports what the recursion reports and leaves the stack as it was, with the tree
recorded as one more child of the innermost element. The invariant is `OpenTags.IsOf`, that an open
element carries the definition of its own name.

## Main results

* `walk_tags_append`, `walk_tagsOfAll_append` — the pass over a tree and over a forest
* `checkStructure_eq_checkForest` — the check of a well-nested document is the recursion
-/

namespace MarkupGrammar

/-- An element as its tags delimit it: a tag that closes itself, or a pair of tags of one name with
elements between them. A closing tag's position and attributes are kept and never looked at. -/
inductive TagTree where
  | selfClosing (name : Text) (position : Position) (attributes : List Attribute)
  | pair (name : Text) (position : Position) (attributes : List Attribute)
      (content : List TagTree) (closing : Position) (closingAttributes : List Attribute)

namespace TagTree

/-- The tag with which the element begins. -/
def opening : TagTree → Tag
  | selfClosing name position attributes => ⟨.selfClosing, name, position, attributes⟩
  | pair name position attributes _ _ _ => ⟨.opening, name, position, attributes⟩

mutual

/-- The tags of an element, in order. -/
def tags : TagTree → List Tag
  | selfClosing name position attributes => [⟨.selfClosing, name, position, attributes⟩]
  | pair name position attributes content closing closingAttributes =>
    ⟨.opening, name, position, attributes⟩ ::
      (tagsOfAll content ++ [⟨.closing, name, closing, closingAttributes⟩])

/-- The tags of a forest, in order. -/
def tagsOfAll : List TagTree → List Tag
  | [] => []
  | t :: ts => t.tags ++ tagsOfAll ts

end

end TagTree

/-- Tags are well nested when they are those of a forest. -/
def WellNested (tags : List Tag) : Prop := ∃ forest, tags = TagTree.tagsOfAll forest

variable {Name : Type} [Label Name]

/-- The element as a child of the one it stands in. -/
def TagTree.child (t : TagTree) : Child Name := ⟨Label.ofText t.opening.name, t.opening.position⟩

/-! ### The recursion -/

namespace Schema

/-- The content model of the element of a name, if it is defined and has one. -/
def modelOf? (s : Schema Name) (name : Text) : Option (ContentModel Name) :=
  (s.element? (Label.ofText name)).bind ElementSpec.model?

/-- A misplaced element: its parent is defined and admits some children, but not this one. -/
def placeDefects (s : Schema Name) (parent : Option Text) (tag : Tag) : List (Diagnostic Name) :=
  match parent with
  | none => []
  | some name =>
    match s.element? (Label.ofText name) with
    | none => []
    | some spec =>
      if spec.children.isEmpty || spec.children.elem (Label.ofText tag.name) then []
      else [⟨.invalidNesting tag.name name, tag.position⟩]

/-- What is wrong with an element as it opens: it is not defined, or else first its place and then
its attributes. -/
def openingDefects (s : Schema Name) (parent : Option Text) (tag : Tag) : List (Diagnostic Name) :=
  match s.element? (Label.ofText tag.name) with
  | none => [⟨.unknownElement tag.name, tag.position⟩]
  | some _ => s.placeDefects parent tag ++ s.checkAttributes tag

/-- An element that closes itself and needs children, though its model is not the empty one. -/
def selfClosingDefects (s : Schema Name) (name : Text) (position : Position) :
    List (Diagnostic Name) :=
  match s.modelOf? name with
  | none => []
  | some m =>
    if m.arrangement = .empty ∨ m.requiredChildren = [] then []
    else [⟨.selfClosing name m.requiredChildren, position⟩]

/-- What is wrong with the children of an element: how they conform to its model, then each required
one that is not among them. -/
def childrenDefects (s : Schema Name) (name : Text) (position : Position)
    (children : List (Child Name)) : List (Diagnostic Name) :=
  match s.modelOf? name with
  | none => []
  | some m =>
    m.check name children
      ++ (m.requiredChildren.filter fun r => children.all fun c => !(c.name == r)).map
        fun r => ⟨.missingChild name r, position⟩

mutual

/-- The defects of an element inside another, from its opening to its end. -/
def checkTree (s : Schema Name) (parent : Option Text) : TagTree → List (Diagnostic Name)
  | .selfClosing name position attributes =>
    s.openingDefects parent ⟨.selfClosing, name, position, attributes⟩
      ++ s.selfClosingDefects name position
  | .pair name position attributes content _ _ =>
    s.openingDefects parent ⟨.opening, name, position, attributes⟩
      ++ checkForest s (some name) content
      ++ s.childrenDefects name position (content.map TagTree.child)

/-- The defects of the elements of a forest, one element after the other. -/
def checkForest (s : Schema Name) (parent : Option Text) : List TagTree → List (Diagnostic Name)
  | [] => []
  | t :: ts => checkTree s parent t ++ checkForest s parent ts

end

end Schema

/-! ### What is open -/

namespace OpenTags

/-- Every open element carries the definition that the schema has for its name. -/
def IsOf (s : Schema Name) (stack : OpenTags Name) : Prop :=
  ∀ frame ∈ stack, frame.spec = s.element? (Label.ofText frame.name)

/-- The name of the innermost open element. -/
def innermost (stack : OpenTags Name) : Option Text := stack.head?.map OpenTag.name

/-- Records children of the innermost element, one after the other. -/
def addChildren (stack : OpenTags Name) (forest : List TagTree) : OpenTags Name :=
  forest.foldl (fun stack t => stack.addChild t.opening) stack

variable {s : Schema Name}

theorem isOf_nil : IsOf s [] := fun _ h => nomatch h

theorem IsOf.addChild {stack : OpenTags Name} (h : stack.IsOf s) (tag : Tag) :
    (stack.addChild tag).IsOf s := by
  cases stack with
  | nil => exact h
  | cons frame frames =>
    intro f hf
    rcases List.mem_cons.mp hf with rfl | hf
    · exact h frame List.mem_cons_self
    · exact h f (List.mem_cons_of_mem _ hf)

theorem IsOf.push {stack : OpenTags Name} (h : stack.IsOf s) (name : Text) (position : Position)
    (children : List (Child Name)) :
    IsOf s (⟨name, position, s.element? (Label.ofText name), children⟩ :: stack) := by
  intro f hf
  rcases List.mem_cons.mp hf with rfl | hf
  · rfl
  · exact h f hf

theorem innermost_addChild (stack : OpenTags Name) (tag : Tag) :
    (stack.addChild tag).innermost = stack.innermost := by
  cases stack <;> rfl

theorem addChildren_cons (frame : OpenTag Name) (stack : OpenTags Name) (forest : List TagTree) :
    addChildren (frame :: stack) forest
      = { frame with
          reversedChildren := (forest.map TagTree.child).reverse ++ frame.reversedChildren }
        :: stack := by
  induction forest generalizing frame with
  | nil => rfl
  | cons t ts ih =>
    rw [addChildren, List.foldl_cons]
    exact (ih _).trans (by simp [TagTree.child])

end OpenTags

/-! ### The pass over a tree -/

namespace Schema

variable {s : Schema Name}

theorem checkNesting_eq {stack : OpenTags Name} (h : stack.IsOf s) (tag : Tag) :
    checkNesting stack.head? tag = s.placeDefects stack.innermost tag := by
  cases stack with
  | nil => rfl
  | cons frame frames =>
    have hframe : frame.spec = s.element? (Label.ofText frame.name) := h frame List.mem_cons_self
    cases hspec : s.element? (Label.ofText frame.name) <;>
      simp only [checkNesting, placeDefects, OpenTags.innermost, List.head?_cons, Option.map_some,
        hframe, hspec]

theorem checkOpening_eq {stack : OpenTags Name} (h : stack.IsOf s) (tag : Tag) :
    s.checkOpening stack.head? tag = s.openingDefects stack.innermost tag := by
  cases hspec : s.element? (Label.ofText tag.name) <;>
    simp only [checkOpening, openingDefects, hspec, checkNesting_eq h]

theorem checkSelfClosing_eq (s : Schema Name) (tag : Tag) :
    checkSelfClosing (s.element? (Label.ofText tag.name)) tag
      = s.selfClosingDefects tag.name tag.position := by
  rw [checkSelfClosing, selfClosingDefects, modelOf?]
  cases (s.element? (Label.ofText tag.name)).bind ElementSpec.model? with
  | none => rfl
  | some m =>
    by_cases he : m.arrangement = .empty
    · simp [he]
    · cases hr : m.requiredChildren <;> simp [he, hr]

theorem checkClosing_eq (s : Schema Name) (name : Text) (position : Position)
    (children : List (Child Name)) :
    checkClosing ⟨name, position, s.element? (Label.ofText name), children.reverse⟩
      = s.childrenDefects name position children := by
  rw [checkClosing, childrenDefects, modelOf?]
  cases (s.element? (Label.ofText name)).bind ElementSpec.model? with
  | none => rfl
  | some m => simp [List.not_any_eq_all_not]

/-- One tag that closes the innermost element. -/
theorem step_closing (s : Schema Name) (stack : OpenTags Name) (name : Text) (position : Position)
    (children : List (Child Name)) (closing : Position) (attributes : List Attribute) :
    s.step (⟨name, position, s.element? (Label.ofText name), children.reverse⟩ :: stack)
        ⟨.closing, name, closing, attributes⟩
      = (stack, s.childrenDefects name position children) := by
  rw [← checkClosing_eq, step]
  simp only [OpenTags.closeTo, if_true]

mutual

/-- **The pass over one tree.** Whatever is open and whatever follows, the tags of a tree give what
the recursion gives, and leave the tree as one more child of the innermost element. -/
theorem walk_tags_append (stack : OpenTags Name) (h : stack.IsOf s) (t : TagTree)
    (rest : List Tag) :
    s.walk stack (t.tags ++ rest)
      = s.checkTree stack.innermost t ++ s.walk (stack.addChild t.opening) rest := by
  cases t with
  | selfClosing name position attributes =>
    rw [TagTree.tags, List.singleton_append, walk, checkTree, ← checkOpening_eq h,
      ← checkSelfClosing_eq s ⟨.selfClosing, name, position, attributes⟩]
    rfl
  | pair name position attributes content closing closingAttributes =>
    have hframe := (h.addChild ⟨.opening, name, position, attributes⟩).push name position []
    have hopen : s.step stack ⟨.opening, name, position, attributes⟩
        = (⟨name, position, s.element? (Label.ofText name), []⟩
            :: stack.addChild ⟨.opening, name, position, attributes⟩,
          s.openingDefects stack.innermost ⟨.opening, name, position, attributes⟩) := by
      rw [← checkOpening_eq h]
      rfl
    have hclose := step_closing s (stack.addChild ⟨.opening, name, position, attributes⟩) name
      position (content.map TagTree.child) closing closingAttributes
    rw [TagTree.tags, List.cons_append, List.append_assoc, List.singleton_append, walk, hopen,
      walk_tagsOfAll_append _ hframe content, OpenTags.addChildren_cons, List.append_nil, walk,
      hclose, checkTree]
    simp only [List.append_assoc]
    rfl

/-- **The pass over a forest.** -/
theorem walk_tagsOfAll_append (stack : OpenTags Name) (h : stack.IsOf s) (ts : List TagTree)
    (rest : List Tag) :
    s.walk stack (TagTree.tagsOfAll ts ++ rest)
      = s.checkForest stack.innermost ts ++ s.walk (stack.addChildren ts) rest := by
  cases ts with
  | nil => rfl
  | cons t ts =>
    rw [TagTree.tagsOfAll, List.append_assoc, walk_tags_append stack h t,
      walk_tagsOfAll_append _ (h.addChild t.opening) ts, OpenTags.innermost_addChild, checkForest,
      List.append_assoc]
    rfl

end

end Schema

/-! ### Nothing is left open -/

/-- None of the diagnostics says that an element is not closed. -/
def NoneUnclosed (ds : List (Diagnostic Name)) : Prop :=
  ∀ d ∈ ds, ∀ name, d.finding ≠ .unclosed name

section NoneUnclosed

omit [Label Name]

theorem noneUnclosed_nil : NoneUnclosed ([] : List (Diagnostic Name)) := fun _ hd => nomatch hd

theorem noneUnclosed_singleton {d : Diagnostic Name} (h : ∀ name, d.finding ≠ .unclosed name) :
    NoneUnclosed [d] := by
  intro e he
  obtain rfl := List.mem_singleton.mp he
  exact h

theorem NoneUnclosed.append {ds es : List (Diagnostic Name)} (hd : NoneUnclosed ds)
    (he : NoneUnclosed es) : NoneUnclosed (ds ++ es) := fun d h =>
  (List.mem_append.mp h).elim (hd d) (he d)

end NoneUnclosed

namespace Schema

theorem noneUnclosed_checkAttribute (declared : List (AttributeSpec Name)) (tag : Tag)
    (a : Attribute) : NoneUnclosed (checkAttribute declared tag a) := by
  unfold checkAttribute
  split
  · exact noneUnclosed_nil
  · split
    · exact noneUnclosed_singleton nofun
    · split
      · split
        · exact noneUnclosed_nil
        · exact noneUnclosed_singleton nofun
      · exact noneUnclosed_nil

theorem noneUnclosed_checkAttributes (s : Schema Name) (tag : Tag) :
    NoneUnclosed (s.checkAttributes tag) := by
  refine NoneUnclosed.append (fun d hd => ?_) fun d hd name => ?_
  · obtain ⟨a, -, hd⟩ := List.mem_flatMap.mp hd
    exact noneUnclosed_checkAttribute _ tag a d hd
  · obtain ⟨a, -, rfl⟩ := List.mem_map.mp hd
    exact nofun

theorem noneUnclosed_placeDefects (s : Schema Name) (parent : Option Text) (tag : Tag) :
    NoneUnclosed (s.placeDefects parent tag) := by
  unfold placeDefects
  split
  · exact noneUnclosed_nil
  · split
    · exact noneUnclosed_nil
    · split
      · exact noneUnclosed_nil
      · exact noneUnclosed_singleton nofun

theorem noneUnclosed_openingDefects (s : Schema Name) (parent : Option Text) (tag : Tag) :
    NoneUnclosed (s.openingDefects parent tag) := by
  unfold openingDefects
  split
  · exact noneUnclosed_singleton nofun
  · exact (noneUnclosed_placeDefects s parent tag).append (noneUnclosed_checkAttributes s tag)

theorem noneUnclosed_selfClosingDefects (s : Schema Name) (name : Text) (position : Position) :
    NoneUnclosed (s.selfClosingDefects name position) := by
  unfold selfClosingDefects
  split
  · exact noneUnclosed_nil
  · split
    · exact noneUnclosed_nil
    · exact noneUnclosed_singleton nofun

theorem noneUnclosed_childrenDefects (s : Schema Name) (name : Text) (position : Position)
    (children : List (Child Name)) : NoneUnclosed (s.childrenDefects name position children) := by
  unfold childrenDefects
  split
  · exact noneUnclosed_nil
  · next m _ =>
    refine NoneUnclosed.append (fun d hd other hu => ?_) fun d hd other => ?_
    · have hkind := m.isConformance_of_mem_check hd
      rw [hu] at hkind
      exact Bool.noConfusion hkind
    · obtain ⟨r, -, rfl⟩ := List.mem_map.mp hd
      exact nofun

mutual

theorem noneUnclosed_checkTree (s : Schema Name) (parent : Option Text) (t : TagTree) :
    NoneUnclosed (s.checkTree parent t) := by
  cases t with
  | selfClosing name position attributes =>
    exact (noneUnclosed_openingDefects s parent _).append
      (noneUnclosed_selfClosingDefects s name position)
  | pair name position attributes content closing closingAttributes =>
    exact ((noneUnclosed_openingDefects s parent _).append
      (noneUnclosed_checkForest s (some name) content)).append
        (noneUnclosed_childrenDefects s name position _)

theorem noneUnclosed_checkForest (s : Schema Name) (parent : Option Text) (ts : List TagTree) :
    NoneUnclosed (s.checkForest parent ts) := by
  cases ts with
  | nil => exact noneUnclosed_nil
  | cons t ts =>
    exact (noneUnclosed_checkTree s parent t).append (noneUnclosed_checkForest s parent ts)

end

/-- The pass over well-nested tags, with nothing open before: nothing is open at the end. -/
theorem checkTags_tagsOfAll (s : Schema Name) (forest : List TagTree) :
    s.checkTags (TagTree.tagsOfAll forest) = s.checkForest none forest := by
  have hempty : ∀ ts : List TagTree, OpenTags.addChildren ([] : OpenTags Name) ts = [] := by
    intro ts
    induction ts with
    | nil => rfl
    | cons t ts ih => exact ih
  have hwalk := walk_tagsOfAll_append [] (OpenTags.isOf_nil (s := s)) forest []
  rw [List.append_nil, hempty] at hwalk
  exact hwalk.trans (List.append_nil _)

/-- **On well-nested tags the pass is the recursion.** When the tags of a document are those of a
forest, the structural check reports what the recursion over the forest reports, in the same order,
and so it does in words, up to any limits. Nothing is reported as not closed. -/
theorem checkStructure_eq_checkForest (s : Schema Name) (limits : PreviewLimits) {document : Text}
    {forest : List TagTree} (h : Tag.ofText document = TagTree.tagsOfAll forest) :
    s.checkStructure document = s.checkForest none forest ∧
      (Validation.checked (s.checkStructure document)).reports limits
        = (s.checkForest none forest).mapM (Diagnostic.report limits) ∧
      NoneUnclosed (s.checkStructure document) := by
  have hcheck : s.checkStructure document = s.checkForest none forest := by
    rw [checkStructure, h, checkTags_tagsOfAll]
  refine ⟨hcheck, ?_, ?_⟩
  · rw [hcheck]
    rfl
  · rw [hcheck]
    exact noneUnclosed_checkForest s none forest

/-- A schema of one element, a list that has to have a head and an item. -/
def lists : Schema Text :=
  Schema.ofElements (Text.ofString "lists") (Text.ofString "Lists")
    [⟨Text.ofString "list", none, [], [], [], some .sequence,
      .model ⟨.sequence, [.element (Text.ofString "head") Bounds.once,
        .element (Text.ofString "item") Bounds.oneOrMore], Bounds.once⟩⟩]

/-- A list with an item, and no head. -/
def headless : TagTree :=
  .pair (Text.ofString "list") ⟨1, 1⟩ [] [.selfClosing (Text.ofString "item") ⟨1, 7⟩ []] ⟨1, 14⟩ []

theorem checkStructure_headless :
    Tag.ofText (Text.ofString "<list><item/></list>") = TagTree.tagsOfAll [headless] ∧
      lists.checkStructure (Text.ofString "<list><item/></list>")
        = lists.checkForest none [headless] := by
  have h : Tag.ofText (Text.ofString "<list><item/></list>") = TagTree.tagsOfAll [headless] := by
    decide +kernel
  exact ⟨h, (checkStructure_eq_checkForest lists PreviewLimits.standard h).1⟩

end Schema

end MarkupGrammar
