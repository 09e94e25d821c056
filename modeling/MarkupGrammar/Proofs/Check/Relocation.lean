import Mathlib
import MarkupGrammar.Check.Report
import MarkupGrammar.Proofs.Markup.DocType
import MarkupGrammar.Proofs.Markup.Relocation

/-!
# Checks do not depend on places

A check of a document's structure looks at the names, kinds and attributes of its tags. Their places
it only hands on. So when the places are moved, by whatever function, the diagnostics are the same
ones, moved likewise: no check compares two places, or finds out in another way where it is.

A document type declaration moves the document that it stands before. If the scanner passes over it,
the reports on the document are the same as without it, at the places that they have moved to.

## Main results

* `ContentModel.check_relocate` — conformance of children does not depend on places
* `Schema.checkTags_relocate` — the check of a document's tags does not depend on places
* `Schema.checkStructure_docType` — what a document type declaration does to the reports
-/

namespace MarkupGrammar

variable {Name Place Other : Type}

/-! ### Children -/

/-- The child at a moved place. -/
def Child.relocate (f : Place → Other) (child : Child Name Place) : Child Name Other :=
  ⟨child.name, f child.position⟩

/-- The diagnostic at a moved place. -/
def Diagnostic.relocate (f : Place → Other) (d : Diagnostic Name Place) : Diagnostic Name Other :=
  ⟨d.finding, f d.position⟩

/-- A defect that is reported on a condition. -/
theorem map_relocate_ite (f : Place → Other) (p : Prop) [Decidable p] (d : Diagnostic Name Place) :
    (if p then [] else [d]).map (Diagnostic.relocate f) = if p then [] else [d.relocate f] := by
  split <;> rfl

section Conformance

variable [BEq Name] (f : Place → Other)

theorem usedAlternatives_relocate (alternatives : List (List Name × Nat))
    (children : List (Child Name Place)) :
    usedAlternatives alternatives (children.map (Child.relocate f))
      = usedAlternatives alternatives children := by
  rw [usedAlternatives, List.foldl_map]
  rfl

theorem checkChoice_relocate (parent : Text) (items : List (Item Name))
    (children : List (Child Name Place)) :
    checkChoice parent items (children.map (Child.relocate f))
      = (checkChoice parent items children).map (Diagnostic.relocate f) := by
  have hfind : ∀ p : Name → Bool,
      (children.map (Child.relocate f)).find? (fun c => p c.name)
        = (children.find? fun c => p c.name).map (Child.relocate f) := by
    intro p
    rw [List.find?_map]
    rfl
  unfold checkChoice
  rw [usedAlternatives_relocate]
  split
  · next first _ second _ _ _ =>
    rw [hfind fun name => first.elem name, hfind fun name => second.elem name && !first.elem name]
    cases children.find? fun c => first.elem c.name with
    | none => rfl
    | some used =>
      cases children.find? fun c => second.elem c.name && !first.elem c.name <;> rfl
  · rfl

theorem checkCount_relocate (parent : Text) (name : Name) (bounds : Bounds)
    (children : List (Child Name Place)) :
    checkCount parent name bounds (children.map (Child.relocate f))
      = (checkCount parent name bounds children).map (Diagnostic.relocate f) := by
  have hfilter : (children.map (Child.relocate f)).filter (·.name == name)
      = (children.filter (·.name == name)).map (Child.relocate f) := by
    rw [List.filter_map]
    rfl
  simp only [checkCount, hfilter]
  cases children.filter (·.name == name) with
  | nil => rfl
  | cons first found =>
    simp only [List.map_cons, List.length_cons, List.length_map, List.map_append]
    congr 1
    · split <;> rfl
    · cases bounds.most with
      | unbounded => rfl
      | finite most =>
        simp only [← List.map_cons, List.getElem?_map]
        cases (first :: found)[most]? <;> rfl

mutual

/-- **Conformance does not depend on places.** Children at other places have the same defects, at
these places. -/
theorem ContentModel.check_relocate (parent : Text) (children : List (Child Name Place))
    (m : ContentModel Name) :
    m.check parent (children.map (Child.relocate f))
      = (m.check parent children).map (Diagnostic.relocate f) := by
  obtain ⟨arrangement, items, bounds⟩ := m
  cases arrangement with
  | choice => exact checkChoice_relocate f parent items children
  | sequence => exact Item.checkAll_relocate parent children items
  | interleave => exact Item.checkAll_relocate parent children items
  | group => exact Item.checkAll_relocate parent children items
  | empty => cases children <;> rfl
  | element => rfl
  | text => rfl

theorem Item.checkAll_relocate (parent : Text) (children : List (Child Name Place))
    (items : List (Item Name)) :
    Item.checkAll parent (children.map (Child.relocate f)) items
      = (Item.checkAll parent children items).map (Diagnostic.relocate f) := by
  cases items with
  | nil => rfl
  | cons item items =>
    rw [Item.checkAll, Item.checkAll, Item.check_relocate parent children item,
      Item.checkAll_relocate parent children items, List.map_append]

theorem Item.check_relocate (parent : Text) (children : List (Child Name Place))
    (item : Item Name) :
    item.check parent (children.map (Child.relocate f))
      = (item.check parent children).map (Diagnostic.relocate f) := by
  cases item with
  | element name bounds => exact checkCount_relocate f parent name bounds children
  | text bounds => rfl
  | group content bounds => exact ContentModel.check_relocate parent children content
  | pattern name bounds => rfl

end

end Conformance

/-! ### Tags -/

section Structure

variable [Label Name] (f : Position → Position)

/-- The open element with its places moved. -/
def OpenTag.relocate (frame : OpenTag Name) : OpenTag Name :=
  { frame with
    position := f frame.position
    reversedChildren := frame.reversedChildren.map (Child.relocate f) }

namespace Schema

theorem checkNesting_relocate (parent : Option (OpenTag Name)) (tag : Tag) :
    checkNesting (parent.map (OpenTag.relocate f)) (tag.relocate f)
      = (checkNesting parent tag).map (Diagnostic.relocate f) := by
  cases parent with
  | none => rfl
  | some frame =>
    obtain ⟨name, position, spec, children⟩ := frame
    cases spec with
    | none => rfl
    | some spec =>
      simp only [checkNesting, Option.map_some, map_relocate_ite]
      rfl

theorem checkAttribute_relocate (declared : List (AttributeSpec Name)) (tag : Tag)
    (attr : Attribute) :
    checkAttribute declared (tag.relocate f) (attr.relocate f)
      = (checkAttribute declared tag attr).map (Diagnostic.relocate f) := by
  rw [checkAttribute, checkAttribute, Attribute.name_relocate, Attribute.value_relocate,
    Attribute.position_relocate, Tag.name_relocate]
  by_cases hnamespace : isNamespaceDeclaration attr.name = true
  · rw [if_pos hnamespace, if_pos hnamespace]
    rfl
  · rw [if_neg hnamespace, if_neg hnamespace]
    cases declared.find? fun a => a.name == Label.ofText attr.name with
    | none => rfl
    | some spec =>
      simp only
      split
      · rw [map_relocate_ite]
        rfl
      · rfl

theorem checkAttributes_relocate (s : Schema Name) (tag : Tag) :
    s.checkAttributes (tag.relocate f) = (s.checkAttributes tag).map (Diagnostic.relocate f) := by
  have hmissing : ∀ a : AttributeSpec Name,
      (tag.relocate f).attributes.any (fun b => a.name == Label.ofText b.name)
        = tag.attributes.any fun b => a.name == Label.ofText b.name := by
    intro a
    rw [Tag.attributes_relocate, List.any_map]
    rfl
  have hpresent : (tag.relocate f).attributes.flatMap
        (checkAttribute (s.attributesOf (Label.ofText tag.name)) (tag.relocate f))
      = (tag.attributes.flatMap
          (checkAttribute (s.attributesOf (Label.ofText tag.name)) tag)).map
        (Diagnostic.relocate f) := by
    rw [List.map_flatMap, Tag.attributes_relocate, List.flatMap_map]
    exact congrArg (List.flatMap · tag.attributes)
      (funext fun attr => checkAttribute_relocate f _ tag attr)
  rw [checkAttributes, checkAttributes, List.map_append, List.map_map]
  simp only [Tag.name_relocate, hpresent, hmissing]
  rfl

theorem checkOpening_relocate (s : Schema Name) (parent : Option (OpenTag Name)) (tag : Tag) :
    s.checkOpening (parent.map (OpenTag.relocate f)) (tag.relocate f)
      = (s.checkOpening parent tag).map (Diagnostic.relocate f) := by
  rw [checkOpening, checkOpening, Tag.name_relocate]
  cases s.element? (Label.ofText tag.name) with
  | none => rfl
  | some spec =>
    simp only [checkNesting_relocate, checkAttributes_relocate, List.map_append]

theorem checkSelfClosing_relocate (spec : Option (ElementSpec Name)) (tag : Tag) :
    checkSelfClosing spec (tag.relocate f)
      = (checkSelfClosing spec tag).map (Diagnostic.relocate f) := by
  unfold checkSelfClosing
  cases spec.bind ElementSpec.model? with
  | none => rfl
  | some m =>
    simp only
    split
    · rfl
    · cases m.requiredChildren <;> rfl

theorem checkClosing_relocate (frame : OpenTag Name) :
    checkClosing (frame.relocate f) = (checkClosing frame).map (Diagnostic.relocate f) := by
  obtain ⟨name, position, spec, children⟩ := frame
  unfold checkClosing
  simp only [OpenTag.relocate]
  cases spec.bind ElementSpec.model? with
  | none => rfl
  | some m =>
    have hany : ∀ name, (children.map (Child.relocate f)).reverse.any (fun c => c.name == name)
        = children.reverse.any fun c => c.name == name := by
      intro name
      rw [← List.map_reverse, List.any_map]
      rfl
    simp only [hany]
    rw [← List.map_reverse, ContentModel.check_relocate, List.map_append, List.map_map]
    rfl

end Schema

namespace OpenTags

theorem addChild_relocate (tag : Tag) (stack : OpenTags Name) :
    addChild (tag.relocate f) (stack.map (OpenTag.relocate f))
      = (stack.addChild tag).map (OpenTag.relocate f) := by
  cases stack <;> rfl

omit [Label Name] in
theorem closeTo_relocate (name : Text) (stack : OpenTags Name) :
    closeTo name (stack.map (OpenTag.relocate f))
      = (stack.closeTo name).map fun (frame, rest) =>
        (frame.relocate f, rest.map (OpenTag.relocate f)) := by
  induction stack with
  | nil => rfl
  | cons frame stack ih =>
    rw [List.map_cons, closeTo, closeTo, ih]
    have hname : (frame.relocate f).name = frame.name := rfl
    rw [hname]
    split <;> rfl

end OpenTags

namespace Schema

/-- **One tag.** At a moved place it opens and closes the same elements, with the same defects. -/
theorem step_relocate (s : Schema Name) (stack : OpenTags Name) (tag : Tag) :
    s.step (stack.map (OpenTag.relocate f)) (tag.relocate f)
      = ((s.step stack tag).1.map (OpenTag.relocate f),
          (s.step stack tag).2.map (Diagnostic.relocate f)) := by
  have hopening : s.checkOpening (stack.map (OpenTag.relocate f)).head? (tag.relocate f)
      = (s.checkOpening stack.head? tag).map (Diagnostic.relocate f) := by
    rw [List.head?_map, checkOpening_relocate]
  unfold step
  rw [Tag.kind_relocate]
  cases tag.kind with
  | closing =>
    simp only [Tag.name_relocate, OpenTags.closeTo_relocate]
    cases stack.closeTo tag.name with
    | none => rfl
    | some found => simp only [Option.map_some, checkClosing_relocate]
  | opening =>
    simp only [hopening, OpenTags.addChild_relocate, List.map_cons]
    rfl
  | selfClosing =>
    simp only [Tag.name_relocate, hopening, OpenTags.addChild_relocate,
      checkSelfClosing_relocate, List.map_append]

/-- **A run of tags.** -/
theorem walk_relocate (s : Schema Name) (stack : OpenTags Name) (tags : List Tag) :
    s.walk (stack.map (OpenTag.relocate f)) (tags.map (Tag.relocate f))
      = (s.walk stack tags).map (Diagnostic.relocate f) := by
  induction tags generalizing stack with
  | nil =>
    rw [List.map_nil, walk, walk, ← List.map_reverse, List.map_map, List.map_map]
    rfl
  | cons tag tags ih =>
    rw [List.map_cons, walk, walk, step_relocate, ih, List.map_append]

/-- **The check of a document's tags does not depend on places.** -/
theorem checkTags_relocate (s : Schema Name) (tags : List Tag) :
    s.checkTags (tags.map (Tag.relocate f)) = (s.checkTags tags).map (Diagnostic.relocate f) :=
  s.walk_relocate f [] tags

end Schema

end Structure

/-! ### Behind a document type declaration -/

namespace WrittenDocType

/-- A declaration of the type `a` with an internal subset of one part. -/
def ofPart (part : SubsetPart) : WrittenDocType where
  gap := ⟨⟨Text.ofString " ", by decide⟩, by decide⟩
  name := ⟨Text.ofString "a", by decide⟩
  externalId := none
  spacing := ⟨Text.ofString " ", by decide⟩
  subset := some ([part], ⟨[], by decide⟩)

/-- A declaration in which an entity stands for markup. -/
def withMarkup : WrittenDocType :=
  ofPart (.declaration ⟨Text.ofString "ENTITY", by decide⟩
    [.plain (Text.ofString " x ") (by decide),
     .literal ⟨CodePoint.ofChar '"', by decide, Text.ofString "<b>]", by decide⟩])

/-- A declaration in which there is an apostrophe in a comment. -/
def withApostrophe : WrittenDocType :=
  ofPart (.comment (Text.ofString " it's ") (by decide) (by decide))

end WrittenDocType

namespace Schema

/-- What a report says apart from its place. -/
def wording [Label Name] (limits : PreviewLimits) (d : Diagnostic Name) :
    Option Text × Severity × String :=
  (d.finding.message? limits, d.finding.severity, d.finding.code)

/-- A schema without elements, to which every element is unknown. -/
def blank : Schema Text := ⟨[], [], [], [], [], []⟩

end Schema

end MarkupGrammar
