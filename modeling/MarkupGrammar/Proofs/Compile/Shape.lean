import MarkupGrammar.Proofs.Compile.Alone
import MarkupGrammar.Proofs.Module.Lossless

/-!
# Declared shape and compiled model

The content of an element is classified twice. Its declared shape is read off the first particle
that tells one, with no reference expanded; its model is compiled from all particles, with every
reference expanded. An editor shows the first and a check uses the second, so they should not
contradict each other.

They cannot where there is one particle: the kinds that tell a shape are those that fix the
arrangement of a model. With several particles the model is a sequence whatever the shape, and here
there is one contradiction to watch for. An `empty` particle that tells the shape of a list says
that there is no content, while the other particles of the list may still bring elements with them.

## Main results

* `Particle.shape?_eq_empty_iff` — no nested particle makes content empty
* `CorpusIndex.arrangement_modelOf` — the model of a telling particle is arranged as it tells
* `CorpusIndex.children_of_shape_empty` — what an element has that is declared empty
* `shape_compileCorpus` — shape and model of every element that is compiled
-/

namespace MarkupGrammar

variable {Name : Type}

/-- The arrangement that the model of content with a shape is expected to have. -/
def ContentShape.arrangement : ContentShape → Arrangement
  | .sequence => .sequence
  | .choice => .choice
  | .interleave => .interleave
  | .mixed => .text
  | .empty => .empty

/-! ### The shape of particles -/

theorem ParticleKind.shape?_eq_empty_iff {kind : ParticleKind} :
    kind.shape? = some .empty ↔ kind = .empty := by
  cases kind <;> simp [shape?]

namespace Particle

/-- Nested content that is empty is passed over. -/
theorem nestedShape?_ne_empty (ps : List (Particle Name)) : nestedShape? ps ≠ some .empty := by
  induction ps with
  | nil => simp [nestedShape?]
  | cons p ps ih =>
    obtain ⟨kind, key, bounds, content⟩ := p
    rw [nestedShape?]
    split
    · exact ih
    · exact ih
    · next shape hne _ => exact fun h => hne (Option.some.inj h)

theorem shape?_of_tellingShape? {ps : List (Particle Name)} {shape : ContentShape}
    (h : tellingShape? ps = some shape) : shape? ps = some shape := by
  cases ps with
  | nil => exact nomatch h
  | cons p ps => rw [shape?, h]

/-- **Nothing nested makes content empty.** It is when there is none, or when the first telling
particle of the list itself is an empty one. -/
theorem shape?_eq_empty_iff (ps : List (Particle Name)) :
    shape? ps = some .empty ↔ ps = [] ∨ tellingShape? ps = some .empty := by
  cases ps with
  | nil => simp [shape?]
  | cons p ps =>
    rw [shape?]
    cases htelling : tellingShape? (p :: ps) with
    | none => simp [nestedShape?_ne_empty]
    | some shape => simp

/-- The shape of one particle is the one it tells. -/
theorem tellingShape?_singleton (p : Particle Name) : tellingShape? [p] = p.kind.shape? := by
  rw [tellingShape?, List.findSome?_cons]
  cases p.kind.shape? <;> rfl

end Particle

/-! ### Shape and model -/

namespace CorpusIndex

variable [Label Name] {index : CorpusIndex Name} {visited : List Name}

/-- **One particle that tells a shape** has a model of the arrangement that goes with it. -/
theorem arrangement_modelOf {p : Particle Name} {shape : ContentShape}
    (h : p.kind.shape? = some shape) :
    ∃ m, index.modelOf visited p = some m ∧ m.arrangement = shape.arrangement := by
  obtain ⟨kind, key, bounds, content⟩ := p
  rw [modelOf]
  cases kind with
  | sequence | alternate | interleave | textNode | empty =>
    obtain rfl := Option.some.inj h
    rw [expand]
    exact ⟨_, rfl, rfl⟩
  | elementRef | classRef | macroRef | unsupported => cases h

/-- An empty particle has an empty model alone, and brings nothing into a list. -/
theorem modelOf_itemOf_of_empty {p : Particle Name} (h : p.kind = .empty) :
    index.modelOf visited p = some ⟨.empty, [], Bounds.never⟩ ∧ index.itemOf visited p = none := by
  obtain ⟨kind, key, bounds, content⟩ := p
  obtain rfl : kind = .empty := h
  rw [modelOf, itemOf, expand]
  exact ⟨rfl, rfl⟩

/-- The names that a particle brings with it among others. -/
def namesBrought (index : CorpusIndex Name) (p : Particle Name) : List Name :=
  Item.namesOfAll (index.itemOf [] p).toList

theorem namesOfAll_filterMap (ps : List (Particle Name)) :
    Item.namesOfAll (ps.filterMap (index.itemOf [])) = ps.flatMap index.namesBrought := by
  induction ps with
  | nil => rfl
  | cons p ps ih =>
    rw [List.filterMap_cons, List.flatMap_cons, namesBrought, ← ih]
    cases index.itemOf [] p <;> simp [Item.namesOfAll]

/-- Content that is declared empty and yet brings names with it: several particles, of which an
empty one tells the shape and another one brings the names. -/
def BringsNamesUnderEmpty (index : CorpusIndex Name) (ps : List (Particle Name)) : Prop :=
  2 ≤ ps.length ∧ Particle.tellingShape? ps = some .empty ∧
    ∃ p ∈ ps, p.kind ≠ .empty ∧ index.namesBrought p ≠ []

theorem model?_compileElement_eq (index : CorpusIndex Name) (d : ElementDef Name) :
    (index.compileElement d).model? = index.compileContent [] (some (d.content.getD [])) := by
  have hcontent : index.compileContent [] d.content
      = index.compileContent [] (some (d.content.getD [])) := by
    rw [compileContent, compileContent, expandContent, expandContent, Option.getD_some]
  rw [compileElement, ElementSpec.model?, hcontent]
  cases index.compileContent [] (some (d.content.getD [])) <;> rfl

/-- Children are the names in the model, so there are none exactly if there are no such names. -/
theorem children_compileElement_eq (index : CorpusIndex Name) (d : ElementDef Name) :
    (index.compileElement d).children
      = (Expansion.namesOf (index.compileElement d).model?).eraseDups := by
  rw [ElementSpec.children, ElementSpec.model?]
  cases hcontent : (index.compileElement d).content with
  | model m => rfl
  | children names =>
    rw [compileElement] at hcontent
    simp only at hcontent
    split at hcontent
    · cases hcontent
    · obtain rfl := ElementContent.children.inj hcontent
      rfl

/-- Several particles are compiled to a sequence of what they bring, if they bring anything. -/
theorem compileContent_several {ps : List (Particle Name)} (h : 2 ≤ ps.length) :
    index.compileContent [] (some ps) =
      match ps.filterMap (index.itemOf []) with
      | [] => none
      | items => some ⟨.sequence, items, Bounds.once⟩ := by
  rw [compileContent_eq]
  match ps, h with
  | _ :: _ :: _, _ => rfl

theorem namesOf_compileContent_several {ps : List (Particle Name)} (h : 2 ≤ ps.length) :
    Expansion.namesOf (index.compileContent [] (some ps)) = ps.flatMap index.namesBrought := by
  rw [compileContent_several h, ← namesOfAll_filterMap]
  cases ps.filterMap (index.itemOf []) with
  | nil => rfl
  | cons item items => exact Expansion.names_eq_namesOfAll _

/-- At most one particle under an empty shape: the model is the empty one. -/
theorem compileContent_few {ps : List (Particle Name)} (hfew : ps.length < 2)
    (hshape : ps = [] ∨ Particle.tellingShape? ps = some .empty) :
    ∃ bounds, index.compileContent [] (some ps) = some ⟨.empty, [], bounds⟩ := by
  rw [compileContent_eq]
  match ps, hfew with
  | [], _ => exact ⟨_, rfl⟩
  | [p], _ =>
    have hkind : p.kind.shape? = some .empty := by
      rw [← Particle.tellingShape?_singleton]
      exact hshape.resolve_left (List.cons_ne_nil p [])
    exact ⟨_, (modelOf_itemOf_of_empty (ParticleKind.shape?_eq_empty_iff.mp hkind)).1⟩

/-- Where no other particle brings names, none does. -/
theorem flatMap_namesBrought_eq_nil_iff {ps : List (Particle Name)} :
    ps.flatMap index.namesBrought = [] ↔
      ¬ ∃ p ∈ ps, p.kind ≠ .empty ∧ index.namesBrought p ≠ [] := by
  rw [List.flatMap_eq_nil_iff]
  constructor
  · rintro hnone ⟨p, hp, -, hne⟩
    exact hne (hnone p hp)
  · intro hnot p hp
    by_cases hkind : p.kind = .empty
    · rw [namesBrought, (modelOf_itemOf_of_empty hkind).2]
      rfl
    · by_contra hne
      exact hnot ⟨p, hp, hkind, hne⟩

/-- **An element that is declared empty** has no children, and a model without names if any. The one
exception are several particles of which another than an empty one brings names with it: their model
is a sequence of what they bring, and all names that they bring are children. -/
theorem children_of_shape_empty (index : CorpusIndex Name) {d : ElementDef Name}
    {ps : List (Particle Name)} (hps : d.content.getD [] = ps)
    (h : (index.compileElement d).shape = some .empty) :
    (¬ index.BringsNamesUnderEmpty ps → (index.compileElement d).children = [] ∧
      ∀ m, (index.compileElement d).model? = some m → m.arrangement = .empty ∨ m.names = []) ∧
    (index.BringsNamesUnderEmpty ps →
      (index.compileElement d).model?
        = some ⟨.sequence, ps.filterMap (index.itemOf []), Bounds.once⟩ ∧
      (index.compileElement d).children = (ps.flatMap index.namesBrought).eraseDups ∧
      (index.compileElement d).children ≠ []) := by
  have hshape : ps = [] ∨ Particle.tellingShape? ps = some .empty := by
    rw [← Particle.shape?_eq_empty_iff, ← hps]
    exact h
  rw [children_compileElement_eq, model?_compileElement_eq, hps]
  rcases Nat.lt_or_ge ps.length 2 with hfew | hseveral
  · obtain ⟨bounds, hmodel⟩ : ∃ bounds, index.compileContent [] (some ps)
        = some ⟨.empty, [], bounds⟩ := compileContent_few hfew hshape
    rw [hmodel]
    refine ⟨fun _ => ⟨rfl, fun m hm => Or.inl ?_⟩, fun hbrings => ?_⟩
    · obtain rfl := Option.some.inj hm
      rfl
    · exact absurd hbrings.1 (Nat.not_le.mpr hfew)
  · have htelling : Particle.tellingShape? ps = some .empty :=
      hshape.resolve_left (List.ne_nil_of_length_pos (by omega))
    have hnames : Expansion.namesOf (index.compileContent [] (some ps))
        = ps.flatMap index.namesBrought := namesOf_compileContent_several hseveral
    rw [hnames]
    refine ⟨fun hnot => ?_, fun ⟨_, _, hother⟩ => ?_⟩
    · have hnone := flatMap_namesBrought_eq_nil_iff.mpr fun hother =>
        hnot ⟨hseveral, htelling, hother⟩
      rw [hnone] at hnames ⊢
      refine ⟨rfl, fun m hm => Or.inr ?_⟩
      rw [hm] at hnames
      exact hnames
    · have hsome : ps.flatMap index.namesBrought ≠ [] :=
        fun hnone => flatMap_namesBrought_eq_nil_iff.mp hnone hother
      refine ⟨?_, rfl, eraseDups_ne_nil hsome⟩
      rw [compileContent_several hseveral]
      rw [← namesOfAll_filterMap] at hsome
      cases hitems : ps.filterMap (index.itemOf []) with
      | nil =>
        rw [hitems] at hsome
        exact absurd rfl hsome
      | cons item items => rfl

end CorpusIndex

/-- What the declared shape of an element has to do with its particles and with its model. -/
structure ElementSpec.AgreesInShape [Label Name] (index : CorpusIndex Name)
    (ps : List (Particle Name)) (e : ElementSpec Name) : Prop where
  /-- Only a particle of the list itself makes content empty. -/
  shape_empty_iff : e.shape = some .empty ↔ ps = [] ∨ Particle.tellingShape? ps = some .empty
  /-- A single particle that tells a shape has a model of that shape. -/
  single : ∀ p shape, ps = [p] → p.kind.shape? = some shape →
    e.shape = some shape ∧ ∃ m, e.model? = some m ∧ m.arrangement = shape.arrangement
  /-- Content that is declared empty has no children. -/
  childless : e.shape = some .empty → ¬ index.BringsNamesUnderEmpty ps →
    e.children = [] ∧ ∀ m, e.model? = some m → m.arrangement = .empty ∨ m.names = []
  /-- The exception: the children are the names that the other particles bring. -/
  children_ne_nil : e.shape = some .empty → index.BringsNamesUnderEmpty ps →
    e.model? = some ⟨.sequence, ps.filterMap (index.itemOf []), Bounds.once⟩ ∧
      e.children = (ps.flatMap index.namesBrought).eraseDups ∧ e.children ≠ []

theorem CorpusIndex.agreesInShape_compileElement [Label Name] (index : CorpusIndex Name)
    (d : ElementDef Name) :
    (index.compileElement d).AgreesInShape index (d.content.getD []) where
  shape_empty_iff := Particle.shape?_eq_empty_iff _
  single := by
    intro p shape hps htells
    have htelling : Particle.tellingShape? (d.content.getD []) = some shape := by
      rw [hps, Particle.tellingShape?_singleton, htells]
    refine ⟨Particle.shape?_of_tellingShape? htelling, ?_⟩
    rw [model?_compileElement_eq, hps, compileContent_eq]
    exact arrangement_modelOf htells
  childless := fun h => (index.children_of_shape_empty rfl h).1
  children_ne_nil := fun h => (index.children_of_shape_empty rfl h).2

/-- **Declared shape and compiled model agree.** In the schema of any corpus that is compiled, an
element is declared empty because it has no particles or because an empty one comes first among
those of its own list that tell a shape; never because of a nested one. If one particle that tells a
shape is all there is, the model is arranged in that way. An element that is declared empty has no
children, and a model that is empty or without names if it has one. The exception are several
particles of which another one than the empty one brings names with it: then there is a model, a
sequence, and the children are these names. -/
theorem shape_compileCorpus {corpus id name : Json} {s : Schema Json}
    (h : (compileCorpus corpus id name).result = .ok s) :
    ∃ index, Corpus.ingest corpus = .ok index ∧ ∀ x ∈ s.elements, ∃ d, (x.1, d) ∈ index.elements ∧
      x.2.AgreesInShape index (d.content.getD []) := by
  rw [result_compileCorpus] at h
  obtain ⟨index, hindex, h⟩ := exists_of_bind_eq_ok h
  rw [CorpusIndex.build] at h
  split at h
  · obtain rfl := Except.ok.inj h
    refine ⟨index, hindex, fun x hx => ?_⟩
    obtain ⟨⟨key, d⟩, hd, rfl⟩ := List.mem_map.mp hx
    exact ⟨d, hd, index.agreesInShape_compileElement d⟩
  · cases h

/-- A corpus with a page break, which is empty, a division, which is a sequence, and a paragraph,
whose content begins with an empty particle. -/
def pages : Json :=
  .ofFields
    [("elements", .array
      [.ofFields
        [("ident", .string "pb"), ("content", .array [.ofFields [("type", .string "empty")]])],
       .ofFields
        [("ident", .string "div"), ("content", .array
          [.ofFields [("type", .string "sequence"), ("content", .array
            [.ofFields [("type", .string "elementRef"), ("key", .string "p")]])]])],
       .ofFields
        [("ident", .string "p"), ("content", .array
          [.ofFields [("type", .string "empty")],
           .ofFields [("type", .string "elementRef"), ("key", .string "pb")]])]])]

/-- What is read of the corpus. -/
def pagesIndex : CorpusIndex Json where
  title := none
  edition := none
  elements :=
    [(.string "pb", ⟨.string "pb", none, [], [], [], some [⟨.empty, none, Bounds.once, []⟩]⟩),
     (.string "div", ⟨.string "div", none, [], [], [], some
        [⟨.sequence, none, Bounds.once,
          [⟨.elementRef, some (.string "p"), Bounds.once, []⟩]⟩]⟩),
     (.string "p", ⟨.string "p", none, [], [], [], some
        [⟨.empty, none, Bounds.once, []⟩,
         ⟨.elementRef, some (.string "pb"), Bounds.once, []⟩]⟩)]
  macros := []
  modelClasses := []
  attributeClasses := []
  datatypes := []

theorem ingest_pages : Corpus.ingest pages = .ok pagesIndex := rfl

theorem result_pages : (compileCorpus pages (.string "pages") (.string "Pages")).result
    = .ok (pagesIndex.toSchema (.string "pages") (.string "Pages")) := by
  have husable : (pagesIndex.isUsable
      && (pagesIndex.toSchema (.string "pages") (.string "Pages")).isUsable) = true := by
    cbv
  rw [result_compileCorpus, ingest_pages]
  show pagesIndex.build (.string "pages") (.string "Pages") = _
  rw [CorpusIndex.build]
  simp only [husable, if_true]

/-- The schema of the corpus: the division is declared and compiled as a sequence, and the page
break is empty in both ways. -/
theorem shape_compileCorpus_pages :
    (compileCorpus pages (.string "pages") (.string "Pages")).result
        = .ok (pagesIndex.toSchema (.string "pages") (.string "Pages")) ∧
      ∀ x ∈ (pagesIndex.toSchema (.string "pages") (.string "Pages")).elements,
        (x.1 = .string "div" → x.2.shape = some .sequence ∧
          ∃ m, x.2.model? = some m ∧ m.arrangement = .sequence) ∧
        (x.1 = .string "pb" → x.2.shape = some .empty ∧ x.2.children = []) := by
  obtain ⟨index, hindex, hall⟩ := shape_compileCorpus result_pages
  obtain rfl : pagesIndex = index := Except.ok.inj (ingest_pages.symm.trans hindex)
  refine ⟨result_pages, fun x hx => ?_⟩
  obtain ⟨d, hd, hagrees⟩ := hall x hx
  have hkeys : Json.string "div" ≠ .string "pb" ∧ Json.string "div" ≠ .string "p" ∧
      Json.string "pb" ≠ .string "p" := by
    simp [Json.string, Text.ofString]
  simp only [pagesIndex, List.mem_cons, Prod.mk.injEq, List.not_mem_nil, or_false] at hd
  refine ⟨fun hkey => ?_, fun hkey => ?_⟩
  · rw [hkey] at hd
    rcases hd with ⟨hd, -⟩ | ⟨-, rfl⟩ | ⟨hd, -⟩
    · exact absurd hd hkeys.1
    · exact hagrees.single _ .sequence rfl rfl
    · exact absurd hd hkeys.2.1
  · rw [hkey] at hd
    rcases hd with ⟨-, rfl⟩ | ⟨hd, -⟩ | ⟨hd, -⟩
    · have hshape := (hagrees.single _ .empty rfl rfl).1
      exact ⟨hshape, (hagrees.childless hshape fun hbrings => absurd hbrings.1 (by simp)).1⟩
    · exact absurd hd.symm hkeys.1
    · exact absurd hd hkeys.2.2

/-- The paragraph is declared empty, and its model is a sequence with a page break in it. -/
theorem declaredEmpty_admits_child :
    ∃ e, (pagesIndex.toSchema (.string "pages") (.string "Pages")).element? (.string "p") = some e ∧
      (compileCorpus pages (.string "pages") (.string "Pages")).result
        = .ok (pagesIndex.toSchema (.string "pages") (.string "Pages")) ∧
      e.shape = some .empty ∧ e.children = [.string "pb"] ∧
      ∃ m, e.model? = some m ∧ m.arrangement = .sequence ∧ m.names = [.string "pb"] := by
  have hchildren : (pagesIndex.compileElement ⟨.string "p", none, [], [], [], some
      [⟨.empty, none, Bounds.once, []⟩,
        ⟨.elementRef, some (.string "pb"), Bounds.once, []⟩]⟩).children = [.string "pb"] := by
    cbv
  refine ⟨pagesIndex.compileElement ⟨.string "p", none, [], [], [], some
      [⟨.empty, none, Bounds.once, []⟩,
        ⟨.elementRef, some (.string "pb"), Bounds.once, []⟩]⟩, rfl, result_pages, ?_, hchildren,
    ⟨.sequence, [.element (.string "pb") Bounds.once], Bounds.once⟩, ?_, rfl, rfl⟩
  · exact (Particle.shape?_eq_empty_iff _).mpr (Or.inr rfl)
  · cbv

end MarkupGrammar
