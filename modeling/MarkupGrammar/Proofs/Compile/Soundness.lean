import MarkupGrammar.Proofs.Check.Emptiness
import MarkupGrammar.Proofs.Check.Placement
import MarkupGrammar.Proofs.Corpus.Classes

/-!
# Sound models

Compilation puts models together from parts: classes become choices, macros become groups, and the
bounds of a reference replace those of what it refers to. What comes out is sound at every depth. No
upper bound is below a lower one; text and empty models hold nothing, and a model of one element
holds just that; nothing in a model is left unresolved, and no group in it is empty.

The last point decides where children may be refused. A check looks into groups, and an empty one
would refuse every child of the element around it. As there is none, only an element whose own model
is empty refuses its children.

## Main results

* `Expansion.isSound_compile` — whatever is compiled is sound
* `CorpusIndex.exists_schema_of_ingest` — what is read of a corpus is compiled to sound models, and
  only elements with an empty model refuse their children
-/

namespace MarkupGrammar

variable {Name : Type}

mutual

/-- A model that is sound, at every depth. -/
inductive ContentModel.IsSound : ContentModel Name → Prop
  | intro {arrangement : Arrangement} {items : List (Item Name)} {bounds : Bounds}
      (ordered : ∀ most, bounds.most = .finite most → bounds.least ≤ most)
      (bare : arrangement = .text ∨ arrangement = .empty → items = [])
      (single : arrangement = .element → ∃ name once, items = [.element name once])
      (items_sound : ∀ item ∈ items, Item.IsSound item) :
      ContentModel.IsSound ⟨arrangement, items, bounds⟩

/-- An item that is sound: an element, text, or a group of a sound model that is not the empty one.
A pattern that is not resolved is not. -/
inductive Item.IsSound : Item Name → Prop
  | element (name : Name) {bounds : Bounds}
      (ordered : ∀ most, bounds.most = .finite most → bounds.least ≤ most) :
      Item.IsSound (.element name bounds)
  | text {bounds : Bounds} (ordered : ∀ most, bounds.most = .finite most → bounds.least ≤ most) :
      Item.IsSound (.text bounds)
  | group {content : ContentModel Name} {bounds : Bounds}
      (ordered : ∀ most, bounds.most = .finite most → bounds.least ≤ most)
      (ne_empty : content.arrangement ≠ .empty) (content_sound : ContentModel.IsSound content) :
      Item.IsSound (.group content bounds)

end

/-! ### Compilation -/

namespace ContentModel

theorem IsSound.withBounds {m : ContentModel Name} (h : m.IsSound) (bounds : Bounds) :
    (m.withBounds bounds).IsSound := by
  cases h with
  | intro _ bare single items_sound =>
    exact .intro (fun _ => Bounds.least_le) bare single items_sound

theorem isSound_of_group {items : List (Item Name)} (h : ∀ item ∈ items, item.IsSound)
    (kind : GroupKind) (bounds : Bounds) : IsSound ⟨kind.arrangement, items, bounds⟩ := by
  refine .intro (fun _ => Bounds.least_le) (fun hbare => ?_) (fun hsingle => ?_) h
  · cases kind <;> simp [GroupKind.arrangement] at hbare
  · cases kind <;> simp [GroupKind.arrangement] at hsingle

/-- The choice of the members of a class. -/
theorem isSound_of_ofMembers {names : List Name} {bounds : Bounds} {m : ContentModel Name}
    (h : ofMembers names bounds = some m) : m.IsSound ∧ m.arrangement = .choice := by
  cases names with
  | nil => exact nomatch h
  | cons n names =>
    obtain rfl := Option.some.inj h
    refine ⟨isSound_of_group (fun item hitem => ?_) .choice bounds, rfl⟩
    obtain ⟨name, -, rfl⟩ := List.mem_map.mp hitem
    exact .element name fun _ => Bounds.least_le

end ContentModel

namespace Expansion

mutual

theorem isSound_toModel (e : Expansion Name) {m : ContentModel Name} (h : e.toModel = some m) :
    m.IsSound := by
  cases e with
  | group kind parts bounds =>
    obtain rfl := Option.some.inj h
    exact ContentModel.isSound_of_group (isSound_toItems parts) kind bounds
  | element name bounds =>
    obtain rfl := Option.some.inj h
    refine .intro (fun _ => Bounds.least_le) (by simp) (fun _ => ⟨name, bounds, rfl⟩) ?_
    intro item hitem
    obtain rfl := List.mem_singleton.mp hitem
    exact .element name fun _ => Bounds.least_le
  | members names bounds => exact (ContentModel.isSound_of_ofMembers h).1
  | content parts bounds =>
    obtain ⟨content, hcontent, rfl⟩ := Option.map_eq_some_iff.mp h
    exact (isSound_compile parts hcontent).withBounds bounds
  | text bounds =>
    obtain rfl := Option.some.inj h
    exact .intro (fun _ => Bounds.least_le) (fun _ => rfl) (by simp) (List.forall_mem_nil _)
  | empty =>
    obtain rfl := Option.some.inj h
    exact .intro (fun _ => Bounds.least_le) (fun _ => rfl) (by simp) (List.forall_mem_nil _)
  | nothing => exact nomatch h
  | unusable => exact nomatch h

theorem isSound_toItem (e : Expansion Name) {item : Item Name} (h : e.toItem = some item) :
    item.IsSound := by
  cases e with
  | group kind parts bounds =>
    obtain rfl := Option.some.inj h
    refine .group (fun _ => Bounds.least_le) ?_
      (ContentModel.isSound_of_group (isSound_toItems parts) kind bounds)
    cases kind <;> simp [GroupKind.arrangement]
  | element name bounds =>
    obtain rfl := Option.some.inj h
    exact .element name fun _ => Bounds.least_le
  | members names bounds =>
    obtain ⟨content, hcontent, rfl⟩ := Option.map_eq_some_iff.mp h
    obtain ⟨hsound, harrangement⟩ := ContentModel.isSound_of_ofMembers hcontent
    exact .group (fun _ => Bounds.least_le) (by simp [harrangement]) hsound
  | content parts bounds =>
    rw [toItem] at h
    cases hcontent : compile parts with
    | none =>
      rw [hcontent] at h
      exact nomatch h
    | some content =>
      rw [hcontent] at h
      simp only at h
      split at h
      · exact nomatch h
      · next hne =>
        obtain rfl := Option.some.inj h
        exact .group (fun _ => Bounds.least_le) hne (isSound_compile parts hcontent)
  | text bounds =>
    obtain rfl := Option.some.inj h
    exact .text fun _ => Bounds.least_le
  | empty => exact nomatch h
  | nothing => exact nomatch h
  | unusable => exact nomatch h

theorem isSound_toItems (es : List (Expansion Name)) : ∀ item ∈ toItems es, item.IsSound := by
  cases es with
  | nil => exact List.forall_mem_nil _
  | cons e es =>
    rw [toItems_cons]
    refine List.forall_mem_append.mpr ⟨fun item hitem => ?_, isSound_toItems es⟩
    exact isSound_toItem e (Option.mem_toList.mp hitem)

/-- **Whatever is compiled is sound,** at every depth. -/
theorem isSound_compile (es : List (Expansion Name)) {m : ContentModel Name}
    (h : compile es = some m) : m.IsSound := by
  match es with
  | [] =>
    obtain rfl := Option.some.inj h
    exact .intro (fun _ => Bounds.least_le) (fun _ => rfl) (by simp)
      (List.forall_mem_nil _)
  | [e] => exact isSound_toModel e h
  | e :: f :: es =>
    have hitems : ∀ item ∈ toItems (e :: f :: es), item.IsSound := by
      rw [toItems_cons]
      refine List.forall_mem_append.mpr ⟨fun item hitem => ?_, isSound_toItems (f :: es)⟩
      exact isSound_toItem e (Option.mem_toList.mp hitem)
    rw [compile_cons_cons] at h
    split at h
    · exact nomatch h
    · obtain rfl := Option.some.inj h
      exact ContentModel.isSound_of_group hitems .sequence Bounds.once

end

end Expansion

/-! ### Where children are refused -/

mutual

/-- No group in a sound model is empty. -/
theorem ContentModel.IsSound.nestsEmpty_eq_false (m : ContentModel Name) (h : m.IsSound) :
    m.nestsEmpty = false := by
  cases h with
  | intro _ _ _ items_sound =>
    rw [ContentModel.nestsEmpty]
    exact Item.IsSound.anyNestsEmpty_eq_false _ items_sound

theorem Item.IsSound.anyNestsEmpty_eq_false (items : List (Item Name))
    (h : ∀ item ∈ items, item.IsSound) : Item.anyNestsEmpty items = false := by
  cases items with
  | nil => rfl
  | cons item items =>
    obtain ⟨hitem, hitems⟩ := List.forall_mem_cons.mp h
    rw [Item.anyNestsEmpty, Item.IsSound.nestsEmpty_eq_false item hitem,
      Item.IsSound.anyNestsEmpty_eq_false items hitems]
    rfl

theorem Item.IsSound.nestsEmpty_eq_false (item : Item Name) (h : item.IsSound) :
    item.nestsEmpty = false := by
  cases h with
  | element name _ => rfl
  | text _ => rfl
  | @group content bounds _ ne_empty content_sound =>
    rw [Item.nestsEmpty, decide_eq_false ne_empty,
      ContentModel.IsSound.nestsEmpty_eq_false content content_sound]
    rfl

end

namespace Schema

variable [Label Name] {s : Schema Name}

/-- When no element's model nests an empty one, children are refused only by elements with an empty
model of their own. -/
theorem arrangement_eq_empty_of_notEmpty
    (hs : ∀ name e m, s.element? name = some e → e.model? = some m → m.nestsEmpty = false)
    {document parent : Text} {d : Diagnostic Name} (hd : d ∈ s.checkStructure document)
    (hfinding : d.finding = .notEmpty parent) :
    ∃ e m, s.element? (Label.ofText parent) = some e ∧ e.model? = some m ∧
      m.arrangement = .empty := by
  have hopening : ∀ {tag : Tag} {d : Diagnostic Name}, d.IsOfOpening tag →
      ∀ parent, d.finding ≠ .notEmpty parent := by
    intro tag d hd parent
    cases hd <;> simp
  -- an open element carries the definition of its name, and its model is the one that refuses
  refine forall_mem_walk (P := fun frame => frame.spec = s.element? (Label.ofText frame.name))
    (Q := fun d => ∀ parent, d.finding = .notEmpty parent → ∃ e m,
      s.element? (Label.ofText parent) = some e ∧ e.model? = some m ∧ m.arrangement = .empty)
    ?_ ?_ ?_ ?_ ?_ ?_ (List.forall_mem_nil _) d hd parent hfinding
  case refine_1 => exact fun tag _ _ => rfl
  case refine_2 => exact fun tag _ _ frame hframe => hframe
  case refine_3 =>
    intro tag _ _ outer d hd parent hfinding
    exact absurd hfinding (hopening (isOfOpening_of_mem_checkOpening hd) parent)
  case refine_4 =>
    intro tag _ _ d hd parent hfinding
    exact absurd hfinding (hopening (isOfOpening_of_mem_checkSelfClosing hd) parent)
  case refine_5 =>
    intro frame hframe d hd parent hfinding
    unfold checkClosing at hd
    split at hd
    · cases hd
    · next m hm =>
      obtain ⟨e, he, hm⟩ := Option.bind_eq_some_iff.mp hm
      rw [hframe] at he
      rcases List.mem_append.mp hd with hd | hd
      · obtain ⟨child, -, -, hchild⟩ := m.exists_of_mem_check hd
        rw [hfinding] at hchild
        obtain rfl : parent = frame.name := hchild
        rcases m.isEmpty_or_nestsEmpty hd (by rw [hfinding]; rfl) with hempty | hnests
        · exact ⟨e, m, he, hm, hempty⟩
        · exact absurd hnests (Bool.eq_false_iff.mp (hs _ e m he hm))
      · obtain ⟨name, -, rfl⟩ := List.mem_map.mp hd
        cases hfinding
  case refine_6 =>
    intro frame _ parent hfinding
    cases hfinding

end Schema

/-! ### Schemas of a corpus -/

/-- The children of an element are the names in its model, if it has one. -/
theorem ElementSpec.IsStorable.mem_children_iff {e : ElementSpec Json} (h : e.IsStorable)
    (n : Json) : n ∈ e.children ↔ ∃ m, e.model? = some m ∧ n ∈ m.names := by
  rw [children, model?]
  rcases h.content with ⟨m, hm, hnames⟩ | hnone
  · rw [hm]
    constructor
    · exact fun hn => ⟨m, rfl, Label.mem_of_mem_eraseDups hn⟩
    · rintro ⟨_, heq, hn⟩
      obtain rfl := Option.some.inj heq
      obtain ⟨t, rfl⟩ := hnames n hn
      exact (Label.ofText_mem_eraseDups t m.names).mpr hn
  · rw [hnone]
    refine ⟨fun hn => absurd hn List.not_mem_nil, ?_⟩
    rintro ⟨m, heq, -⟩
    cases heq

namespace CorpusIndex

variable {index : CorpusIndex Json}

theorem isSound_of_compileElement {d : ElementDef Json} {m : ContentModel Json}
    (h : (index.compileElement d).model? = some m) : m.IsSound := by
  rw [ElementSpec.model?, compileElement] at h
  cases hm : index.compileContent [] d.content with
  | none =>
    rw [hm] at h
    cases h
  | some content =>
    rw [hm] at h
    obtain rfl := Option.some.inj h
    exact Expansion.isSound_compile _ hm

/-- **What is read of a corpus is compiled.** Of every corpus that names things and lists classes by
texts, if it can be read, a schema is built. In the schema each content model is sound, the children
of an element are the names in its model, and none if it has no model. So in any document the only
elements that refuse children outright are those whose own model is empty. -/
theorem exists_schema_of_ingest {corpus : Json} (hnames : corpus.namesAreTexts = true)
    (hclasses : corpus.classesAreTexts = true) (h : Corpus.ingest corpus = .ok index)
    (id name : Json) :
    ∃ s, index.build id name = .ok s ∧ (compileCorpus corpus id name).result = .ok s ∧
      (∀ x ∈ s.elements, (∀ m, x.2.model? = some m → m.IsSound) ∧
        ∀ n, n ∈ x.2.children ↔ ∃ m, x.2.model? = some m ∧ n ∈ m.names) ∧
      ∀ document, ∀ d ∈ s.checkStructure document, ∀ parent, d.finding = .notEmpty parent →
        ∃ e m, s.element? (.text parent) = some e ∧ e.model? = some m ∧
          m.arrangement = .empty := by
  have hkept := Corpus.ingest_isKept hnames h
  have hdictionary := Corpus.ingest_isDictionary h
  have hbuild := build_eq hkept hdictionary
    (Corpus.ingest_hasTextualAttributes hnames hclasses h) id name
  have hresult : (compileCorpus corpus id name).result = .ok (index.toSchema id name) := by
    rw [result_compileCorpus, h]
    exact hbuild
  have hsound : ∀ x ∈ (index.toSchema id name).elements, ∀ m, x.2.model? = some m →
      m.IsSound := by
    intro x hx m hm
    obtain ⟨e, -, rfl⟩ := List.mem_map.mp hx
    exact isSound_of_compileElement hm
  refine ⟨_, hbuild, hresult, fun x hx => ⟨hsound x hx, fun n => ?_⟩, ?_⟩
  · obtain ⟨e, he, rfl⟩ := List.mem_map.mp hx
    exact (hkept.isStorable_compileElement hdictionary he).mem_children_iff n
  · intro document d hd parent hfinding
    refine Schema.arrangement_eq_empty_of_notEmpty (fun key e m he hm => ?_) hd hfinding
    obtain ⟨k, hk⟩ := Table.exists_mem_of_find? he
    exact (hsound (k, e) hk m hm).nestsEmpty_eq_false

/-- A corpus with a division that refers to two macros, one of them empty, and with a page break,
which is empty and a member of the class that the other macro refers to. -/
def divisions : Json :=
  .ofFields
    [("elements", .array
      [.ofFields
        [("ident", .string "div"), ("content", .array
          [.ofFields [("type", .string "macroRef"), ("key", .string "macro.parts"),
             ("minOccurs", .int 2), ("maxOccurs", .string "unbounded")],
           .ofFields [("type", .string "macroRef"), ("key", .string "macro.none")]])],
       .ofFields
        [("ident", .string "pb"),
         ("classes", .ofFields [("model", .array [.string "model.milestone"]),
           ("atts", .array [.string "att.global"])]),
         ("content", .array [.ofFields [("type", .string "empty")]])]]),
     ("classes", .ofFields
       [("models", .array [.ofFields [("ident", .string "model.milestone")]])]),
     ("macros", .array
       [.ofFields
         [("ident", .string "macro.parts"), ("content", .array
           [.ofFields [("type", .string "classRef"), ("key", .string "model.milestone")]])],
        .ofFields
         [("ident", .string "macro.none"),
          ("content", .array [.ofFields [("type", .string "empty")]])]])]

/-- What is read of the corpus. -/
def divisionsIndex : CorpusIndex Json where
  title := none
  edition := none
  elements :=
    [(.string "div", ⟨.string "div", none, [], [], [], some
        [⟨.macroRef, some (.string "macro.parts"), ⟨2, .unbounded, rfl⟩, []⟩,
         ⟨.macroRef, some (.string "macro.none"), Bounds.once, []⟩]⟩),
     (.string "pb", ⟨.string "pb", none, [.string "att.global"], [.string "model.milestone"], [],
        some [⟨.empty, none, Bounds.once, []⟩]⟩)]
  macros :=
    [(.string "macro.parts", ⟨.string "macro.parts", none,
        some [⟨.classRef, some (.string "model.milestone"), Bounds.once, []⟩]⟩),
     (.string "macro.none", ⟨.string "macro.none", none,
        some [⟨.empty, none, Bounds.once, []⟩]⟩)]
  modelClasses := [(.string "model.milestone", [.string "pb"])]
  attributeClasses := []
  datatypes := []

/-- The corpus is read and compiled; the empty macro leaves no group behind. -/
theorem exists_schema_divisions :
    divisions.namesAreTexts = true ∧ divisions.classesAreTexts = true ∧
    Corpus.ingest divisions = .ok divisionsIndex ∧
    ∃ s, divisionsIndex.build (.string "divisions") (.string "Divisions") = .ok s ∧
      (∀ x ∈ s.elements, ∀ m, x.2.model? = some m → m.IsSound ∧ m.nestsEmpty = false) ∧
      ∀ document, ∀ d ∈ s.checkStructure document, ∀ parent, d.finding = .notEmpty parent →
        ∃ e m, s.element? (.text parent) = some e ∧ e.model? = some m ∧
          m.arrangement = .empty := by
  have hnames : divisions.namesAreTexts = true := by decide +kernel
  have hclasses : divisions.classesAreTexts = true := by decide +kernel
  have hingest : Corpus.ingest divisions = .ok divisionsIndex := rfl
  obtain ⟨s, hbuild, -, helements, hdocuments⟩ :=
    exists_schema_of_ingest hnames hclasses hingest (.string "divisions") (.string "Divisions")
  refine ⟨hnames, hclasses, hingest, s, hbuild, fun x hx m hm => ?_, hdocuments⟩
  have hsound := (helements x hx).1 m hm
  exact ⟨hsound, hsound.nestsEmpty_eq_false⟩

end CorpusIndex

end MarkupGrammar
