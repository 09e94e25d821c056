import MarkupGrammar.Proofs.Compile.Reachable

/-!
# A particle alone and among others

Content of one particle is the model of that particle. When a sibling is added, both become items of
a sequence. The model and the item are made by different rules, which put the bounds of a particle
on the model, on the group around it, on both, or in the place of those of a macro. So it has to be
said what a sibling changes, and it is little: the same particles stand for nothing, the same names
are reached, and nothing is required that was not.

What may get lost is a requirement, and for one reason only. The bounds of a reference take the
place of those of its macro when the reference is alone. Among others both are kept, one around the
other, and when the macro's own content may be left out, none of it is required.

## Main results

* `Expansion.toItem_eq_none_iff` — what is dropped among others has no model or an empty one
* `CorpusIndex.compileContent_eq` — where a particle stands alone, and where among others
* `CorpusIndex.demands_itemOf` — what is required among others is what is required alone, or nothing
* `CorpusIndex.itemOf_modelOf` — all that a particle means alone and among others
-/

namespace MarkupGrammar

variable {Name : Type}

/-- The elements that an item requires, each once. -/
def Item.requiredChildren [BEq Name] (item : Item Name) : List Name := item.demands.eraseDups

namespace ContentModel

theorem demands_eq_demandsOfAll (m : ContentModel Name) :
    m.demands =
      if m.arrangement = .choice ∨ m.bounds.least = 0 then [] else Item.demandsOfAll m.items := by
  obtain ⟨arrangement, items, bounds⟩ := m
  simp [demands]

/-- A choice requires nothing, and neither does a model that may be left out. -/
theorem demands_of_choice {m : ContentModel Name} (h : m.arrangement = .choice) :
    m.demands = [] := by
  rw [m.demands_eq_demandsOfAll, if_pos (Or.inl h)]

theorem demands_of_least_eq_zero {m : ContentModel Name} (h : m.bounds.least = 0) :
    m.demands = [] := by
  rw [m.demands_eq_demandsOfAll, if_pos (Or.inr h)]

theorem arrangement_ofMembers {names : List Name} {bounds : Bounds} {m : ContentModel Name}
    (h : ofMembers names bounds = some m) : m.arrangement = .choice := by
  cases names with
  | nil => exact nomatch h
  | cons n names =>
    obtain rfl := Option.some.inj h
    rfl

end ContentModel

namespace Expansion

/-! ### What is dropped -/

/-- **What is dropped among others** is what has no model alone, or a model of the empty
arrangement. -/
theorem toItem_eq_none_iff (e : Expansion Name) :
    e.toItem = none ↔ e.toModel = none ∨ ∃ m, e.toModel = some m ∧ m.arrangement = .empty := by
  cases e with
  | group kind parts bounds => cases kind <;> simp [toItem, toModel, GroupKind.arrangement]
  | element name bounds => simp [toItem, toModel]
  | members names bounds => cases names <;> simp [toItem, toModel, ContentModel.ofMembers]
  | content parts bounds =>
    rw [toItem, toModel]
    cases compile parts with
    | none => simp
    | some own => by_cases h : own.arrangement = .empty <;> simp [h, ContentModel.withBounds]
  | text bounds => simp [toItem, toModel]
  | empty => simp [toItem, toModel]
  | nothing => simp [toItem, toModel]
  | unusable => simp [toItem, toModel]

/-- The names of an item and of the model are the same, in the same order. -/
theorem names_eq_of_toItem {e : Expansion Name} {item : Item Name} {m : ContentModel Name}
    (hitem : e.toItem = some item) (hm : e.toModel = some m) : item.names = m.names := by
  have hitems := e.names_toItem
  have hmodel := e.names_toModel
  rw [hitem, Option.toList_some, Item.namesOfAll, Item.namesOfAll, List.append_nil] at hitems
  rw [hm] at hmodel
  exact hitems.trans hmodel.symm

/-! ### What is required -/

/-- The model that the content of a macro has by itself, before the bounds of a reference take the
place of its own. -/
def macroModel? : Expansion Name → Option (ContentModel Name)
  | .content parts _ => compile parts
  | _ => none

/-- What is not a reference to a macro requires among others what it requires alone. -/
theorem demands_toItem {e : Expansion Name} (he : e.macroModel? = none) {item : Item Name}
    {m : ContentModel Name} (hitem : e.toItem = some item) (hm : e.toModel = some m) :
    item.demands = m.demands := by
  cases e with
  | group kind parts bounds =>
    obtain rfl := Option.some.inj hitem
    obtain rfl := Option.some.inj hm
    rw [Item.demands]
    split
    · next hleast => exact (ContentModel.demands_of_least_eq_zero hleast).symm
    · rfl
  | element name bounds =>
    obtain rfl := Option.some.inj hitem
    obtain rfl := Option.some.inj hm
    by_cases hleast : bounds.least = 0 <;>
      simp [Item.demands, Item.demandsOfAll, ContentModel.demands, hleast]
  | members names bounds =>
    obtain ⟨choice, hchoice, rfl⟩ := Option.map_eq_some_iff.mp hitem
    rw [Item.demands, ContentModel.demands_of_choice (ContentModel.arrangement_ofMembers hchoice),
      ContentModel.demands_of_choice (ContentModel.arrangement_ofMembers hm), ite_self]
  | content parts bounds =>
    rw [toModel, show compile parts = none from he] at hm
    cases hm
  | text bounds =>
    obtain rfl := Option.some.inj hitem
    obtain rfl := Option.some.inj hm
    simp [Item.demands, Item.demandsOfAll, ContentModel.demands]
  | empty => cases hitem
  | nothing => cases hitem
  | unusable => cases hitem

/-- **A reference to a macro** requires among others what it requires alone, or nothing. It is
nothing where alone it is something when the reference cannot be left out and the macro, which is
not a choice, can be, but requires something when it is not. -/
theorem demands_toItem_content {parts : List (Expansion Name)} {bounds : Bounds}
    {own m : ContentModel Name} {item : Item Name} (hown : compile parts = some own)
    (hitem : (content parts bounds).toItem = some item)
    (hm : (content parts bounds).toModel = some m) :
    if 0 < bounds.least ∧ own.arrangement ≠ .choice ∧ own.bounds.least = 0 ∧
        Item.demandsOfAll own.items ≠ [] then item.demands = [] ∧ m.demands ≠ []
    else item.demands = m.demands := by
  rw [toItem, hown] at hitem
  rw [toModel, hown, Option.map_some] at hm
  obtain rfl := Option.some.inj hm
  simp only at hitem
  split at hitem
  · exact nomatch hitem
  · obtain rfl := Option.some.inj hitem
    rw [Item.demands, own.demands_eq_demandsOfAll, (own.withBounds bounds).demands_eq_demandsOfAll]
    simp only [ContentModel.withBounds]
    by_cases hleast : bounds.least = 0
    · simp [hleast]
    · by_cases hchoice : own.arrangement = .choice
      · simp [hchoice]
      · by_cases hoption : own.bounds.least = 0
        · by_cases hnone : Item.demandsOfAll own.items = [] <;>
            simp [hleast, hchoice, hoption, hnone, Nat.pos_iff_ne_zero]
        · simp [hleast, hchoice, hoption]

end Expansion

theorem eraseDups_ne_nil [BEq Name] {names : List Name} (h : names ≠ []) :
    names.eraseDups ≠ [] := by
  cases names with
  | nil => exact absurd rfl h
  | cons n names =>
    rw [List.eraseDups_cons]
    exact List.cons_ne_nil n _

/-! ### Particles -/

namespace CorpusIndex

variable [Label Name] {index : CorpusIndex Name} {visited : List Name}

/-- The model of a particle that stands alone, with macros already visited. -/
def modelOf (index : CorpusIndex Name) (visited : List Name) (p : Particle Name) :
    Option (ContentModel Name) :=
  (index.expand (index.macrosWithout visited) p).toModel

/-- The item of a particle that stands among others, with macros already visited. -/
def itemOf (index : CorpusIndex Name) (visited : List Name) (p : Particle Name) :
    Option (Item Name) :=
  (index.expand (index.macrosWithout visited) p).toItem

theorem toItems_expandAll (ps : List (Particle Name)) :
    Expansion.toItems (index.expandAll (index.macrosWithout visited) ps)
      = ps.filterMap (index.itemOf visited) := by
  induction ps with
  | nil =>
    rw [expandAll]
    rfl
  | cons p ps ih =>
    rw [expandAll, Expansion.toItems_cons, ih, List.filterMap_cons, itemOf]
    cases (index.expand (index.macrosWithout visited) p).toItem <;> rfl

/-- One particle is compiled to its own model, and several to a sequence of their items. -/
theorem compileContent_eq (ps : List (Particle Name)) :
    index.compileContent visited (some ps) =
      match ps with
      | [] => some ContentModel.ofNoParticles
      | [p] => index.modelOf visited p
      | p :: q :: rest =>
        match (p :: q :: rest).filterMap (index.itemOf visited) with
        | [] => none
        | items => some ⟨.sequence, items, Bounds.once⟩ := by
  match ps with
  | [] =>
    rw [compileContent, expandContent, Option.getD_some, expandAll]
    rfl
  | [p] =>
    rw [compileContent, expandContent, Option.getD_some, expandAll, expandAll]
    rfl
  | p :: q :: rest =>
    have hitems : Expansion.toItems (index.expandAll (index.macrosWithout visited) (p :: q :: rest))
        = (p :: q :: rest).filterMap (index.itemOf visited) := toItems_expandAll _
    rw [expandAll, expandAll] at hitems
    rewrite [compileContent, expandContent, Option.getD_some, expandAll, expandAll,
      Expansion.compile_cons_cons, hitems]
    rfl

/-- The model that the macro of a reference has by itself. The macro counts as visited in it; one
that has been visited before is not looked at. -/
def macroModel? (index : CorpusIndex Name) (visited : List Name) (p : Particle Name) :
    Option (ContentModel Name) :=
  p.key.bind fun m =>
    if Label.isVoid m || visited.elem m then none
    else (index.macros.find? m).bind fun d =>
      d.content.bind fun ps => index.compileContent (m :: visited) (some ps)

/-- A reference that overrides an option: it cannot be left out, and its macro, which is not a
choice, could be, but requires something when it is not. -/
def OverridesOption (index : CorpusIndex Name) (visited : List Name) (p : Particle Name) : Prop :=
  p.kind = .macroRef ∧ 0 < p.bounds.least ∧ ∃ own, index.macroModel? visited p = some own ∧
    own.arrangement ≠ .choice ∧ own.bounds.least = 0 ∧ Item.demandsOfAll own.items ≠ []

/-- Only a reference to a macro is expanded to the content of one. -/
theorem macroModel?_expand_of_ne {p : Particle Name} (hkind : p.kind ≠ .macroRef)
    (left : Table Name (MacroDef Name)) : (index.expand left p).macroModel? = none := by
  obtain ⟨kind, key, bounds, content⟩ := p
  cases kind with
  | macroRef => exact absurd rfl hkind
  | elementRef =>
    cases key with
    | none =>
      rw [expand]
      rfl
    | some k =>
      rw [expand]
      cases Label.isVoid k <;> rfl
  | classRef =>
    cases key with
    | none =>
      rw [expand]
      rfl
    | some k =>
      rw [expand]
      cases Label.isVoid k <;> cases Label.isName k <;> rfl
  | _ =>
    rw [expand]
    rfl

/-- A reference stands for the content of its macro, under its own bounds, or for nothing when
nothing is compiled of the macro. -/
theorem expand_reference [LawfulLabel Name] (hi : index.macros.Distinct) {p : Particle Name}
    (hkind : p.kind = .macroRef) (hkey : ∀ m ∈ p.key, Label.IsText m) :
    (∃ parts, index.expand (index.macrosWithout visited) p = .content parts p.bounds ∧
        Expansion.compile parts = index.macroModel? visited p) ∨
      index.expand (index.macrosWithout visited) p = .nothing := by
  obtain ⟨kind, key, bounds, content⟩ := p
  obtain rfl : kind = .macroRef := hkind
  cases key with
  | none =>
    rw [expand]
    exact Or.inr rfl
  | some m =>
    have hm : Label.IsText m := hkey m rfl
    cases hvoid : Label.isVoid m with
    | true =>
      rw [expand]
      simp [hvoid]
    | false =>
      rcases expand_macroRef hi visited hm hvoid bounds content with
        ⟨d, ps, hv, hd, hps, heq⟩ | ⟨-, heq⟩
      · have helem : visited.elem m = false :=
          Bool.eq_false_iff.mpr (mt (hm.elem_iff visited).mp hv)
        refine Or.inl ⟨_, heq, ?_⟩
        rw [macroModel?, Option.bind_some, hvoid, helem, hd, Option.bind_some, hps]
        rfl
      · exact Or.inr heq

/-- What a particle requires among others is what it requires alone, or it overrides an option. -/
theorem demands_itemOf [LawfulLabel Name] (hi : index.macros.Distinct) {p : Particle Name}
    (hkey : p.kind = .macroRef → ∀ m ∈ p.key, Label.IsText m) {item : Item Name}
    {m : ContentModel Name} (hitem : index.itemOf visited p = some item)
    (hm : index.modelOf visited p = some m) :
    item.demands = m.demands ∧ ¬ index.OverridesOption visited p ∨
      item.demands = [] ∧ m.demands ≠ [] ∧ index.OverridesOption visited p := by
  rw [itemOf] at hitem
  rw [modelOf] at hm
  by_cases hkind : p.kind = .macroRef
  · rcases expand_reference hi hkind (hkey hkind) with ⟨parts, hexpand, hown⟩ | hexpand
    · rw [hexpand] at hitem hm
      cases hcompiled : Expansion.compile parts with
      | none =>
        rw [Expansion.toModel, hcompiled] at hm
        exact nomatch hm
      | some own =>
        have hrequired := Expansion.demands_toItem_content hcompiled hitem hm
        rw [hcompiled] at hown
        split at hrequired
        · next hexception => exact Or.inr ⟨hrequired.1, hrequired.2, hkind, hexception.1, own,
            hown.symm, hexception.2⟩
        · next hexception =>
          refine Or.inl ⟨hrequired, ?_⟩
          rintro ⟨-, hleast, own', hown', hexception'⟩
          obtain rfl := Option.some.inj (hown.trans hown')
          exact hexception ⟨hleast, hexception'⟩
    · rw [hexpand] at hitem
      exact nomatch hitem
  · have hnone := index.macroModel?_expand_of_ne hkind (index.macrosWithout visited)
    exact Or.inl ⟨Expansion.demands_toItem hnone hitem hm, fun h => hkind h.1⟩

/-- **A particle means the same alone and among others.** It is dropped among others exactly when it
has no model alone, or an empty one. Else its item and its model have the same names, and what the
item requires the model requires, in the same order. They require the same unless the particle
overrides an option. -/
theorem itemOf_modelOf [LawfulLabel Name] (hi : index.macros.Distinct) (visited : List Name)
    (p : Particle Name) (hkey : p.kind = .macroRef → ∀ m ∈ p.key, Label.IsText m) :
    (index.itemOf visited p = none ↔ index.modelOf visited p = none ∨
      ∃ m, index.modelOf visited p = some m ∧ m.arrangement = .empty) ∧
    ∀ item, index.itemOf visited p = some item → ∃ m, index.modelOf visited p = some m ∧
      item.names = m.names ∧
      item.requiredChildren.Sublist m.requiredChildren ∧
      (item.requiredChildren = m.requiredChildren ↔ ¬ index.OverridesOption visited p) := by
  have hdropped := (index.expand (index.macrosWithout visited) p).toItem_eq_none_iff
  refine ⟨hdropped, fun item hitem => ?_⟩
  obtain ⟨m, hm⟩ : ∃ m, index.modelOf visited p = some m := by
    refine Option.ne_none_iff_exists'.mp fun hnone => ?_
    rw [itemOf, hdropped.mpr (Or.inl hnone)] at hitem
    exact nomatch hitem
  refine ⟨m, hm, Expansion.names_eq_of_toItem hitem hm, ?_⟩
  rw [Item.requiredChildren, ContentModel.requiredChildren]
  rcases demands_itemOf hi hkey hitem hm with ⟨heq, hnot⟩ | ⟨hnil, hne, hexception⟩
  · rw [heq]
    exact ⟨.refl _, fun _ => hnot, fun _ => rfl⟩
  · rw [hnil]
    refine ⟨List.nil_sublist _, fun h => ?_, fun h => absurd hexception h⟩
    exact absurd h.symm (eraseDups_ne_nil hne)

/-- A macro whose content may be left out, and requires a head when it is not. -/
def optionalHead : CorpusIndex Json where
  title := none
  edition := none
  elements := []
  macros :=
    [(.string "macro.head", ⟨.string "macro.head", none, some
        [⟨.sequence, none, Bounds.optional,
          [⟨.elementRef, some (.string "head"), Bounds.once, []⟩,
           ⟨.macroRef, some (.string "macro.head"), Bounds.once, []⟩]⟩]⟩)]
  modelClasses := []
  attributeClasses := []
  datatypes := []

/-- The head is required alone, where the bounds of the reference are the only ones, and not among
others. -/
theorem itemOf_modelOf_optionalHead :
    optionalHead.macros.Distinct ∧
      ∃ item m, optionalHead.itemOf []
          ⟨.macroRef, some (.string "macro.head"), Bounds.oneOrMore, []⟩ = some item ∧
        optionalHead.modelOf []
          ⟨.macroRef, some (.string "macro.head"), Bounds.oneOrMore, []⟩ = some m ∧
        item.names = [.string "head"] ∧ item.names = m.names ∧
        item.requiredChildren ≠ m.requiredChildren := by
  have hdistinct : optionalHead.macros.Distinct := by
    unfold Table.Distinct
    decide
  have hkey : ∀ m ∈ some (Json.string "macro.head"), Label.IsText m := by
    intro m hm
    exact ⟨Text.ofString "macro.head", (Option.some.inj hm).symm⟩
  have hitem : optionalHead.itemOf []
      ⟨.macroRef, some (.string "macro.head"), Bounds.oneOrMore, []⟩ = some
        (.group ⟨.sequence, [.element (.string "head") Bounds.once], Bounds.optional⟩
          Bounds.oneOrMore) := by
    cbv
  obtain ⟨m, hm, hnames, -, hrequired⟩ := (itemOf_modelOf hdistinct []
    ⟨.macroRef, some (.string "macro.head"), Bounds.oneOrMore, []⟩ fun _ => hkey).2 _ hitem
  refine ⟨hdistinct, _, m, hitem, hm, rfl, hnames, fun h => hrequired.mp h ?_⟩
  refine ⟨rfl, Nat.one_pos, ⟨.sequence, [.element (.string "head") Bounds.once], Bounds.optional⟩,
    ?_, by decide, rfl, by simp [Item.demandsOfAll, Item.demands, Bounds.once]⟩
  cbv

end CorpusIndex

end MarkupGrammar
