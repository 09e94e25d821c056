import MarkupGrammar.RelaxNg.Compile
import MarkupGrammar.Proofs.Check.Emptiness
import MarkupGrammar.Proofs.RelaxNg.Reference

/-!
# Empty models of an imported grammar

A pattern without content should add nothing to the content of an element. The import sees to it
for a repetition: a wrapper that holds attributes only is left out. For a reference it does not. A
reference to a definition without content becomes a group with an empty model when it stands among
others, and an empty model, however deep, is checked against all children. So such a reference
forbids the children that the patterns beside it allow.

This module says exactly when that happens: when the patterns of an element have a bare reference.
What it says of models is said of patterns whose references are expanded, where no definitions are
at hand any more.

## Main results

* `isEmpty_contentModel_iff` — the model of patterns without content is empty, and no other
* `items_contentModel` — an empty model has no items
* `nestsEmpty_contentModel_iff` — empty models are nested for bare references only
-/

namespace MarkupGrammar

namespace Pattern

variable {ps : List Pattern}

/-! ### Models and items by content -/

theorem toItem_eq_none {p : Pattern} (h : p.isContent = false) : toItem p = none := by
  cases p with
  | attr a => rw [toItem]
  | commentary => rw [toItem]
  | misnamed name => rw [toItem]
  | _ => exact nomatch h

theorem toItems_eq_filterMap (ps : List Pattern) : toItems ps = ps.filterMap toItem := by
  induction ps with
  | nil => rw [toItems]; rfl
  | cons p ps ih =>
    rw [toItems, ih, List.filterMap_cons]
    cases toItem p <;> rfl

theorem content_cons (p : Pattern) (ps : List Pattern) :
    content (p :: ps) = if p.isContent then p :: content ps else content ps :=
  List.filter_cons

theorem content_singleton {p : Pattern} (h : p.isContent = true) : content [p] = [p] := by
  rw [content_cons, if_pos h]
  rfl

theorem toItems_content (ps : List Pattern) : toItems (content ps) = toItems ps := by
  induction ps with
  | nil => rfl
  | cons p ps ih =>
    rw [content_cons]
    cases h : p.isContent with
    | true => rw [if_pos rfl, toItems, toItems, ih]
    | false =>
      rw [if_neg Bool.false_ne_true, ih, toItems, toItem_eq_none h]
      rfl

theorem any_isContent_eq (ps : List Pattern) : ps.any isContent = !(content ps).isEmpty := by
  induction ps with
  | nil => rfl
  | cons p ps ih => rw [List.any_cons, content_cons, ih]; cases p.isContent <;> simp

/-- The model of a list, by the content in it. -/
theorem contentModel_eq (ps : List Pattern) :
    contentModel ps =
      match content ps with
      | [] => some ⟨.empty, [], Bounds.never⟩
      | [p] => toModel p
      | _ => some ⟨.sequence, toItems ps, Bounds.once⟩ := by
  induction ps with
  | nil => rw [contentModel]; rfl
  | cons p ps ih =>
    rw [contentModel, content_cons]
    cases hp : p.isContent with
    | false =>
      have hitems : toItems (p :: ps) = toItems ps := by rw [toItems, toItem_eq_none hp]; rfl
      simpa [hitems] using ih
    | true =>
      rw [any_isContent_eq]
      cases content ps with
      | nil => rfl
      | cons q others => rw [toItems]; rfl

theorem anyNestsEmpty_map_withBounds (bounds : Bounds) (items : List (Item Text)) :
    Item.anyNestsEmpty (items.map (Item.withBounds bounds)) = Item.anyNestsEmpty items := by
  induction items with
  | nil => rfl
  | cons item items ih =>
    rw [List.map_cons, Item.anyNestsEmpty, Item.anyNestsEmpty, ih]
    cases item <;> rfl

@[simp] theorem nestsEmpty_rebound (m : ContentModel Text) (bounds : Bounds) :
    (m.rebound bounds).nestsEmpty = m.nestsEmpty := by
  obtain ⟨arrangement, items, b⟩ := m
  rw [ContentModel.rebound]
  split
  · exact anyNestsEmpty_map_withBounds bounds items
  · rfl

@[simp] theorem arrangement_rebound (m : ContentModel Text) (bounds : Bounds) :
    (m.rebound bounds).arrangement = m.arrangement := by
  rw [ContentModel.rebound]
  split <;> rfl

theorem items_rebound (m : ContentModel Text) (bounds : Bounds) (h : m.items = []) :
    (m.rebound bounds).items = [] := by
  rw [ContentModel.rebound]
  split
  · simp [h]
  · exact h

/-! ### Empty models -/

theorem arrangement_combine_ne_empty (kind : CombineKind) : kind.arrangement ≠ .empty := by
  cases kind <;> exact nofun

/-- **The model of patterns without content is empty,** and no other model is. -/
theorem isEmpty_contentModel_iff (ps : List Pattern) :
    (contentModel ps).any (fun m => m.arrangement = .empty) = true ↔ Contentless [] ps := by
  rw [contentModel_eq, contentless_iff]
  cases hps : content ps with
  | nil => simp
  | cons p others =>
    cases others with
    | cons q others => simp
    | nil =>
      have hmem : p ∈ ps := (mem_content_iff.mp (hps ▸ List.mem_singleton.mpr rfl)).1
      cases p with
      | occurs kind body =>
        have : sizeOf body < sizeOf ps := sizeOf_lt_of_occurs_mem hmem
        simp only [toModel, Option.any_map, arrangement_rebound]
        exact isEmpty_contentModel_iff body
      | resolved name body =>
        have : sizeOf body < sizeOf ps := sizeOf_lt_of_resolved_mem hmem
        simp only [toModel]
        rw [← isEmpty_contentModel_iff body]
        cases contentModel body <;> simp
      | combine kind body => simp [toModel, arrangement_combine_ne_empty]
      | _ => simp [toModel, Table.find?]
termination_by sizeOf ps

/-- An empty model has no items. -/
theorem items_contentModel (ps : List Pattern) {m : ContentModel Text}
    (h : contentModel ps = some m) (hm : m.arrangement = .empty) : m.items = [] := by
  rw [contentModel_eq] at h
  cases hps : content ps with
  | nil =>
    rw [hps] at h
    obtain rfl := Option.some.inj h
    rfl
  | cons p others =>
    cases others with
    | cons q others =>
      rw [hps] at h
      obtain rfl := Option.some.inj h
      exact nomatch hm
    | nil =>
      rw [hps] at h
      simp only at h
      have hmem : p ∈ ps := (mem_content_iff.mp (hps ▸ List.mem_singleton.mpr rfl)).1
      cases p with
      | occurs kind body =>
        have : sizeOf body < sizeOf ps := sizeOf_lt_of_occurs_mem hmem
        rw [toModel] at h
        obtain ⟨m', hm', rfl⟩ := Option.map_eq_some_iff.mp h
        rw [arrangement_rebound] at hm
        exact items_rebound m' _ (items_contentModel body hm' hm)
      | resolved name body =>
        have : sizeOf body < sizeOf ps := sizeOf_lt_of_resolved_mem hmem
        rw [toModel] at h
        cases hbody : contentModel body with
        | none =>
          rw [hbody] at h
          obtain rfl := Option.some.inj h
          exact nomatch hm
        | some m' =>
          rw [hbody] at h
          obtain rfl := Option.some.inj h
          exact items_contentModel body hbody hm
      | combine kind body =>
        rw [toModel] at h
        obtain rfl := Option.some.inj h
        exact (arrangement_combine_ne_empty kind hm).elim
      | empty =>
        rw [toModel] at h
        obtain rfl := Option.some.inj h
        rfl
      | _ =>
        rw [toModel] at h
        cases h <;> cases hm
termination_by sizeOf ps

/-! ### Nested empty models -/

theorem anyNestsEmpty_ownItems (kind : CombineKind) :
    Item.anyNestsEmpty kind.ownItems = false := by
  cases kind <;> rfl

theorem anyNestsEmpty_unresolvedItem (name : Text) :
    Item.anyNestsEmpty (unresolvedItem name).toList = false := by
  rw [unresolvedItem]
  split <;> rfl

theorem anyNestsEmpty_elementItem (name : Text) :
    Item.anyNestsEmpty (elementItem name).toList = false := by
  rw [elementItem]
  split <;> rfl

theorem HasBareReference.isContent {defines : Table Text (List Pattern)} {p : Pattern}
    (h : HasBareReference defines [p]) : p.isContent = true := by
  rw [hasBareReference_singleton_iff] at h
  cases p <;> first | rfl | exact h.elim

/-- A single content pattern with a bare reference, by its kind. -/
theorem hasBareReference_singleton_iff_of_content {p : Pattern}
    {defines : Table Text (List Pattern)} (hps : content ps = [p]) :
    HasBareReference defines ps ↔ HasBareReference defines [p] := by
  rw [hasBareReference_iff, hps]
  constructor
  · rintro (⟨htwo, -⟩ | ⟨q, hq, h⟩)
    · simp at htwo
    · rwa [← eq_of_mem_of_content_eq hps hq h.isContent]
  · exact fun h => Or.inr ⟨p, (mem_content_iff.mp (hps ▸ List.mem_singleton.mpr rfl)).1, h⟩

theorem isBare_resolved_iff {defines : Table Text (List Pattern)} {name : Text}
    {body : List Pattern} : IsBare defines (.resolved name body) ↔ Contentless defines body := by
  rw [IsBare, contentless_iff [_], content_singleton rfl]
  simp [isReference]

theorem not_isBare_ref (name : Text) : ¬ IsBare [] (.ref name) := by
  rw [IsBare, contentless_iff, content_singleton rfl]
  simp [Table.find?]

theorem exists_isBare_or_hasBareReference_iff {defines : Table Text (List Pattern)} :
    (∃ p ∈ ps, IsBare defines p ∨ HasBareReference defines [p]) ↔
      (∃ q ∈ ps, IsBare defines q) ∨ HasBareReference defines ps := by
  rw [hasBareReference_iff ps]
  constructor
  · rintro ⟨p, hp, hbare | h⟩
    · exact Or.inl ⟨p, hp, hbare⟩
    · exact Or.inr (Or.inr ⟨p, hp, h⟩)
  · rintro (⟨p, hp, hbare⟩ | ⟨-, p, hp, hbare⟩ | ⟨p, hp, h⟩)
    · exact ⟨p, hp, Or.inl hbare⟩
    · exact ⟨p, hp, Or.inl hbare⟩
    · exact ⟨p, hp, Or.inr h⟩

mutual

/-- The model of a list of patterns nests an empty model for a bare reference. -/
theorem nestsEmpty_contentModel_iff (ps : List Pattern) :
    (contentModel ps).any ContentModel.nestsEmpty = true ↔ HasBareReference [] ps := by
  rw [contentModel_eq]
  cases hps : content ps with
  | nil => simp [ContentModel.nestsEmpty, Item.anyNestsEmpty, HasBareReference,
      (Contentless.none hps).not_among]
  | cons p others =>
    cases others with
    | nil =>
      have hmem : p ∈ ps := (mem_content_iff.mp (hps ▸ List.mem_singleton.mpr rfl)).1
      have := List.sizeOf_lt_of_mem hmem
      rw [hasBareReference_singleton_iff_of_content hps]
      exact nestsEmpty_toModel_iff p
    | cons q others =>
      have htwo : 2 ≤ (content ps).length := by simp [hps]
      simp only [Option.any_some, ContentModel.nestsEmpty]
      rw [anyNestsEmpty_toItems_iff ps, exists_isBare_or_hasBareReference_iff]
      refine or_iff_right_of_imp ?_
      rintro ⟨q, hq, hbare⟩
      exact ⟨q, hbare, .beside hq htwo⟩
termination_by (sizeOf ps, 1)

theorem nestsEmpty_toModel_iff (p : Pattern) :
    (toModel p).any ContentModel.nestsEmpty = true ↔ HasBareReference [] [p] := by
  rw [hasBareReference_singleton_iff]
  cases p with
  | combine kind body =>
    simp only [toModel, Option.any_some, ContentModel.nestsEmpty, Item.anyNestsEmpty_append,
      anyNestsEmpty_ownItems, Bool.false_or]
    rw [anyNestsEmpty_toItems_iff body, exists_isBare_or_hasBareReference_iff]
  | occurs kind body =>
    simp only [toModel, Option.any_map, nestsEmpty_rebound]
    exact nestsEmpty_contentModel_iff body
  | resolved name body =>
    simp only [toModel]
    rw [← nestsEmpty_contentModel_iff body]
    cases contentModel body with
    | none => simp [ContentModel.nestsEmpty, anyNestsEmpty_unresolvedItem]
    | some m => rfl
  | ref name =>
    simp [toModel, ContentModel.nestsEmpty, anyNestsEmpty_unresolvedItem, Table.find?]
  | element name =>
    simp [toModel, ContentModel.nestsEmpty, anyNestsEmpty_elementItem]
  | _ => simp [toModel, ContentModel.nestsEmpty, Item.anyNestsEmpty]
termination_by (sizeOf p, 0)

theorem nestsEmpty_toItem_iff (p : Pattern) :
    Item.anyNestsEmpty (toItem p).toList = true ↔ IsBare [] p ∨ HasBareReference [] [p] := by
  rw [hasBareReference_singleton_iff]
  cases p with
  | combine kind body =>
    simp only [toItem, Option.toList_some, Item.anyNestsEmpty, Item.nestsEmpty,
      arrangement_combine_ne_empty, ContentModel.nestsEmpty, Item.anyNestsEmpty_append,
      anyNestsEmpty_ownItems, decide_false, Bool.false_or, Bool.or_false]
    rw [anyNestsEmpty_toItems_iff body, exists_isBare_or_hasBareReference_iff]
    simp [IsBare, isReference]
  | occurs kind body =>
    have hbare : ¬ IsBare [] (.occurs kind body) := fun h => nomatch h.1
    dsimp only
    rw [or_iff_right hbare, ← nestsEmpty_contentModel_iff body]
    cases hm : contentModel body with
    | none => simp [toItem, hm, Item.anyNestsEmpty]
    | some m =>
      have hitems := items_contentModel body hm
      by_cases harrangement : m.arrangement = .empty
      · obtain ⟨arrangement, items, bounds⟩ := m
        obtain rfl := harrangement
        obtain rfl := hitems rfl
        simp [toItem, hm, ContentModel.isVacuous, ContentModel.nestsEmpty, Item.anyNestsEmpty]
      · simp [toItem, hm, ContentModel.isVacuous, harrangement, Item.anyNestsEmpty,
          Item.nestsEmpty]
  | resolved name body =>
    dsimp only
    rw [isBare_resolved_iff, ← isEmpty_contentModel_iff, ← nestsEmpty_contentModel_iff body]
    cases hm : contentModel body with
    | none => simp [toItem, hm, anyNestsEmpty_unresolvedItem]
    | some m => simp [toItem, hm, Item.anyNestsEmpty, Item.nestsEmpty]
  | ref name => simp [toItem, anyNestsEmpty_unresolvedItem, not_isBare_ref, Table.find?]
  | element name => simp [toItem, anyNestsEmpty_elementItem, IsBare, isReference]
  | _ => simp [toItem, Item.anyNestsEmpty, Item.nestsEmpty, IsBare, isReference]
termination_by (sizeOf p, 0)

/-- The items of a list of patterns nest an empty model for a bare reference among them or in one
of them. -/
theorem anyNestsEmpty_toItems_iff (ps : List Pattern) :
    Item.anyNestsEmpty (toItems ps) = true ↔
      ∃ p ∈ ps, IsBare [] p ∨ HasBareReference [] [p] := by
  cases ps with
  | nil => simp [toItems, Item.anyNestsEmpty]
  | cons p ps =>
    rw [toItems, Item.anyNestsEmpty_append, Bool.or_eq_true, nestsEmpty_toItem_iff p,
      anyNestsEmpty_toItems_iff ps]
    simp only [List.mem_cons, exists_eq_or_imp]
termination_by (sizeOf ps, 0)

end

end Pattern

end MarkupGrammar
