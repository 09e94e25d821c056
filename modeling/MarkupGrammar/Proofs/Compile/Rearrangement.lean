import MarkupGrammar.Proofs.Compile.Names
import MarkupGrammar.Proofs.Grammar.Rearrangement

/-!
# Expansions but for the order of members

A reference to a class expands to the members of the class, in the order in which the class lists
them. Two expansions that differ in no more than these lists are related by
`Expansion.IsRearranged`. It leaves open how the lists are related: equality gives equal expansions,
and the same texts in another order give models that are the same but for the order of names in
choices (`ContentModel.IsRearranged`), in which it does not show what is admitted or required.

## Main results

* `CorpusIndex.isRearranged_expand` — references expand to related expansions
* `Expansion.isRearranged_compile` — these become the same model but for the order of members
* `ContentModel.demands_eq_of_isRearranged` — which requires the same
* `Expansion.textsMoved_names` — and admits the same
-/

namespace MarkupGrammar

/-! ### Expansions but for the members of classes -/

section

variable {Name : Type}

mutual

/-- The same expansion, but for the names where a class is referred to. These are related to those
of the first one as is given. -/
def Expansion.IsRearranged (R : List Name → List Name → Prop) :
    Expansion Name → Expansion Name → Prop
  | .group kind parts bounds, e' =>
    ∃ parts', e' = .group kind parts' bounds ∧ Expansion.AreRearranged R parts parts'
  | .members names bounds, e' => ∃ names', e' = .members names' bounds ∧ R names names'
  | .content parts bounds, e' =>
    ∃ parts', e' = .content parts' bounds ∧ Expansion.AreRearranged R parts parts'
  | e, e' => e' = e

/-- The same expansions one by one, but for the names where a class is referred to. -/
def Expansion.AreRearranged (R : List Name → List Name → Prop) :
    List (Expansion Name) → List (Expansion Name) → Prop
  | [], es' => es' = []
  | e :: es, es' => ∃ f fs, es' = f :: fs ∧ e.IsRearranged R f ∧ Expansion.AreRearranged R es fs

end

namespace Expansion

variable {R : List Name → List Name → Prop}

mutual

/-- Expansions are the same when the members of classes are. -/
theorem eq_of_isRearranged (e : Expansion Name) {e' : Expansion Name}
    (h : e.IsRearranged (· = ·) e') : e' = e := by
  cases e with
  | group kind parts bounds =>
    obtain ⟨parts', rfl, hparts⟩ := h
    rw [eq_of_areRearranged parts hparts]
  | members names bounds =>
    obtain ⟨names', rfl, rfl⟩ := h
    rfl
  | content parts bounds =>
    obtain ⟨parts', rfl, hparts⟩ := h
    rw [eq_of_areRearranged parts hparts]
  | _ => exact h

theorem eq_of_areRearranged (es : List (Expansion Name)) {es' : List (Expansion Name)}
    (h : AreRearranged (· = ·) es es') : es' = es := by
  cases es with
  | nil => exact h
  | cons e es =>
    obtain ⟨f, fs, rfl, he, hes⟩ := h
    rw [eq_of_isRearranged e he, eq_of_areRearranged es hes]

end

mutual

/-- Whether an expansion can be used does not depend on the members of classes. -/
theorem isUsable_eq_of_isRearranged (e : Expansion Name) {e' : Expansion Name}
    (h : e.IsRearranged R e') : e'.isUsable = e.isUsable := by
  cases e with
  | group kind parts bounds =>
    obtain ⟨parts', rfl, hparts⟩ := h
    exact areUsable_eq_of_areRearranged parts hparts
  | members names bounds =>
    obtain ⟨names', rfl, -⟩ := h
    rfl
  | content parts bounds =>
    obtain ⟨parts', rfl, hparts⟩ := h
    exact areUsable_eq_of_areRearranged parts hparts
  | _ => exact congrArg isUsable h

theorem areUsable_eq_of_areRearranged (es : List (Expansion Name)) {es' : List (Expansion Name)}
    (h : AreRearranged R es es') : areUsable es' = areUsable es := by
  cases es with
  | nil => exact congrArg areUsable h
  | cons e es =>
    obtain ⟨f, fs, rfl, he, hes⟩ := h
    rw [areUsable, areUsable, isUsable_eq_of_isRearranged e he,
      areUsable_eq_of_areRearranged es hes]

end

end Expansion

end

/-! ### Expanding -/

namespace CorpusIndex

variable {Name : Type} [Label Name] {index index' : CorpusIndex Name}
  {left left' : Table Name (MacroDef Name)}

section

variable {m : Name} (hvoid : Label.isVoid m = false) (hname : Label.isName m = true)
  (bounds : Bounds) (content : List (Particle Name))

include hvoid hname

theorem expand_macroRef_of_take?_eq_none (htake : left.take? m = none) :
    index.expand left ⟨.macroRef, some m, bounds, content⟩ = .nothing := by
  rw [expand]
  simp only [hvoid, hname, Bool.not_true, Bool.false_eq_true, if_false]
  split
  · rfl
  · next hsome => cases htake.symm.trans hsome

theorem expand_macroRef_of_take?_eq_some {d : MacroDef Name} {rest : Table Name (MacroDef Name)}
    (htake : left.take? m = some (d, rest)) :
    index.expand left ⟨.macroRef, some m, bounds, content⟩ =
      match d.content with
      | none => .nothing
      | some ps => .content (index.expandAll rest ps) bounds := by
  rw [expand]
  simp only [hvoid, hname, Bool.not_true, Bool.false_eq_true, if_false]
  split
  · next hnone => cases htake.symm.trans hnone
  · next hsome =>
    obtain ⟨rfl, rfl⟩ := Prod.mk.inj (Option.some.inj (htake.symm.trans hsome))
    rfl

end

mutual

/-- **References expand to related expansions,** whatever the order of the macros. -/
theorem isRearranged_expand [LawfulLabel Name] {R : List Name → List Name → Prop}
    (hmembers : ∀ c, R (index.membersOf c) (index'.membersOf c))
    {left left' : Table Name (MacroDef Name)} (hleft : left.IsTextual) (hperm : left'.Perm left)
    (p : Particle Name) :
    (index.expand left p).IsRearranged R (index'.expand left' p) := by
  obtain ⟨kind, key, bounds, content⟩ := p
  cases kind with
  | sequence =>
    rw [expand, expand]
    exact ⟨_, rfl, areRearranged_expandAll hmembers hleft hperm content⟩
  | alternate =>
    rw [expand, expand]
    exact ⟨_, rfl, areRearranged_expandAll hmembers hleft hperm content⟩
  | interleave =>
    rw [expand, expand]
    exact ⟨_, rfl, areRearranged_expandAll hmembers hleft hperm content⟩
  | elementRef =>
    cases key with
    | none =>
      rw [expand, expand]
      exact rfl
    | some name =>
      rw [expand, expand]
      cases Label.isVoid name <;> simp [Expansion.IsRearranged]
  | classRef =>
    cases key with
    | none =>
      rw [expand, expand]
      exact rfl
    | some c =>
      rw [expand, expand]
      cases Label.isVoid c with
      | true => simp [Expansion.IsRearranged]
      | false =>
        cases Label.isName c with
        | false => simp [Expansion.IsRearranged]
        | true =>
          simp only [Bool.false_eq_true, if_false, Bool.not_true]
          exact ⟨_, rfl, hmembers c⟩
  | macroRef =>
    cases key with
    | none =>
      rw [expand, expand]
      exact rfl
    | some m =>
      cases hvoid : Label.isVoid m with
      | true =>
        rw [expand, expand]
        simp [hvoid, Expansion.IsRearranged]
      | false =>
        cases hname : Label.isName m with
        | false =>
          rw [expand, expand]
          simp [hvoid, hname, Expansion.IsRearranged]
        | true =>
          cases htake : left.take? m with
          | none =>
            have htake' : left'.take? m = none := by
              rw [Table.take?_eq_none_iff, hleft.find?_perm hperm, ← Table.take?_eq_none_iff, htake]
            rw [expand_macroRef_of_take?_eq_none hvoid hname _ _ htake,
              expand_macroRef_of_take?_eq_none hvoid hname _ _ htake']
            exact rfl
          | some found =>
            obtain ⟨d, rest⟩ := found
            have := Table.length_of_take? htake
            obtain ⟨rest', htake', hrest, hdictionary⟩ := hleft.take?_perm hperm htake
            rw [expand_macroRef_of_take?_eq_some hvoid hname _ _ htake,
              expand_macroRef_of_take?_eq_some hvoid hname _ _ htake']
            cases d.content with
            | none => exact rfl
            | some ps => exact ⟨_, rfl, areRearranged_expandAll hmembers hdictionary hrest ps⟩
  | textNode =>
    rw [expand, expand]
    exact rfl
  | empty =>
    rw [expand, expand]
    exact rfl
  | unsupported =>
    rw [expand, expand]
    exact rfl
termination_by (left.length, sizeOf p)

theorem areRearranged_expandAll [LawfulLabel Name] {R : List Name → List Name → Prop}
    (hmembers : ∀ c, R (index.membersOf c) (index'.membersOf c))
    {left left' : Table Name (MacroDef Name)} (hleft : left.IsTextual) (hperm : left'.Perm left)
    (ps : List (Particle Name)) :
    Expansion.AreRearranged R (index.expandAll left ps) (index'.expandAll left' ps) := by
  cases ps with
  | nil =>
    rw [expandAll, expandAll]
    exact rfl
  | cons p ps =>
    rw [expandAll, expandAll]
    exact ⟨_, _, rfl, isRearranged_expand hmembers hleft hperm p,
      areRearranged_expandAll hmembers hleft hperm ps⟩
termination_by (left.length, sizeOf ps)

end

end CorpusIndex

/-! ### Models but for the order of members -/

section

variable {Name : Type} [Label Name]

mutual

/-- The same model, but for choices of one element or another, whose names may be in another
order. -/
def ContentModel.IsRearranged : ContentModel Name → ContentModel Name → Prop
  | ⟨arrangement, items, bounds⟩, m' =>
    m'.arrangement = arrangement ∧ m'.bounds = bounds ∧
      (Item.AreRearranged items m'.items ∨
        arrangement = .choice ∧ ∃ names names', Label.AreReordered names names' ∧
          items = names.map (.element · Bounds.once) ∧
            m'.items = names'.map (.element · Bounds.once))

/-- The same items one by one, but for the order of names in choices. -/
def Item.AreRearranged : List (Item Name) → List (Item Name) → Prop
  | [], items' => items' = []
  | item :: items, items' =>
    ∃ item' rest', items' = item' :: rest' ∧ item.IsRearranged item' ∧
      Item.AreRearranged items rest'

/-- The same item, but for the order of names in choices. -/
def Item.IsRearranged : Item Name → Item Name → Prop
  | .group content bounds, item' =>
    ∃ content', item' = .group content' bounds ∧ content.IsRearranged content'
  | item, item' => item' = item

end

mutual

theorem ContentModel.IsRearranged.refl (m : ContentModel Name) : m.IsRearranged m := by
  obtain ⟨arrangement, items, bounds⟩ := m
  exact ⟨rfl, rfl, Or.inl (Item.AreRearranged.refl items)⟩

theorem Item.AreRearranged.refl (items : List (Item Name)) : Item.AreRearranged items items := by
  cases items with
  | nil => exact rfl
  | cons item items =>
    exact ⟨item, items, rfl, Item.IsRearranged.refl item, Item.AreRearranged.refl items⟩

theorem Item.IsRearranged.refl (item : Item Name) : item.IsRearranged item := by
  cases item with
  | group content bounds => exact ⟨content, rfl, ContentModel.IsRearranged.refl content⟩
  | _ => exact rfl

end

mutual

/-- Models require the same whatever the order in their choices, of which nothing is required. -/
theorem ContentModel.demands_eq_of_isRearranged (m : ContentModel Name) {m' : ContentModel Name}
    (h : m.IsRearranged m') : m'.demands = m.demands := by
  obtain ⟨arrangement, items, bounds⟩ := m
  obtain ⟨arrangement', items', bounds'⟩ := m'
  obtain ⟨rfl, rfl, hitems⟩ := h
  rw [ContentModel.demands, ContentModel.demands]
  rcases hitems with hitems | ⟨hchoice, -⟩
  · rw [Item.demandsOfAll_eq_of_areRearranged items hitems]
  · simp only at hchoice
    simp [hchoice]

theorem Item.demandsOfAll_eq_of_areRearranged (items : List (Item Name))
    {items' : List (Item Name)} (h : Item.AreRearranged items items') :
    Item.demandsOfAll items' = Item.demandsOfAll items := by
  cases items with
  | nil => exact congrArg Item.demandsOfAll h
  | cons item items =>
    obtain ⟨item', rest', rfl, hitem, hitems⟩ := h
    rw [Item.demandsOfAll, Item.demandsOfAll, Item.demands_eq_of_isRearranged item hitem,
      Item.demandsOfAll_eq_of_areRearranged items hitems]

theorem Item.demands_eq_of_isRearranged (item : Item Name) {item' : Item Name}
    (h : item.IsRearranged item') : item'.demands = item.demands := by
  cases item with
  | group content bounds =>
    obtain ⟨content', rfl, hcontent⟩ := h
    rw [Item.demands, Item.demands, ContentModel.demands_eq_of_isRearranged content hcontent]
  | _ => exact congrArg Item.demands h

end

theorem ContentModel.IsRearranged.withBounds {m m' : ContentModel Name} (h : m.IsRearranged m')
    (bounds : Bounds) : (m.withBounds bounds).IsRearranged (m'.withBounds bounds) := by
  obtain ⟨arrangement, items, _⟩ := m
  exact ⟨h.1, rfl, h.2.2⟩

/-- A class is a choice of its members in the order in which it lists them. -/
theorem ContentModel.isRearranged_ofMembers {names names' : List Name}
    (h : Label.AreReordered names names') (bounds : Bounds) :
    Option.Rel IsRearranged (ofMembers names bounds) (ofMembers names' bounds) := by
  cases names with
  | nil =>
    obtain rfl := h.perm.eq_nil
    exact .none
  | cons n names =>
    cases names' with
    | nil => exact nomatch h.perm.symm.eq_nil
    | cons n' names' => exact .some ⟨rfl, rfl, Or.inr ⟨rfl, _, _, h, rfl, rfl⟩⟩

end

namespace Expansion

variable {Name : Type} [Label Name]

theorem rel_self {α : Type} {R : α → α → Prop} (h : ∀ a, R a a) (o : Option α) :
    Option.Rel R o o := by
  cases o with
  | none => exact .none
  | some a => exact .some (h a)

/-- The items of related expansions, one after the other. -/
theorem areRearranged_cons {e e' : Expansion Name} {es es' : List (Expansion Name)}
    (he : Option.Rel Item.IsRearranged e.toItem e'.toItem)
    (hes : Item.AreRearranged (toItems es) (toItems es')) :
    Item.AreRearranged (toItems (e :: es)) (toItems (e' :: es')) := by
  rw [toItems_cons, toItems_cons]
  generalize e.toItem = i, e'.toItem = i' at he ⊢
  cases he with
  | none => exact hes
  | some hi => exact ⟨_, _, rfl, hi, hes⟩

mutual

theorem isRearranged_toModel (e : Expansion Name) {e' : Expansion Name}
    (h : e.IsRearranged Label.AreReordered e') :
    Option.Rel ContentModel.IsRearranged e.toModel e'.toModel := by
  cases e with
  | group kind parts bounds =>
    obtain ⟨parts', rfl, hparts⟩ := h
    exact .some ⟨rfl, rfl, Or.inl (areRearranged_toItems parts hparts)⟩
  | members names bounds =>
    obtain ⟨names', rfl, hnames⟩ := h
    exact ContentModel.isRearranged_ofMembers hnames bounds
  | content parts bounds =>
    obtain ⟨parts', rfl, hparts⟩ := h
    have hmodel := isRearranged_compile parts hparts
    rw [toModel, toModel]
    generalize compile parts = m, compile parts' = m' at hmodel ⊢
    cases hmodel with
    | none => exact .none
    | some hm => exact .some (hm.withBounds bounds)
  | _ =>
    obtain rfl : e' = _ := h
    exact rel_self ContentModel.IsRearranged.refl _

theorem isRearranged_toItem (e : Expansion Name) {e' : Expansion Name}
    (h : e.IsRearranged Label.AreReordered e') :
    Option.Rel Item.IsRearranged e.toItem e'.toItem := by
  cases e with
  | group kind parts bounds =>
    obtain ⟨parts', rfl, hparts⟩ := h
    exact .some ⟨_, rfl, rfl, rfl, Or.inl (areRearranged_toItems parts hparts)⟩
  | members names bounds =>
    obtain ⟨names', rfl, hnames⟩ := h
    have hmodel := ContentModel.isRearranged_ofMembers hnames Bounds.once
    rw [toItem, toItem]
    generalize ContentModel.ofMembers names Bounds.once = m,
      ContentModel.ofMembers names' Bounds.once = m' at hmodel ⊢
    cases hmodel with
    | none => exact .none
    | some hm => exact .some ⟨_, rfl, hm⟩
  | content parts bounds =>
    obtain ⟨parts', rfl, hparts⟩ := h
    have hmodel := isRearranged_compile parts hparts
    rw [toItem, toItem]
    generalize compile parts = m, compile parts' = m' at hmodel ⊢
    cases hmodel with
    | none => exact .none
    | @some m m' hm =>
      have harrangement : m'.arrangement = m.arrangement := by
        obtain ⟨arrangement, items, bounds⟩ := m
        exact hm.1
      simp only [harrangement]
      split
      · exact .none
      · exact .some ⟨_, rfl, hm⟩
  | _ =>
    obtain rfl : e' = _ := h
    exact rel_self Item.IsRearranged.refl _

theorem areRearranged_toItems (es : List (Expansion Name)) {es' : List (Expansion Name)}
    (h : AreRearranged Label.AreReordered es es') :
    Item.AreRearranged (toItems es) (toItems es') := by
  cases es with
  | nil =>
    obtain rfl : es' = [] := h
    exact rfl
  | cons e es =>
    obtain ⟨f, fs, rfl, he, hes⟩ := h
    exact areRearranged_cons (isRearranged_toItem e he) (areRearranged_toItems es hes)

/-- **Related expansions become the same model but for the order of members,** or none of them
becomes one. -/
theorem isRearranged_compile (es : List (Expansion Name)) {es' : List (Expansion Name)}
    (h : AreRearranged Label.AreReordered es es') :
    Option.Rel ContentModel.IsRearranged (compile es) (compile es') := by
  match es with
  | [] =>
    obtain rfl : es' = [] := h
    exact .some ⟨rfl, rfl, Or.inl rfl⟩
  | [e] =>
    obtain ⟨f, fs, rfl, he, hes⟩ := h
    obtain rfl : fs = [] := hes
    exact isRearranged_toModel e he
  | e :: g :: es =>
    obtain ⟨e', fs, rfl, he, g', es', rfl, hg, hes⟩ := h
    have hitems : Item.AreRearranged (toItems (e :: g :: es)) (toItems (e' :: g' :: es')) :=
      areRearranged_cons (isRearranged_toItem e he)
        (areRearranged_toItems (g :: es) ⟨g', es', rfl, hg, hes⟩)
    rw [compile_cons_cons, compile_cons_cons]
    generalize toItems (e :: g :: es) = items, toItems (e' :: g' :: es') = items' at hitems ⊢
    cases items with
    | nil =>
      obtain rfl : items' = [] := hitems
      exact .none
    | cons item items =>
      obtain ⟨item', rest', rfl, hitem, hrest⟩ := hitems
      exact .some ⟨rfl, rfl, Or.inl ⟨item', rest', rfl, hitem, hrest⟩⟩

end

mutual

/-- **Related expansions name the same elements,** with no other than texts in another order. -/
theorem textsMoved_names (e : Expansion Json) {e' : Expansion Json}
    (h : e.IsRearranged Label.AreReordered e') : Json.TextsMoved e.names e'.names := by
  cases e with
  | group kind parts bounds =>
    obtain ⟨parts', rfl, hparts⟩ := h
    exact textsMoved_namesOfAll parts hparts
  | members names bounds =>
    obtain ⟨names', rfl, hnames⟩ := h
    exact hnames.textsMoved
  | content parts bounds =>
    obtain ⟨parts', rfl, hparts⟩ := h
    exact textsMoved_namesOfAll parts hparts
  | _ =>
    obtain rfl : e' = _ := h
    exact .refl _

theorem textsMoved_namesOfAll (es : List (Expansion Json)) {es' : List (Expansion Json)}
    (h : AreRearranged Label.AreReordered es es') :
    Json.TextsMoved (namesOfAll es) (namesOfAll es') := by
  cases es with
  | nil =>
    obtain rfl : es' = [] := h
    exact .refl _
  | cons e es =>
    obtain ⟨f, fs, rfl, he, hes⟩ := h
    rw [namesOfAll, namesOfAll]
    exact (textsMoved_names e he).append (textsMoved_namesOfAll es hes)

end

end Expansion

end MarkupGrammar
