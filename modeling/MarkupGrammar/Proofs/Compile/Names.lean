import MarkupGrammar.Compile.Model
import Mathlib.Tactic.Common

/-!
# The names in an expansion

An expansion becomes a model or an item, and on the way parts of it disappear: a particle that
stands for nothing, a group of several that leaves no item, a macro whose model is empty. None of
these holds the name of an element. So the names in the model are the names in the expansion, in
the same order and with the same repetitions.

The one case that needs an argument is the macro that is dropped among other particles because its
model is empty: `Expansion.compile_items_of_empty` says that a compiled model of that arrangement
has no items.
-/

namespace MarkupGrammar

variable {Name : Type}

namespace Expansion

mutual

/-- The names of the elements in an expansion, in order, with repetitions. -/
def names : Expansion Name → List Name
  | .group _ parts _ => namesOfAll parts
  | .element name _ => [name]
  | .members names _ => names
  | .content parts _ => namesOfAll parts
  | .text _ => []
  | .empty => []
  | .nothing => []
  | .unusable => []

/-- The names of the elements in a list of expansions. -/
def namesOfAll : List (Expansion Name) → List Name
  | [] => []
  | e :: es => e.names ++ namesOfAll es

end

/-- The names in a model that may be missing. -/
def namesOf (m : Option (ContentModel Name)) : List Name := m.elim [] ContentModel.names

/-! ### Compiling a list -/

theorem toItems_cons (e : Expansion Name) (es : List (Expansion Name)) :
    toItems (e :: es) = e.toItem.toList ++ toItems es := by
  rw [toItems]
  cases e.toItem <;> rfl

theorem compile_cons_cons (e f : Expansion Name) (es : List (Expansion Name)) :
    compile (e :: f :: es) =
      match toItems (e :: f :: es) with
      | [] => none
      | items => some ⟨.sequence, items, Bounds.once⟩ := rfl

/-- A class becomes a choice of its members, unless there are none. -/
theorem names_ofMembers (ns : List Name) (bounds : Bounds) :
    namesOf (ContentModel.ofMembers ns bounds) = ns := by
  have hmap : ∀ ns : List Name,
      Item.namesOfAll (ns.map fun n => Item.element n Bounds.once) = ns := by
    intro ns
    induction ns with
    | nil => rfl
    | cons n ns ih => simp [Item.namesOfAll, Item.names, ih]
  cases ns with
  | nil => rfl
  | cons n ns => exact hmap (n :: ns)

/-! ### Empty models hold nothing -/

mutual

theorem toModel_items_of_empty (e : Expansion Name) {m : ContentModel Name}
    (hm : e.toModel = some m) (he : m.arrangement = .empty) : m.items = [] := by
  cases e with
  | group kind parts bounds =>
    obtain rfl := Option.some.inj hm
    cases kind <;> exact absurd he (by simp [GroupKind.arrangement])
  | element name bounds =>
    obtain rfl := Option.some.inj hm
    exact absurd he (by simp)
  | members ns bounds =>
    cases ns with
    | nil => exact absurd hm (by simp [toModel, ContentModel.ofMembers])
    | cons n ns =>
      obtain rfl := Option.some.inj hm
      exact absurd he (by simp)
  | content parts bounds =>
    rw [toModel] at hm
    obtain ⟨m', hm', rfl⟩ := Option.map_eq_some_iff.mp hm
    have hitems : m'.items = [] := compile_items_of_empty parts hm' he
    exact hitems
  | text bounds =>
    obtain rfl := Option.some.inj hm
    rfl
  | empty =>
    obtain rfl := Option.some.inj hm
    rfl
  | nothing => exact absurd hm (by simp [toModel])
  | unusable => exact absurd hm (by simp [toModel])

/-- A compiled model of the empty arrangement has no items. -/
theorem compile_items_of_empty (es : List (Expansion Name)) {m : ContentModel Name}
    (hm : compile es = some m) (he : m.arrangement = .empty) : m.items = [] := by
  match es with
  | [] =>
    obtain rfl := Option.some.inj hm
    rfl
  | [e] => exact toModel_items_of_empty e hm he
  | e :: f :: es =>
    rw [compile_cons_cons] at hm
    split at hm
    · exact absurd hm (by simp)
    · obtain rfl := Option.some.inj hm
      exact absurd he (by simp)

end

/-! ### Names are kept -/

theorem names_eq_namesOfAll (m : ContentModel Name) : m.names = Item.namesOfAll m.items := by
  cases m
  rfl

theorem names_withBounds (m : ContentModel Name) (bounds : Bounds) :
    (m.withBounds bounds).names = m.names := by
  rw [names_eq_namesOfAll, names_eq_namesOfAll]
  rfl

theorem names_of_items_eq_nil {m : ContentModel Name} (h : m.items = []) : m.names = [] := by
  rw [names_eq_namesOfAll, h]
  rfl

theorem namesOfAll_append (xs ys : List (Item Name)) :
    Item.namesOfAll (xs ++ ys) = Item.namesOfAll xs ++ Item.namesOfAll ys := by
  induction xs with
  | nil => rfl
  | cons x xs ih => simp [Item.namesOfAll, ih]

mutual

theorem names_toModel (e : Expansion Name) : namesOf e.toModel = e.names := by
  cases e with
  | group kind parts bounds => exact namesOfAll_toItems parts
  | element name bounds => rfl
  | members ns bounds => exact names_ofMembers ns bounds
  | content parts bounds =>
    rw [names, ← names_compile parts, toModel]
    cases compile parts with
    | none => rfl
    | some m => exact names_withBounds m bounds
  | text bounds => rfl
  | empty => rfl
  | nothing => rfl
  | unusable => rfl

theorem names_toItem (e : Expansion Name) : Item.namesOfAll e.toItem.toList = e.names := by
  cases e with
  | group kind parts bounds =>
    rw [names, ← namesOfAll_toItems parts, toItem, Option.toList_some]
    simp [Item.namesOfAll, Item.names, names_eq_namesOfAll]
  | element name bounds => rfl
  | members ns bounds =>
    have hns := names_ofMembers ns Bounds.once
    rw [names, toItem]
    cases hm : ContentModel.ofMembers ns Bounds.once with
    | none =>
      rw [hm] at hns
      exact hns
    | some m =>
      rw [hm] at hns
      simpa [namesOf, Item.namesOfAll, Item.names] using hns
  | content parts bounds =>
    rw [names, ← names_compile parts, toItem]
    cases hm : compile parts with
    | none => rfl
    | some m =>
      by_cases he : m.arrangement = .empty
      · have hitems : m.items = [] := compile_items_of_empty parts hm he
        simp [he, namesOf, names_of_items_eq_nil hitems, Item.namesOfAll]
      · simp [he, namesOf, Item.namesOfAll, Item.names]
  | text bounds => rfl
  | empty => rfl
  | nothing => rfl
  | unusable => rfl

theorem namesOfAll_toItems (es : List (Expansion Name)) :
    Item.namesOfAll (toItems es) = namesOfAll es := by
  cases es with
  | nil => rfl
  | cons e es =>
    rw [toItems_cons, namesOfAll_append, names_toItem e, namesOfAll_toItems es, namesOfAll]

/-- **Compilation keeps the names of an expansion**, in order and with repetitions. -/
theorem names_compile (es : List (Expansion Name)) : namesOf (compile es) = namesOfAll es := by
  match es with
  | [] => rfl
  | [e] => rw [namesOfAll, namesOfAll, List.append_nil, ← names_toModel e]; rfl
  | e :: f :: es =>
    have hitems : Item.namesOfAll (toItems (e :: f :: es)) = namesOfAll (e :: f :: es) := by
      rw [toItems_cons, namesOfAll_append, names_toItem e, namesOfAll_toItems (f :: es)]
      rfl
    rw [← hitems, compile_cons_cons]
    split
    · next h => rw [h]; rfl
    · rfl

end

end Expansion

end MarkupGrammar
