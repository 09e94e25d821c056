import MarkupGrammar.Proofs.Check.Conformance

/-!
# Where no children may stand

An empty model admits no children, and the check of a sequence looks at the same children once more
for each group in it. So an empty model inside another forbids what the other admits. A defect of
this kind always comes from an empty model, and where no empty model is nested it comes from the
model of the element itself.

## Main results

* `ContentModel.isEmpty_or_nestsEmpty` — children are refused by an empty model only
-/

namespace MarkupGrammar

variable {Name Place : Type}

mutual

/-- Whether an empty model stands inside a group of the model. -/
def ContentModel.nestsEmpty : ContentModel Name → Bool
  | ⟨_, items, _⟩ => Item.anyNestsEmpty items

/-- Whether one of the items is a group that is empty or nests an empty model. -/
def Item.anyNestsEmpty : List (Item Name) → Bool
  | [] => false
  | item :: items => item.nestsEmpty || Item.anyNestsEmpty items

/-- Whether the item is a group that is empty or nests an empty model. -/
def Item.nestsEmpty : Item Name → Bool
  | .group content _ => content.arrangement = .empty || content.nestsEmpty
  | .element _ _ => false
  | .text _ => false
  | .pattern _ _ => false

end

@[simp] theorem Item.anyNestsEmpty_append (items others : List (Item Name)) :
    Item.anyNestsEmpty (items ++ others)
      = (Item.anyNestsEmpty items || Item.anyNestsEmpty others) := by
  induction items with
  | nil => rfl
  | cons item items ih =>
    rw [List.cons_append, anyNestsEmpty, anyNestsEmpty, ih, Bool.or_assoc]

namespace Finding

/-- Whether a finding says that there should be no children. -/
def isNotEmpty : Finding Name → Bool
  | .notEmpty _ => true
  | _ => false

end Finding

variable [BEq Name]

/-- The defects of children under the content model of an element, if it has one. -/
def checkUnder (parent : Text) (children : List (Child Name Place)) :
    Option (ContentModel Name) → List (Diagnostic Name Place)
  | none => []
  | some m => m.check parent children

@[simp] theorem Item.checkAll_append (parent : Text) (children : List (Child Name Place))
    (items others : List (Item Name)) :
    Item.checkAll parent children (items ++ others)
      = Item.checkAll parent children items ++ Item.checkAll parent children others := by
  induction items with
  | nil => rfl
  | cons item items ih =>
    rw [List.cons_append, checkAll, checkAll, ih, List.append_assoc]

theorem isNotEmpty_of_mem_checkChoice {parent : Text} {items : List (Item Name)}
    {children : List (Child Name Place)} {d : Diagnostic Name Place}
    (hd : d ∈ checkChoice parent items children) : d.finding.isNotEmpty = false := by
  obtain ⟨child, -, other, rfl⟩ := exists_of_mem_checkChoice hd
  rfl

theorem isNotEmpty_of_mem_checkCount {parent : Text} {name : Name} {bounds : Bounds}
    {children : List (Child Name Place)} {d : Diagnostic Name Place}
    (hd : d ∈ checkCount parent name bounds children) : d.finding.isNotEmpty = false := by
  obtain ⟨child, -, -, rfl | ⟨most, rfl⟩⟩ := exists_of_mem_checkCount hd <;> rfl

mutual

/-- **Children are refused by an empty model only:** the element's own, or one that is nested in
it. -/
theorem ContentModel.isEmpty_or_nestsEmpty {parent : Text} {children : List (Child Name Place)}
    (m : ContentModel Name) {d : Diagnostic Name Place} (hd : d ∈ m.check parent children)
    (hfinding : d.finding.isNotEmpty = true) : m.arrangement = .empty ∨ m.nestsEmpty = true := by
  obtain ⟨arrangement, items, bounds⟩ := m
  cases arrangement with
  | choice => exact nomatch (isNotEmpty_of_mem_checkChoice hd).symm.trans hfinding
  | sequence => exact Or.inr (Item.anyNestsEmpty_of_mem_checkAll items hd hfinding)
  | interleave => exact Or.inr (Item.anyNestsEmpty_of_mem_checkAll items hd hfinding)
  | group => exact Or.inr (Item.anyNestsEmpty_of_mem_checkAll items hd hfinding)
  | empty => exact Or.inl rfl
  | element => exact nomatch hd
  | text => exact nomatch hd

theorem Item.anyNestsEmpty_of_mem_checkAll {parent : Text} {children : List (Child Name Place)}
    (items : List (Item Name)) {d : Diagnostic Name Place}
    (hd : d ∈ Item.checkAll parent children items) (hfinding : d.finding.isNotEmpty = true) :
    Item.anyNestsEmpty items = true := by
  cases items with
  | nil => exact nomatch hd
  | cons item items =>
    rw [Item.anyNestsEmpty, Bool.or_eq_true]
    rcases List.mem_append.mp hd with hd | hd
    · exact Or.inl (Item.nestsEmpty_of_mem_check item hd hfinding)
    · exact Or.inr (Item.anyNestsEmpty_of_mem_checkAll items hd hfinding)

theorem Item.nestsEmpty_of_mem_check {parent : Text} {children : List (Child Name Place)}
    (item : Item Name) {d : Diagnostic Name Place} (hd : d ∈ item.check parent children)
    (hfinding : d.finding.isNotEmpty = true) : item.nestsEmpty = true := by
  cases item with
  | element name bounds => exact nomatch (isNotEmpty_of_mem_checkCount hd).symm.trans hfinding
  | text bounds => exact nomatch hd
  | group content bounds =>
    rw [Item.nestsEmpty, Bool.or_eq_true, decide_eq_true_iff]
    exact ContentModel.isEmpty_or_nestsEmpty content hd hfinding
  | pattern name bounds => exact nomatch hd

end

end MarkupGrammar
