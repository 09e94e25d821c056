import MarkupGrammar.Check.Conformance
import Mathlib.Tactic.Common

/-!
# What conformance reports

The check of children against a content model reports four kinds of findings and no other: two
alternatives of a choice used together, too many or too few children of a name, and children where
there should be none. Each stands at one of the children, and is about that child.

## Main results

* `ContentModel.exists_of_mem_check` — every defect of the check is one of a child
-/

namespace MarkupGrammar

variable {Name Place : Type}

namespace Finding

/-- Whether a finding is of a kind that the check of children against a model reports. -/
def isConformance : Finding Name → Bool
  | .choiceViolation .. => true
  | .tooMany .. => true
  | .tooFew .. => true
  | .notEmpty _ => true
  | _ => false

/-- A finding that a child of some name gives rise to inside a parent. -/
def IsOfChild [BEq Name] (parent : Text) (child : Name) : Finding Name → Prop
  | .choiceViolation name _ within => child = name ∧ within = parent
  | .tooMany name _ within => (child == name) = true ∧ within = parent
  | .tooFew name _ within => (child == name) = true ∧ within = parent
  | .notEmpty within => within = parent
  | _ => False

theorem IsOfChild.isConformance [BEq Name] {parent : Text} {child : Name} {finding : Finding Name}
    (h : finding.IsOfChild parent child) : finding.isConformance = true := by
  cases finding <;> first | rfl | exact h.elim

end Finding

variable [BEq Name] {parent : Text} {children : List (Child Name Place)}

/-- What a choice reports is a child that does not go with one before. -/
theorem exists_of_mem_checkChoice {items : List (Item Name)} {d : Diagnostic Name Place}
    (hd : d ∈ checkChoice parent items children) :
    ∃ child ∈ children, ∃ other, d = child.report (.choiceViolation child.name other parent) := by
  unfold checkChoice at hd
  split at hd
  · split at hd
    · next used child _ hchild =>
      exact ⟨child, List.mem_of_find?_eq_some hchild, used.name, List.mem_singleton.mp hd⟩
    · exact nomatch hd
  · exact nomatch hd

/-- What the count of a name reports is a child of that name. -/
theorem exists_of_mem_checkCount {name : Name} {bounds : Bounds} {d : Diagnostic Name Place}
    (hd : d ∈ checkCount parent name bounds children) :
    ∃ child ∈ children, (child.name == name) = true ∧
      (d = child.report (.tooFew name bounds.least parent) ∨
        ∃ most, d = child.report (.tooMany name most parent)) := by
  have hnamed : ∀ child ∈ children.filter (·.name == name),
      child ∈ children ∧ (child.name == name) = true := fun child hchild => List.mem_filter.mp hchild
  simp only [checkCount] at hd
  cases hfound : children.filter (·.name == name) with
  | nil => rw [hfound] at hd; exact nomatch hd
  | cons first found =>
    rw [hfound] at hd hnamed
    rcases List.mem_append.mp hd with hd | hd
    · split at hd
      · obtain ⟨hmem, hname⟩ := hnamed first List.mem_cons_self
        exact ⟨first, hmem, hname, Or.inl (List.mem_singleton.mp hd)⟩
      · exact nomatch hd
    · split at hd
      · exact nomatch hd
      · next most _ =>
        split at hd
        · next surplus hsurplus =>
          obtain ⟨hmem, hname⟩ := hnamed surplus (List.mem_of_getElem? hsurplus)
          exact ⟨surplus, hmem, hname, Or.inr ⟨most, List.mem_singleton.mp hd⟩⟩
        · exact nomatch hd

mutual

/-- **Every defect of the check is one of a child:** it stands at a child, and it is the child that
gives rise to it. -/
theorem ContentModel.exists_of_mem_check (m : ContentModel Name) {d : Diagnostic Name Place}
    (hd : d ∈ m.check parent children) :
    ∃ child ∈ children, d.position = child.position ∧ d.finding.IsOfChild parent child.name := by
  obtain ⟨arrangement, items, bounds⟩ := m
  cases arrangement with
  | choice =>
    obtain ⟨child, hchild, other, rfl⟩ := exists_of_mem_checkChoice hd
    exact ⟨child, hchild, rfl, rfl, rfl⟩
  | sequence => exact Item.exists_of_mem_checkAll items hd
  | interleave => exact Item.exists_of_mem_checkAll items hd
  | group => exact Item.exists_of_mem_checkAll items hd
  | empty =>
    cases children with
    | nil => exact nomatch hd
    | cons child children =>
      obtain rfl := List.mem_singleton.mp hd
      exact ⟨child, List.mem_cons_self, rfl, rfl⟩
  | element => exact nomatch hd
  | text => exact nomatch hd

theorem Item.exists_of_mem_checkAll (items : List (Item Name)) {d : Diagnostic Name Place}
    (hd : d ∈ Item.checkAll parent children items) :
    ∃ child ∈ children, d.position = child.position ∧ d.finding.IsOfChild parent child.name := by
  cases items with
  | nil => exact nomatch hd
  | cons item items =>
    rcases List.mem_append.mp hd with hd | hd
    · exact Item.exists_of_mem_check item hd
    · exact Item.exists_of_mem_checkAll items hd

theorem Item.exists_of_mem_check (item : Item Name) {d : Diagnostic Name Place}
    (hd : d ∈ item.check parent children) :
    ∃ child ∈ children, d.position = child.position ∧ d.finding.IsOfChild parent child.name := by
  cases item with
  | element name bounds =>
    obtain ⟨child, hchild, hname, rfl | ⟨most, rfl⟩⟩ := exists_of_mem_checkCount hd
    · exact ⟨child, hchild, rfl, hname, rfl⟩
    · exact ⟨child, hchild, rfl, hname, rfl⟩
  | text bounds => exact nomatch hd
  | group content bounds => exact ContentModel.exists_of_mem_check content hd
  | pattern name bounds => exact nomatch hd

end

/-- Where there are no children, none is at fault. -/
theorem ContentModel.check_nil (m : ContentModel Name) (parent : Text) :
    m.check parent ([] : List (Child Name Place)) = [] := by
  refine List.eq_nil_iff_forall_not_mem.mpr fun d hd => ?_
  obtain ⟨child, hchild, -⟩ := m.exists_of_mem_check hd
  exact nomatch hchild

/-- **The findings of conformance** are of four kinds. -/
theorem ContentModel.isConformance_of_mem_check (m : ContentModel Name) {d : Diagnostic Name Place}
    (hd : d ∈ m.check parent children) : d.finding.isConformance = true := by
  obtain ⟨child, -, -, hfinding⟩ := m.exists_of_mem_check hd
  exact hfinding.isConformance

end MarkupGrammar
