import MarkupGrammar.Proofs.Check.Conformance
import Mathlib.Data.List.Nodup

/-!
# Alternatives of a choice

An author may use one alternative of a choice. Which alternatives are in use is read off the
children: an alternative comes into use with the first child that it holds, and of those that come
into use with the same child the order of the model decides. The check then looks at the two that
come first and at no other: a child of the second that is not in the first does not go with it.

Where no child is in two alternatives, that is all there is to a choice. Alternatives may overlap,
however, and then two are not enough to tell. One child can bring two alternatives into use, and the
first two can be at odds although a third holds all the children, or agree although the conflict is
with a third.

## Main definitions

* `inUse` — the alternatives in use, in the order in which they come into use
* `AreRivals` — the two alternatives that come into use with one child

## Main results

* `checkChoice_eq` — the check in terms of the alternatives in use
* `ContentModel.check_eq_nil_iff_of_covers` — what is reported where one alternative would do
* `ContentModel.violates_iff_of_conflict` — what is reported where no alternative would
-/

namespace MarkupGrammar

variable {Name Place : Type} [BEq Name]

/-- Whether an element of the child's name is somewhere in the item. -/
def Item.holds (item : Item Name) (child : Child Name Place) : Bool := item.names.elem child.name

/-- The alternatives in use, in the order in which they come into use: those that hold the first
child, in the order of the model, and then what the rest of the children use of the others. -/
def inUse : List (Item Name) → List (Child Name Place) → List (Item Name)
  | _, [] => []
  | items, child :: children =>
    items.filter (·.holds child) ++ inUse (items.filter fun item => !item.holds child) children

/-! ### Alternatives by their numbers

The check tells alternatives apart by their numbers. As no two have the same number, an alternative
has been used before when one of the children before is in it. -/

section Numbers

/-- What further children use does not depend on what has been used, other than by its numbers. -/
theorem foldl_use (alternatives used : List (List Name × Nat))
    (children : List (Child Name Place)) :
    children.foldl
        (fun used child =>
          used ++ alternatives.filter fun a =>
            a.1.elem child.name && !used.any fun b => a.2 == b.2) used
      = used ++ usedAlternatives
          (alternatives.filter fun a => !used.any fun b => a.2 == b.2) children := by
  induction children generalizing alternatives used with
  | nil => exact (List.append_nil used).symm
  | cons child children ih =>
    rw [usedAlternatives, List.foldl_cons, List.foldl_cons, ih, ih, List.nil_append,
      List.append_assoc]
    congr 1
    have hused : alternatives.filter (fun a =>
          a.1.elem child.name && !used.any fun b => a.2 == b.2)
        = (alternatives.filter fun a => !used.any fun b => a.2 == b.2).filter fun a =>
            a.1.elem child.name && !([] : List (List Name × Nat)).any fun b => a.2 == b.2 := by
      rw [List.filter_filter]
      exact List.filter_congr fun a _ => by simp
    rw [← hused, List.filter_filter]
    congr 2
    exact List.filter_congr fun a _ => by rw [List.any_append, Bool.not_or, Bool.and_comm]

/-- What children use: the alternatives that hold the first, and what the rest use of the others. -/
theorem usedAlternatives_cons {alternatives : List (List Name × Nat)}
    (hnumbers : (alternatives.map Prod.snd).Nodup) (child : Child Name Place)
    (children : List (Child Name Place)) :
    usedAlternatives alternatives (child :: children)
      = alternatives.filter (fun a => a.1.elem child.name)
        ++ usedAlternatives (alternatives.filter fun a => !a.1.elem child.name) children := by
  have hfirst : alternatives.filter (fun a =>
        a.1.elem child.name && !([] : List (List Name × Nat)).any fun b => a.2 == b.2)
      = alternatives.filter fun a => a.1.elem child.name :=
    List.filter_congr fun a _ => by simp
  rw [usedAlternatives, List.foldl_cons, List.nil_append, hfirst, foldl_use]
  congr 2
  refine List.filter_congr fun a ha => ?_
  congr 1
  rw [Bool.eq_iff_iff, List.any_eq_true]
  constructor
  · rintro ⟨b, hb, hnumber⟩
    obtain ⟨hb, helem⟩ := List.mem_filter.mp hb
    obtain rfl := List.inj_on_of_nodup_map hnumbers ha hb (beq_iff_eq.mp hnumber)
    exact helem
  · exact fun helem => ⟨a, List.mem_filter.mpr ⟨ha, helem⟩, beq_self_eq_true _⟩

end Numbers

/-- The sets of names that the check compares are those of the alternatives in use. -/
theorem map_usedAlternatives {alternatives : List (List Name × Nat)} {items : List (Item Name)}
    (hnumbers : (alternatives.map Prod.snd).Nodup)
    (hnames : alternatives.map Prod.fst = (items.map Item.names).filter fun names => !names.isEmpty)
    (children : List (Child Name Place)) :
    (usedAlternatives alternatives children).map Prod.fst
      = (inUse items children).map Item.names := by
  induction children generalizing alternatives items with
  | nil => rw [inUse]; rfl
  | cons child children ih =>
    have hfilter : ∀ keep : List Name → Bool,
        (alternatives.filter fun a => keep a.1).map Prod.fst
          = ((items.filter fun item => keep item.names).map Item.names).filter
              fun names => !names.isEmpty := by
      intro keep
      have hmap : ∀ {α : Type} (f : α → List Name) (as : List α),
          (as.filter fun a => keep (f a)).map f = (as.map f).filter keep := by
        intro α f as
        rw [List.filter_map]
        rfl
      rw [hmap Prod.fst, hmap Item.names, hnames, List.filter_filter, List.filter_filter]
      exact List.filter_congr fun names _ => Bool.and_comm _ _
    rw [usedAlternatives_cons hnumbers, inUse, List.map_append, List.map_append,
      ih ((List.filter_sublist.map _).nodup hnumbers) (hfilter fun names => !names.elem child.name),
      hfilter fun names => names.elem child.name]
    congr 1
    refine List.filter_eq_self.mpr fun names hnames => ?_
    obtain ⟨item, hitem, rfl⟩ := List.mem_map.mp hnames
    cases hempty : item.names with
    | nil => simp [hempty] at hitem
    | cons name names => rfl

/-! ### The check -/

section Check

variable {items : List (Item Name)} {children : List (Child Name Place)}

/-- The alternatives in use are those that hold a child. -/
theorem mem_inUse_iff {item : Item Name} :
    item ∈ inUse items children ↔ item ∈ items ∧ ∃ child ∈ children, item.holds child = true := by
  induction children generalizing items with
  | nil => simp [inUse]
  | cons child children ih =>
    rw [inUse, List.mem_append, ih, List.mem_filter, List.mem_filter, List.exists_mem_cons_iff]
    cases hholds : item.holds child <;> simp

/-- **The check in terms of the alternatives in use:** it looks at the first two of them. -/
theorem checkChoice_eq (parent : Text) (items : List (Item Name))
    (children : List (Child Name Place)) :
    checkChoice parent items children
      = match inUse items children with
        | first :: second :: _ =>
          match children.find? first.holds,
            children.find? fun child => second.holds child && !first.holds child with
          | some used, some child => [child.report (.choiceViolation child.name used.name parent)]
          | _, _ => []
        | _ => [] := by
  have hnumbers : ((alternatives items).map Prod.snd).Nodup := by
    rw [alternatives, List.zipIdx_map_snd]
    exact List.nodup_range'
  have hnames := map_usedAlternatives hnumbers (List.zipIdx_map_fst _ _) children
  rw [checkChoice]
  match hused : usedAlternatives (alternatives items) children, hin : inUse items children with
  | [], [] => rfl
  | [_], [_] => rfl
  | (first, i) :: (second, j) :: used, a :: b :: rest =>
    simp only [hused, hin, List.map_cons, List.cons.injEq] at hnames
    obtain ⟨rfl, rfl, -⟩ := hnames
    rfl
  | [], _ :: _ => simp [hused, hin] at hnames
  | _ :: _, [] => simp [hused, hin] at hnames
  | [_], _ :: _ :: _ => simp [hused, hin] at hnames
  | _ :: _ :: _, [_] => simp [hused, hin] at hnames

/-- Where fewer than two alternatives are in use, nothing is reported. -/
theorem checkChoice_of_length_le (parent : Text) (h : (inUse items children).length ≤ 1) :
    checkChoice parent items children = [] := by
  rw [checkChoice_eq]
  match hin : inUse items children with
  | [] => rfl
  | [_] => rfl
  | _ :: _ :: _ => simp [hin] at h

/-- Where two are, the first child of the second that is not in the first is reported, if there is
one. It does not go with the first child of the first. -/
theorem exists_checkChoice_of_inUse (parent : Text) {first second : Item Name}
    {rest : List (Item Name)} (h : inUse items children = first :: second :: rest) :
    ∃ used, children.find? first.holds = some used ∧
      checkChoice parent items children
        = ((children.find? fun child => second.holds child && !first.holds child).map fun child =>
            child.report (.choiceViolation child.name used.name parent)).toList := by
  have hfirst : first ∈ inUse items children := h ▸ List.mem_cons_self
  obtain ⟨-, child, hchild, hholds⟩ := mem_inUse_iff.mp hfirst
  obtain ⟨used, hused⟩ :=
    Option.isSome_iff_exists.mp (List.find?_isSome.mpr ⟨child, hchild, hholds⟩)
  refine ⟨used, hused, ?_⟩
  rw [checkChoice_eq, h]
  simp only [hused]
  cases children.find? fun child => second.holds child && !first.holds child <;> rfl

/-- So nothing is reported when the second has no child of its own. -/
theorem checkChoice_eq_nil_iff (parent : Text) {first second : Item Name} {rest : List (Item Name)}
    (h : inUse items children = first :: second :: rest) :
    checkChoice parent items children = [] ↔
      ∀ child ∈ children, second.holds child = true → first.holds child = true := by
  obtain ⟨used, -, hcheck⟩ := exists_checkChoice_of_inUse parent h
  rw [hcheck, Option.toList_eq_nil_iff, Option.map_eq_none_iff, List.find?_eq_none]
  simp

/-! ### One child in two alternatives -/

/-- Where no alternative holds a child, none is in use. -/
theorem inUse_eq_nil (h : children.find? (fun child => items.any (·.holds child)) = none) :
    inUse items children = [] := by
  refine List.eq_nil_iff_forall_not_mem.mpr fun item hitem => ?_
  obtain ⟨hitem, child, hchild, hholds⟩ := mem_inUse_iff.mp hitem
  exact List.find?_eq_none.mp h child hchild (List.any_eq_true.mpr ⟨item, hitem, hholds⟩)

/-- Children that no alternative holds bring none into use. -/
theorem inUse_append {before : List (Child Name Place)}
    (h : ∀ child ∈ before, items.any (·.holds child) = false) :
    inUse items (before ++ children) = inUse items children := by
  induction before with
  | nil => rfl
  | cons child before ih =>
    have hnone : ∀ item ∈ items, item.holds child = false := by
      simpa using h child List.mem_cons_self
    rw [List.cons_append, inUse,
      List.filter_eq_nil_iff.mpr fun item hitem => Bool.eq_false_iff.mp (hnone item hitem),
      List.filter_eq_self.mpr fun item hitem => by rw [hnone item hitem]; rfl, List.nil_append]
    exact ih fun other hother => h other (List.mem_cons_of_mem child hother)

/-- The alternatives that hold the first child that any of them holds come into use before all
others. -/
theorem exists_inUse_eq {lead : Child Name Place}
    (h : children.find? (fun child => items.any (·.holds child)) = some lead) :
    ∃ rest : List (Child Name Place), (∀ child ∈ rest, child ∈ children) ∧
      inUse items children
        = items.filter (·.holds lead) ++ inUse (items.filter fun item => !item.holds lead) rest := by
  obtain ⟨-, before, rest, rfl, hbefore⟩ := List.find?_eq_some_iff_append.mp h
  refine ⟨rest, fun child hchild => ?_, ?_⟩
  · exact List.mem_append_right before (List.mem_cons_of_mem lead hchild)
  · rw [inUse_append fun child hchild => by simpa using hbefore child hchild, inUse]

/-- Two alternatives are rivals when they come into use with one child: the first child that any
alternative holds is in both, and they are the first two, in the order of the model, that hold
it. -/
structure AreRivals (items : List (Item Name)) (children : List (Child Name Place))
    (lead : Child Name Place) (first second : Item Name) : Prop where
  lead_eq : children.find? (fun child => items.any (·.holds child)) = some lead
  exists_filter_eq : ∃ rest, items.filter (·.holds lead) = first :: second :: rest

variable {lead : Child Name Place} {first second : Item Name}

theorem AreRivals.exists_inUse (h : AreRivals items children lead first second) :
    ∃ rest, inUse items children = first :: second :: rest := by
  obtain ⟨others, hothers⟩ := h.exists_filter_eq
  obtain ⟨rest, -, hin⟩ := exists_inUse_eq h.lead_eq
  rw [hin, hothers]
  exact ⟨_, rfl⟩

/-- The first child of the first rival is the one that both hold. -/
theorem AreRivals.find?_holds (h : AreRivals items children lead first second) :
    children.find? first.holds = some lead := by
  obtain ⟨others, hothers⟩ := h.exists_filter_eq
  have hfirst : first ∈ items.filter (·.holds lead) := hothers ▸ List.mem_cons_self
  obtain ⟨hfirst, hholds⟩ := List.mem_filter.mp hfirst
  obtain ⟨-, before, after, hchildren, hbefore⟩ := List.find?_eq_some_iff_append.mp h.lead_eq
  refine List.find?_eq_some_iff_append.mpr
    ⟨hholds, before, after, hchildren, fun child hchild => ?_⟩
  have hnone : ∀ item ∈ items, item.holds child = false := by simpa using hbefore child hchild
  rw [hnone first hfirst]
  rfl

/-- Where an alternative holds every child that any alternative holds, two alternatives can only be
at odds as rivals: of those that come into use later none has a child of its own. -/
theorem checkChoice_eq_nil_of_covers {cover : Item Name} (hcover : cover ∈ items)
    (hcovers : ∀ child ∈ children, ∀ item ∈ items, item.holds child = true →
      cover.holds child = true) (parent : Text)
    (hrivals : ∀ lead first second, ¬AreRivals items children lead first second) :
    checkChoice parent items children = [] := by
  cases hlead : children.find? (fun child => items.any (·.holds child)) with
  | none =>
    refine checkChoice_of_length_le parent ?_
    rw [inUse_eq_nil hlead]
    exact Nat.zero_le 1
  | some lead =>
    obtain ⟨hany, -⟩ := List.find?_eq_some_iff_append.mp hlead
    obtain ⟨item, hitem, hholds⟩ := List.any_eq_true.mp hany
    have hcoverLead : cover ∈ items.filter (·.holds lead) :=
      List.mem_filter.mpr ⟨hcover, hcovers lead (List.mem_of_find?_eq_some hlead) item hitem hholds⟩
    obtain ⟨rest, -, hin⟩ := exists_inUse_eq hlead
    match hfilter : items.filter (·.holds lead) with
    | [] => exact absurd (hfilter ▸ hcoverLead) List.not_mem_nil
    | first :: second :: others => exact absurd ⟨hlead, others, hfilter⟩ (hrivals lead first second)
    | [first] =>
      obtain rfl : cover = first := List.mem_singleton.mp (hfilter ▸ hcoverLead)
      rw [hfilter, List.singleton_append] at hin
      cases hlater : inUse (items.filter fun item => !item.holds lead) rest with
      | nil => exact checkChoice_of_length_le parent (by simp [hin, hlater])
      | cons second others =>
        rw [hlater] at hin
        refine (checkChoice_eq_nil_iff parent hin).mpr fun child hchild hsecond => ?_
        have hmem : second ∈ inUse items children :=
          hin ▸ List.mem_cons_of_mem _ List.mem_cons_self
        exact hcovers child hchild second (mem_inUse_iff.mp hmem).1 hsecond

/-! ### Children that no alternative holds together -/

/-- Two children that each belong to an alternative, but to none together, bring at least two
alternatives into use. -/
theorem exists_inUse_of_conflict {x y : Child Name Place} (hx : x ∈ children) (hy : y ∈ children)
    (hxlisted : ∃ item ∈ items, item.holds x = true)
    (hylisted : ∃ item ∈ items, item.holds y = true)
    (hconflict : ∀ item ∈ items, item.holds x = true → item.holds y = false) :
    ∃ first second rest, inUse items children = first :: second :: rest := by
  obtain ⟨a, ha, hax⟩ := hxlisted
  obtain ⟨b, hb, hby⟩ := hylisted
  have hain : a ∈ inUse items children := mem_inUse_iff.mpr ⟨ha, x, hx, hax⟩
  have hbin : b ∈ inUse items children := mem_inUse_iff.mpr ⟨hb, y, hy, hby⟩
  match hin : inUse items children with
  | [] => exact absurd (hin ▸ hain) List.not_mem_nil
  | [only] =>
    -- the only alternative in use would hold both children
    obtain rfl : a = only := List.mem_singleton.mp (hin ▸ hain)
    obtain rfl : b = a := List.mem_singleton.mp (hin ▸ hbin)
    rw [hconflict b ha hax] at hby
    exact nomatch hby
  | first :: second :: rest => exact ⟨first, second, rest, rfl⟩

/-- Whatever a choice reports is a violation at one of the children. -/
theorem exists_violation_iff (parent : Text) :
    (∃ child ∈ children, ∃ other, child.report (.choiceViolation child.name other parent)
        ∈ checkChoice parent items children) ↔ checkChoice parent items children ≠ [] := by
  constructor
  · rintro ⟨child, -, other, hreport⟩
    exact List.ne_nil_of_mem hreport
  · intro hsome
    obtain ⟨d, hd⟩ := List.exists_mem_of_ne_nil _ hsome
    obtain ⟨child, hchild, other, rfl⟩ := exists_of_mem_checkChoice hd
    exact ⟨child, hchild, other, hd⟩

namespace ContentModel

/-- **Where one alternative would do.** When an alternative holds every child that any alternative
holds, nothing is reported, unless the first such child is in two alternatives and the second of
these holds a child that the first does not. Then that child is reported, and it alone, as one that
does not go with the first. -/
theorem check_eq_nil_iff_of_covers {cover : Item Name} (hcover : cover ∈ items)
    (hcovers : ∀ child ∈ children, ∀ item ∈ items, item.holds child = true →
      cover.holds child = true) (parent : Text) (bounds : Bounds) :
    ((⟨.choice, items, bounds⟩ : ContentModel Name).check parent children = [] ↔
      ∀ lead first second, AreRivals items children lead first second →
        ∀ child ∈ children, second.holds child = true → first.holds child = true) ∧
    ∀ lead first second, AreRivals items children lead first second →
      (⟨.choice, items, bounds⟩ : ContentModel Name).check parent children
        = ((children.find? fun child => second.holds child && !first.holds child).map fun child =>
            child.report (.choiceViolation child.name lead.name parent)).toList := by
  refine ⟨⟨fun hcheck lead first second h => ?_, fun h => ?_⟩, fun lead first second h => ?_⟩
  · obtain ⟨rest, hin⟩ := h.exists_inUse
    exact (checkChoice_eq_nil_iff parent hin).mp hcheck
  · by_cases hrivals : ∃ lead first second, AreRivals items children lead first second
    · obtain ⟨lead, first, second, hpair⟩ := hrivals
      obtain ⟨rest, hin⟩ := hpair.exists_inUse
      exact (checkChoice_eq_nil_iff parent hin).mpr (h lead first second hpair)
    · push Not at hrivals
      exact checkChoice_eq_nil_of_covers hcover hcovers parent hrivals
  · obtain ⟨rest, hin⟩ := h.exists_inUse
    obtain ⟨used, hused, hcheck⟩ := exists_checkChoice_of_inUse parent hin
    obtain rfl := Option.some.inj (hused.symm.trans h.find?_holds)
    exact hcheck

/-- An element that stands alone as an alternative. -/
def lone (name : String) : Item Text := .element (Text.ofString name) Bounds.once

/-- A group of two elements as an alternative. -/
def pair (first second : String) : Item Text :=
  .group ⟨.sequence, [lone first, lone second], Bounds.once⟩ Bounds.once

/-- A child in the first line. -/
def childAt (name : String) (column : Nat) : Child Text := ⟨Text.ofString name, ⟨1, column⟩⟩

/-- One alternative has both children and comes first, and nothing is reported. -/
theorem check_pair_lone :
    pair "a" "b" ∈ [pair "a" "b", lone "a"] ∧
    (∀ child ∈ [childAt "a" 4, childAt "b" 8], ∀ item ∈ [pair "a" "b", lone "a"],
      item.holds child = true → (pair "a" "b").holds child = true) ∧
    AreRivals [pair "a" "b", lone "a"] [childAt "a" 4, childAt "b" 8] (childAt "a" 4)
      (pair "a" "b") (lone "a") ∧
    (⟨.choice, [pair "a" "b", lone "a"], Bounds.once⟩ : ContentModel Text).check
      (Text.ofString "p") [childAt "a" 4, childAt "b" 8] = [] := by
  have hcover : pair "a" "b" ∈ [pair "a" "b", lone "a"] := List.mem_cons_self
  have hcovers : ∀ child ∈ [childAt "a" 4, childAt "b" 8],
      ∀ item ∈ [pair "a" "b", lone "a"], item.holds child = true →
        (pair "a" "b").holds child = true := by
    decide +kernel
  have hrivals : AreRivals [pair "a" "b", lone "a"] [childAt "a" 4, childAt "b" 8] (childAt "a" 4)
      (pair "a" "b") (lone "a") := ⟨rfl, [], rfl⟩
  refine ⟨hcover, hcovers, hrivals, ?_⟩
  rw [(check_eq_nil_iff_of_covers hcover hcovers _ _).2 _ _ _ hrivals]
  rfl

/-- With the same alternatives the other way round, the second child is reported. -/
theorem check_lone_pair :
    pair "a" "b" ∈ [lone "a", pair "a" "b"] ∧
    (∀ child ∈ [childAt "a" 4, childAt "b" 8], ∀ item ∈ [lone "a", pair "a" "b"],
      item.holds child = true → (pair "a" "b").holds child = true) ∧
    (⟨.choice, [lone "a", pair "a" "b"], Bounds.once⟩ : ContentModel Text).check
        (Text.ofString "p") [childAt "a" 4, childAt "b" 8]
      = [(childAt "b" 8).report (.choiceViolation (Text.ofString "b") (Text.ofString "a")
          (Text.ofString "p"))] :=
  ⟨List.mem_cons_of_mem _ List.mem_cons_self, by decide +kernel, rfl⟩

/-- **Where no alternative would do.** When two children each belong to an alternative but to none
together, at least two alternatives are in use, and a violation is reported exactly when the second
of them holds a child that the first does not. So it is when no child is in both; when every child
of the second is also in the first, the conflict goes unreported. -/
theorem violates_iff_of_conflict {x y : Child Name Place} (hx : x ∈ children) (hy : y ∈ children)
    (hxlisted : ∃ item ∈ items, item.holds x = true)
    (hylisted : ∃ item ∈ items, item.holds y = true)
    (hconflict : ∀ item ∈ items, item.holds x = true → item.holds y = false) (parent : Text)
    (bounds : Bounds) :
    ∃ first second rest, inUse items children = first :: second :: rest ∧
      ((∃ child ∈ children, ∃ other, child.report (.choiceViolation child.name other parent)
          ∈ (⟨.choice, items, bounds⟩ : ContentModel Name).check parent children) ↔
        ∃ child ∈ children, second.holds child = true ∧ first.holds child = false) ∧
      ((∀ child ∈ children, first.holds child = true → second.holds child = false) →
        ∃ child ∈ children, second.holds child = true ∧ first.holds child = false) := by
  obtain ⟨first, second, rest, hin⟩ :=
    exists_inUse_of_conflict hx hy hxlisted hylisted hconflict
  refine ⟨first, second, rest, hin, (exists_violation_iff parent).trans ?_, fun hapart => ?_⟩
  · rw [Ne, checkChoice_eq_nil_iff parent hin]
    push Not
    simp
  · have hsecond : second ∈ inUse items children :=
      hin ▸ List.mem_cons_of_mem _ List.mem_cons_self
    obtain ⟨-, child, hchild, hholds⟩ := mem_inUse_iff.mp hsecond
    refine ⟨child, hchild, hholds, Bool.eq_false_iff.mpr fun hfirst => ?_⟩
    rw [hapart child hchild hfirst] at hholds
    exact nomatch hholds

/-- Two alternatives are in use, and the second is in conflict with the first. -/
theorem violates_pair_lone :
    (∀ item ∈ [pair "a" "b", lone "c"],
      item.holds (childAt "a" 4) = true → item.holds (childAt "c" 8) = false) ∧
    ∃ child ∈ [childAt "a" 4, childAt "c" 8], ∃ other,
      child.report (.choiceViolation child.name other (Text.ofString "p"))
        ∈ (⟨.choice, [pair "a" "b", lone "c"], Bounds.once⟩ : ContentModel Text).check
          (Text.ofString "p") [childAt "a" 4, childAt "c" 8] := by
  have hconflict : ∀ item ∈ [pair "a" "b", lone "c"],
      item.holds (childAt "a" 4) = true → item.holds (childAt "c" 8) = false := by
    decide +kernel
  have hx : childAt "a" 4 ∈ [childAt "a" 4, childAt "c" 8] := List.mem_cons_self
  have hy : childAt "c" 8 ∈ [childAt "a" 4, childAt "c" 8] :=
    List.mem_cons_of_mem _ List.mem_cons_self
  obtain ⟨first, second, rest, hin, hiff, -⟩ := violates_iff_of_conflict hx hy
    ⟨pair "a" "b", List.mem_cons_self, rfl⟩
    ⟨lone "c", List.mem_cons_of_mem _ List.mem_cons_self, rfl⟩ hconflict (Text.ofString "p")
    Bounds.once
  have huse : inUse [pair "a" "b", lone "c"] [childAt "a" 4, childAt "c" 8]
      = [pair "a" "b", lone "c"] := rfl
  obtain ⟨rfl, heq⟩ := List.cons.inj (huse.symm.trans hin)
  obtain ⟨rfl, -⟩ := List.cons.inj heq
  exact ⟨hconflict, hiff.mpr ⟨childAt "c" 8, hy, rfl, rfl⟩⟩

/-- An alternative that is listed twice hides the conflict with a third. -/
theorem misses_conflict :
    (∀ item ∈ [lone "a", lone "a", lone "b"],
      item.holds (childAt "a" 4) = true → item.holds (childAt "b" 8) = false) ∧
    (lone "a").holds (childAt "a" 4) = true ∧ (lone "b").holds (childAt "b" 8) = true ∧
    (⟨.choice, [lone "a", lone "a", lone "b"], Bounds.once⟩ : ContentModel Text).check
      (Text.ofString "p") [childAt "a" 4, childAt "b" 8] = [] :=
  ⟨by decide +kernel, rfl, rfl, rfl⟩

end ContentModel

end Check

end MarkupGrammar
