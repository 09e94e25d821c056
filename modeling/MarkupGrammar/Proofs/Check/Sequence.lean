import MarkupGrammar.Proofs.Check.Cardinality
import MarkupGrammar.Proofs.Check.Emptiness
import MarkupGrammar.Proofs.Compile.Names

/-!
# Sequences and the children they describe

The children that a sequence describes stand in the order of its items, and of each element item
there are as many as its bounds allow. The check does not look at the order. It counts, and each
element item counts all children of its name, also those that another item of the same name is there
for.

So a sequence accepts what it describes when no two of its items have the same name. When two do,
their children are counted together and held against the bounds of each. That cannot make them too
few, but it can make them too many: a sequence of `a` and another `a` refuses the two children that
it asks for.

## Main results

* `exists_count_of_mem_language` — the children of an item's name, and those the item is there for
* `ContentModel.check_eq_nil_iff_of_mem_language` — which children that a sequence describes it
  accepts
-/

namespace MarkupGrammar

variable {Name Place : Type}

/-- Whether an item is an element or text. -/
def Item.isFlat : Item Name → Bool
  | .element _ _ => true
  | .text _ => true
  | .group _ _ => false
  | .pattern _ _ => false

/-! ### Words of a sequence -/

section Words

variable {items before after : List (Item Name)} {name : Name} {bounds : Bounds} {w : List Name}

theorem Bounds.repeats_once (l : Language Name) : Bounds.once.repeats l = l := by
  ext w
  refine ⟨fun h => ?_, Bounds.mem_repeats_once⟩
  obtain ⟨n, hleast, hmost, hw⟩ := h
  have hn : n = 1 := Nat.le_antisymm (of_decide_eq_true hmost) hleast
  rwa [hn, pow_one] at hw

/-- The words of an element item repeat its name as often as its bounds allow. -/
theorem mem_repeats_singleton_iff :
    w ∈ bounds.repeats {[name]} ↔
      ∃ n, bounds.least ≤ n ∧ bounds.most.admits n = true ∧ w = List.replicate n name := by
  refine exists_congr fun n => and_congr_right fun _ => and_congr_right fun _ => ?_
  rw [Language.mem_pow]
  constructor
  · rintro ⟨words, rfl, hlength, hwords⟩
    have hreplicate : words = List.replicate n [name] := List.eq_replicate_iff.mpr ⟨hlength, hwords⟩
    rw [hreplicate, List.flatten_replicate_singleton]
  · rintro rfl
    refine ⟨List.replicate n [name], List.flatten_replicate_singleton.symm,
      List.length_replicate, fun word hword => ?_⟩
    exact (List.mem_replicate.mp hword).2

theorem Item.languages_eq_map (items : List (Item Name)) :
    Item.languages items = items.map Item.language := by
  induction items with
  | nil => rfl
  | cons item items ih => rw [Item.languages, List.map_cons, ih]

theorem nil_mem_prod : [] ∈ (Item.languages ([] : List (Item Name))).prod := rfl

/-- A text item is there for no children. -/
theorem mem_prod_text (hw : w ∈ (Item.languages items).prod) :
    w ∈ (Item.languages (.text bounds :: items)).prod := by
  rw [Item.languages, List.prod_cons, Item.language, one_mul]
  exact hw

/-- An element item is there for children of its name, as many as its bounds allow. -/
theorem replicate_append_mem_prod (n : Nat) (hleast : bounds.least ≤ n)
    (hmost : bounds.most.admits n = true) (hw : w ∈ (Item.languages items).prod) :
    List.replicate n name ++ w ∈ (Item.languages (.element name bounds :: items)).prod := by
  rw [Item.languages, List.prod_cons]
  exact Language.append_mem_mul (mem_repeats_singleton_iff.mpr ⟨n, hleast, hmost, rfl⟩) hw

/-- The words of a sequence of items, cut at an element item. -/
theorem exists_of_mem_prod
    (h : w ∈ (Item.languages (before ++ .element name bounds :: after)).prod) :
    ∃ u v n, u ∈ (Item.languages before).prod ∧ v ∈ (Item.languages after).prod ∧
      bounds.least ≤ n ∧ bounds.most.admits n = true ∧ w = u ++ (List.replicate n name ++ v) := by
  rw [Item.languages_eq_map, List.map_append, List.map_cons, List.prod_append, List.prod_cons,
    ← Item.languages_eq_map, ← Item.languages_eq_map] at h
  obtain ⟨u, hu, x, hx, rfl⟩ := Language.mem_mul.mp h
  obtain ⟨y, hy, v, hv, rfl⟩ := Language.mem_mul.mp hx
  obtain ⟨n, hleast, hmost, rfl⟩ := mem_repeats_singleton_iff.mp hy
  exact ⟨u, v, n, hu, hv, hleast, hmost, rfl⟩

/-- The letters of such a word are names of the items. -/
theorem mem_namesOfAll_of_mem_prod (hflat : ∀ item ∈ items, item.isFlat = true)
    (h : w ∈ (Item.languages items).prod) (hname : name ∈ w) : name ∈ Item.namesOfAll items := by
  induction items generalizing w with
  | nil =>
    obtain rfl : w = [] := h
    exact absurd hname List.not_mem_nil
  | cons item items ih =>
    rw [Item.languages, List.prod_cons] at h
    obtain ⟨u, hu, v, hv, rfl⟩ := Language.mem_mul.mp h
    rw [Item.namesOfAll]
    rcases List.mem_append.mp hname with hname | hname
    · refine List.mem_append_left _ ?_
      cases item with
      | element other bounds =>
        obtain ⟨n, -, -, rfl⟩ := mem_repeats_singleton_iff.mp hu
        rw [(List.mem_replicate.mp hname).2]
        exact List.mem_singleton_self other
      | text bounds =>
        obtain rfl : u = [] := hu
        exact absurd hname List.not_mem_nil
      | _ => exact absurd (hflat _ List.mem_cons_self) Bool.false_ne_true
    · exact List.mem_append_right _
        (ih (fun other hother => hflat other (List.mem_cons_of_mem _ hother)) hv hname)

end Words

/-! ### Counting -/

section Counting

variable [BEq Name] {items : List (Item Name)} {name : Name} {bounds : Bounds} {parent : Text}
  {children : List (Child Name Place)}

theorem tally_eq_count (name : Name) (children : List (Child Name Place)) :
    tally name children = (children.map Child.name).count name := by
  rw [tally, List.count, List.countP_map]
  rfl

/-- What is found among items that are not groups is found by the count of one of them. -/
theorem exists_element_of_mem_checkAll (hflat : ∀ item ∈ items, item.isFlat = true)
    {d : Diagnostic Name Place} (hd : d ∈ Item.checkAll parent children items) :
    ∃ name bounds, .element name bounds ∈ items ∧ d ∈ checkCount parent name bounds children := by
  induction items with
  | nil => exact absurd hd List.not_mem_nil
  | cons item items ih =>
    rw [Item.checkAll] at hd
    rcases List.mem_append.mp hd with hd | hd
    · cases item with
      | element name bounds => exact ⟨name, bounds, List.mem_cons_self, hd⟩
      | text bounds => exact absurd hd List.not_mem_nil
      | _ => exact absurd (hflat _ List.mem_cons_self) Bool.false_ne_true
    · obtain ⟨name, bounds, hitem, hfound⟩ :=
        ih (fun other hother => hflat other (List.mem_cons_of_mem _ hother)) hd
      exact ⟨name, bounds, List.mem_cons_of_mem _ hitem, hfound⟩

/-- And each of them is counted. -/
theorem mem_checkAll_of_element (hitem : .element name bounds ∈ items) {d : Diagnostic Name Place}
    (hd : d ∈ checkCount parent name bounds children) :
    d ∈ Item.checkAll parent children items := by
  obtain ⟨before, after, rfl⟩ := List.append_of_mem hitem
  rw [Item.checkAll_append, Item.checkAll, Item.check]
  exact List.mem_append_right _ (List.mem_append_left _ hd)

/-- So nothing is reported exactly if nothing is about any of them. -/
theorem checkAll_eq_nil_iff (hflat : ∀ item ∈ items, item.isFlat = true) :
    Item.checkAll parent children items = [] ↔
      ∀ name bounds, .element name bounds ∈ items →
        checkCount parent name bounds children = [] := by
  simp only [List.eq_nil_iff_forall_not_mem]
  constructor
  · intro hnone name bounds hitem d hd
    exact hnone d (mem_checkAll_of_element hitem hd)
  · intro hnone d hd
    obtain ⟨name, bounds, hitem, hfound⟩ := exists_element_of_mem_checkAll hflat hd
    exact hnone name bounds hitem d hfound

/-- Where enough children of a name are there, all that can be reported is that there are too
many. -/
theorem exists_tooMany_of_mem_checkCount (hleast : bounds.least ≤ tally name children)
    {d : Diagnostic Name Place} (hd : d ∈ checkCount parent name bounds children) :
    ∃ (most : Nat) (child : Child Name Place), bounds.most.admits (tally name children) = false ∧
      d = child.report (.tooMany name most parent) := by
  have hreports := Occurrence.reports_of_mem_checkCount ⟨name, bounds, []⟩ hd
  cases hreports with
  | tooFew hsome hfew hchild => exact absurd hleast (Nat.not_le_of_lt hfew)
  | @tooMany most child hmost hmany hchild =>
    refine ⟨most, child, ?_, rfl⟩
    rw [show bounds.most = .finite most from hmost]
    exact decide_eq_false (Nat.not_le_of_lt hmany)

/-- Then nothing is reported exactly if there are not too many. -/
theorem checkCount_eq_nil_iff_admits (hleast : bounds.least ≤ tally name children) :
    checkCount parent name bounds children = [] ↔
      bounds.most.admits (tally name children) = true := by
  rw [checkCount_eq_nil_iff ⟨name, bounds, []⟩, Occurrence.isMiscounted,
    decide_eq_false (Nat.not_lt_of_le hleast), Bool.false_or]
  constructor
  · intro h
    by_cases hsome : 0 < tally name children
    · simpa [hsome] using h
    · -- bounds that ask for nothing admit nothing
      have hnone : tally name children = bounds.least := by omega
      rw [hnone]
      exact bounds.ordered
  · intro h
    rw [h, Bool.not_true, Bool.and_false]

variable [LawfulBEq Name] {w : List Name}

/-- **Of the children of an item's name, as many as the item allows are there for the item.** When
no other item has the name, those are all of them. -/
theorem exists_count_of_mem_language (hflat : ∀ item ∈ items, item.isFlat = true)
    (hitem : .element name bounds ∈ items) (hw : w ∈ (Item.languages items).prod) :
    ∃ n, bounds.least ≤ n ∧ bounds.most.admits n = true ∧ n ≤ w.count name ∧
      ((Item.namesOfAll items).count name < 2 → n = w.count name) := by
  obtain ⟨before, after, rfl⟩ := List.append_of_mem hitem
  obtain ⟨u, v, n, hu, hv, hleast, hmost, rfl⟩ := exists_of_mem_prod hw
  have hcount : (u ++ (List.replicate n name ++ v)).count name
      = u.count name + (n + v.count name) := by
    rw [List.count_append, List.count_append, List.count_replicate_self]
  refine ⟨n, hleast, hmost, by omega, fun hshared => ?_⟩
  rw [Expansion.namesOfAll_append, Item.namesOfAll, Item.names, List.singleton_append,
    List.count_append, List.count_cons_self] at hshared
  have hbefore : name ∉ u := fun hmem => by
    have hname := mem_namesOfAll_of_mem_prod
      (fun item hitem => hflat item (List.mem_append_left _ hitem)) hu hmem
    have hpositive := List.count_pos_iff.mpr hname
    omega
  have hafter : name ∉ v := fun hmem => by
    have hname := mem_namesOfAll_of_mem_prod (fun item hitem => hflat item
      (List.mem_append_right _ (List.mem_cons_of_mem _ hitem))) hv hmem
    have hpositive := List.count_pos_iff.mpr hname
    omega
  rw [hcount, List.count_eq_zero.mpr hbefore, List.count_eq_zero.mpr hafter, Nat.zero_add,
    Nat.add_zero]

section Described

variable (hflat : ∀ item ∈ items, item.isFlat = true) (hitem : .element name bounds ∈ items)
  (hchildren : children.map Child.name ∈ (Item.languages items).prod)

include hflat hitem hchildren

/-- Each item finds enough children. -/
theorem least_le_tally : bounds.least ≤ tally name children := by
  obtain ⟨n, hleast, -, hle, -⟩ := exists_count_of_mem_language hflat hitem hchildren
  rw [tally_eq_count]
  exact Nat.le_trans hleast hle

/-- An item that shares its name with no other does not find too many. -/
theorem admits_tally (hcount : (Item.namesOfAll items).count name < 2) :
    bounds.most.admits (tally name children) = true := by
  obtain ⟨n, -, hmost, -, hn⟩ := exists_count_of_mem_language hflat hitem hchildren
  rw [tally_eq_count, ← hn hcount]
  exact hmost

end Described

/-- Children that some items describe are accepted exactly if they are not too many for an item that
shares its name with another. -/
theorem checkAll_eq_nil_iff_of_mem_prod (hflat : ∀ item ∈ items, item.isFlat = true)
    (hchildren : children.map Child.name ∈ (Item.languages items).prod) (parent : Text) :
    Item.checkAll parent children items = [] ↔
      ∀ name bounds, .element name bounds ∈ items → 2 ≤ (Item.namesOfAll items).count name →
        bounds.most.admits (tally name children) = true := by
  rw [checkAll_eq_nil_iff hflat]
  refine forall_congr' fun name => forall_congr' fun bounds => forall_congr' fun hitem => ?_
  rw [checkCount_eq_nil_iff_admits (least_le_tally hflat hitem hchildren)]
  constructor
  · intro hadmits _
    exact hadmits
  · intro hshared
    by_cases hcount : 2 ≤ (Item.namesOfAll items).count name
    · exact hshared hcount
    · exact admits_tally hflat hitem hchildren (Nat.lt_of_not_le hcount)

end Counting

/-- **What a sequence accepts of what it describes.** Where its items are elements and text, the
children that it describes can only be too many, namely of a name that several items share: all
children of the name count for each of these items, and they are accepted exactly if each of them
allows as many. Where no name is shared, all are accepted. -/
theorem ContentModel.check_eq_nil_iff_of_mem_language [BEq Name] [LawfulBEq Name]
    {items : List (Item Name)} (hflat : ∀ item ∈ items, item.isFlat = true)
    {children : List (Child Name Place)}
    (hchildren : children.map Child.name ∈
      (⟨.sequence, items, Bounds.once⟩ : ContentModel Name).language) (parent : Text) :
    ((⟨.sequence, items, Bounds.once⟩ : ContentModel Name).check parent children = [] ↔
      ∀ name bounds, .element name bounds ∈ items → 2 ≤ (Item.namesOfAll items).count name →
        bounds.most.admits (tally name children) = true) ∧
    (∀ d ∈ (⟨.sequence, items, Bounds.once⟩ : ContentModel Name).check parent children,
      ∃ (name : Name) (most : Nat) (child : Child Name Place),
        2 ≤ (Item.namesOfAll items).count name ∧
          d = child.report (.tooMany name most parent)) ∧
    ((Item.namesOfAll items).Nodup →
      (⟨.sequence, items, Bounds.once⟩ : ContentModel Name).check parent children = []) := by
  have hw : children.map Child.name ∈ (Item.languages items).prod := by
    rw [ContentModel.language, Bounds.repeats_once] at hchildren
    exact hchildren
  have hnil := checkAll_eq_nil_iff_of_mem_prod hflat hw parent
  refine ⟨hnil, fun d hd => ?_, fun hnodup => hnil.mpr fun name bounds _ hcount => ?_⟩
  · obtain ⟨name, bounds, hitem, hd⟩ := exists_element_of_mem_checkAll hflat hd
    obtain ⟨most, child, hmany, rfl⟩ :=
      exists_tooMany_of_mem_checkCount (least_le_tally hflat hitem hw) hd
    refine ⟨name, most, child, ?_, rfl⟩
    by_contra hcount
    rw [admits_tally hflat hitem hw (Nat.lt_of_not_le hcount)] at hmany
    exact absurd hmany.symm Bool.false_ne_true
  · have hle := List.nodup_iff_count_le_one.mp hnodup name
    omega

/-- Any number of `a` before and after text and one `b`. -/
def aroundModel : ContentModel Text :=
  ⟨.sequence,
    [.element (Text.ofString "a") Bounds.anyNumber, .text Bounds.anyNumber,
     .element (Text.ofString "b") Bounds.once, .element (Text.ofString "a") Bounds.anyNumber],
    Bounds.once⟩

/-- Each of the items for `a` allows as many as there are on both sides. -/
theorem check_aroundModel :
    (∀ item ∈ aroundModel.items, item.isFlat = true) ∧
    (childrenNamed ["a", "b", "a", "a"]).map Child.name ∈ aroundModel.language ∧
    aroundModel.check (Text.ofString "p") (childrenNamed ["a", "b", "a", "a"]) = [] := by
  have hflat : ∀ item ∈ aroundModel.items, item.isFlat = true := by decide
  have hchildren : (childrenNamed ["a", "b", "a", "a"]).map Child.name ∈ aroundModel.language :=
    Bounds.mem_repeats_once
      (replicate_append_mem_prod 1 (by decide) rfl (mem_prod_text
        (replicate_append_mem_prod 1 (by decide) rfl
          (replicate_append_mem_prod 2 (by decide) rfl nil_mem_prod))))
  refine ⟨hflat, hchildren, ?_⟩
  have haccepts := (ContentModel.check_eq_nil_iff_of_mem_language hflat hchildren
    (Text.ofString "p")).1
  refine haccepts.mpr fun name bounds hitem hshared => ?_
  simp only [aroundModel, List.mem_cons, List.not_mem_nil, or_false, Item.element.injEq,
    reduceCtorEq, false_or] at hitem
  rcases hitem with ⟨rfl, rfl⟩ | ⟨rfl, rfl⟩ | ⟨rfl, rfl⟩
  · rfl
  · exact absurd hshared (by decide)
  · rfl

/-- One `a` and another `a`. -/
def pairModel : ContentModel Text :=
  ⟨.sequence,
    [.element (Text.ofString "a") Bounds.once, .element (Text.ofString "a") Bounds.once],
    Bounds.once⟩

/-- Two of them are what it describes, and each of the items finds one too many. -/
theorem check_pairModel :
    (∀ item ∈ pairModel.items, item.isFlat = true) ∧
    (childrenNamed ["a", "a"]).map Child.name ∈ pairModel.language ∧
    pairModel.check (Text.ofString "p") (childrenNamed ["a", "a"])
      = [⟨.tooMany (Text.ofString "a") 1 (Text.ofString "p"), ⟨1, 2⟩⟩,
         ⟨.tooMany (Text.ofString "a") 1 (Text.ofString "p"), ⟨1, 2⟩⟩] := by
  refine ⟨by decide, ?_, rfl⟩
  exact Bounds.mem_repeats_once
    (replicate_append_mem_prod 1 (by decide) rfl
      (replicate_append_mem_prod 1 (by decide) rfl nil_mem_prod))

end MarkupGrammar
