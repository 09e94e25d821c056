import MarkupGrammar.Proofs.Check.Choice

/-!
# Exclusive alternatives

The alternatives of a choice are exclusive when no name is in two of them, as in a choice between
elements or between groups without an element in common. A child then brings one alternative into
use at most, and the two that come into use first tell all there is to tell: the first is that of
the first child that any alternative holds, and the second comes into use with the first such child
outside it.

So the diagnostic of an exclusive choice can be said without the alternatives in use. It depends on
which names go together, and on nothing else: not on the order of the alternatives, not on how one
of them is put together inside, not on how often the choice may be made, and not on children that
are in no alternative.

## Main definitions

* `AreExclusive` — no name is in two alternatives
* `BelongTogether` — one alternative holds all of some children
* `SameAlternatives` — the same sets of names, in any order

## Main results

* `checkChoice_eq_of_areExclusive` — the check in terms of the alternative of the first child
* `ContentModel.check_of_areExclusive` — whether a violation is reported and which, and what the
  answer does not depend on
-/

namespace MarkupGrammar

variable {Name Place : Type} [BEq Name]

/-- The set of the names that are somewhere in an item. -/
def Item.nameSet (item : Item Name) (name : Name) : Bool := item.names.elem name

/-- Alternatives are exclusive when no name is in two of them. -/
def AreExclusive (items : List (Item Name)) : Prop :=
  items.Pairwise fun a b => ∀ name, a.nameSet name = true → b.nameSet name = false

/-- Whether some alternative holds the child. -/
def recognises (items : List (Item Name)) (child : Child Name Place) : Bool :=
  items.any (·.holds child)

/-- Some children belong together when there are none, or one alternative holds them all. -/
def BelongTogether (items : List (Item Name)) (children : List (Child Name Place)) : Prop :=
  children = [] ∨ ∃ item ∈ items, ∀ child ∈ children, item.holds child = true

/-- Two lists of alternatives have the same sets of names. The order of the alternatives may differ,
and so may what is inside them. -/
def SameAlternatives (items others : List (Item Name)) : Prop :=
  (items.map Item.nameSet).Perm (others.map Item.nameSet)

section

variable {items others : List (Item Name)} {home : Item Name} {lead : Child Name Place}

/-- Exclusive alternatives are those without a name in common. -/
theorem areExclusive_iff [LawfulBEq Name] :
    AreExclusive items ↔ items.Pairwise fun a b => ∀ name ∈ a.names, name ∉ b.names := by
  simp [AreExclusive, Item.nameSet]

/-! ### The alternative of a child -/

/-- A child that is not recognised is in no alternative. -/
theorem holds_eq_false {child : Child Name Place} (h : recognises items child = false)
    (hhome : home ∈ items) : home.holds child = false := by
  cases hholds : home.holds child with
  | false => rfl
  | true =>
    have hrecognised : recognises items child = true := List.any_eq_true.mpr ⟨home, hhome, hholds⟩
    rw [h] at hrecognised
    exact absurd hrecognised Bool.false_ne_true

/-- **A child is in one exclusive alternative at most.** -/
theorem AreExclusive.filter_holds (h : AreExclusive items) (hhome : home ∈ items)
    (hlead : home.holds lead = true) : items.filter (·.holds lead) = [home] := by
  have hmem : home ∈ items.filter (·.holds lead) := List.mem_filter.mpr ⟨hhome, hlead⟩
  have hholds : ∀ item ∈ items.filter (·.holds lead), item.nameSet lead.name = true :=
    fun item hitem => (List.mem_filter.mp hitem).2
  have hapart : AreExclusive (items.filter (·.holds lead)) := List.Pairwise.filter _ h
  match hfilter : items.filter (·.holds lead) with
  | [] => exact absurd (hfilter ▸ hmem) List.not_mem_nil
  | [other] =>
    obtain rfl : home = other := List.mem_singleton.mp (hfilter ▸ hmem)
    exact hfilter
  | first :: second :: rest =>
    -- two alternatives that hold the child have its name in common
    rw [hfilter] at hholds hapart
    have hnot := (List.pairwise_cons.mp hapart).1 second List.mem_cons_self lead.name
      (hholds first List.mem_cons_self)
    rw [hholds second (List.mem_cons_of_mem _ List.mem_cons_self)] at hnot
    exact absurd hnot.symm Bool.false_ne_true

/-- So the alternatives besides that of a child hold the recognised children outside it. -/
theorem AreExclusive.recognises_others (h : AreExclusive items) (hhome : home ∈ items)
    (hlead : home.holds lead = true) (child : Child Name Place) :
    recognises (items.filter fun item => !item.holds lead) child
      = (recognises items child && !home.holds child) := by
  have honly : ∀ (c : Child Name Place) (item : Item Name), item ∈ items → item.holds c = true →
      home.holds c = true → item = home := by
    intro c item hitem hitemc hhomec
    have hmem : item ∈ items.filter (·.holds c) := List.mem_filter.mpr ⟨hitem, hitemc⟩
    rw [h.filter_holds hhome hhomec] at hmem
    exact List.mem_singleton.mp hmem
  rw [Bool.eq_iff_iff]
  simp only [recognises, List.any_eq_true, List.mem_filter, Bool.and_eq_true, Bool.not_eq_true']
  constructor
  · rintro ⟨item, ⟨hitem, hnot⟩, hholds⟩
    refine ⟨⟨item, hitem, hholds⟩, Bool.eq_false_iff.mpr fun hchild => ?_⟩
    rw [honly child item hitem hholds hchild, hlead] at hnot
    exact absurd hnot.symm Bool.false_ne_true
  · rintro ⟨⟨item, hitem, hholds⟩, hnot⟩
    refine ⟨item, ⟨hitem, Bool.eq_false_iff.mpr fun hitemlead => ?_⟩, hholds⟩
    rw [honly lead item hitem hitemlead hlead, hnot] at hholds
    exact absurd hholds Bool.false_ne_true

/-! ### The check -/

variable {children rest : List (Child Name Place)}

/-- Where no alternative holds a child, nothing is reported. -/
theorem checkChoice_of_filter_eq_nil (parent : Text)
    (h : children.filter (recognises items) = []) : checkChoice parent items children = [] := by
  refine checkChoice_of_length_le parent ?_
  rw [inUse_eq_nil (List.find?_eq_none.mpr (List.filter_eq_nil_iff.mp h))]
  exact Nat.zero_le 1

/-- The alternative that comes into use first holds the first recognised child and none before. -/
theorem exists_inUse_of_find? (h : children.find? (recognises items) = some lead) :
    ∃ first rest, inUse items children = first :: rest ∧ first ∈ items ∧
      children.find? first.holds = some lead := by
  obtain ⟨hlead, before, after, hchildren, hbefore⟩ := List.find?_eq_some_iff_append.mp h
  obtain ⟨first, others, hfilter⟩ : ∃ first others,
      items.filter (·.holds lead) = first :: others := by
    obtain ⟨item, hitem, hholds⟩ := List.any_eq_true.mp hlead
    exact List.exists_cons_of_ne_nil (List.ne_nil_of_mem (List.mem_filter.mpr ⟨hitem, hholds⟩))
  have hfirst : first ∈ items.filter (·.holds lead) := hfilter ▸ List.mem_cons_self
  obtain ⟨hfirst, hholds⟩ := List.mem_filter.mp hfirst
  obtain ⟨rest, -, hin⟩ := exists_inUse_eq h
  rw [hfilter, List.cons_append] at hin
  refine ⟨first, _, hin, hfirst, ?_⟩
  refine List.find?_eq_some_iff_append.mpr ⟨hholds, before, after, hchildren, ?_⟩
  intro child hchild
  rw [holds_eq_false (by simpa using hbefore child hchild) hfirst]
  rfl

/-- A child outside the alternative of the first recognised child stands after it. -/
theorem find?_outside {before after : List (Child Name Place)} {second : Item Name}
    {offender : Child Name Place} (hbefore : ∀ child ∈ before, recognises items child = false)
    (hlead : home.holds lead = true) (hsecond : second ∈ items)
    (hfind : after.find? second.holds = some offender) (houtside : home.holds offender = false) :
    (before ++ lead :: after).find? (fun child => second.holds child && !home.holds child)
      = some offender := by
  obtain ⟨hholds, middle, later, rfl, hmiddle⟩ := List.find?_eq_some_iff_append.mp hfind
  refine List.find?_eq_some_iff_append.mpr ⟨?_, before ++ lead :: middle, later, by simp, ?_⟩
  · rw [hholds, houtside]
    rfl
  · intro child hchild
    simp only [List.mem_append, List.mem_cons] at hchild
    rcases hchild with hchild | rfl | hchild
    · rw [holds_eq_false (hbefore child hchild) hsecond]
      rfl
    · rw [hlead, Bool.not_true, Bool.and_false]
      rfl
    · have hnot : second.holds child = false := by simpa using hmiddle child hchild
      rw [hnot]
      rfl

/-- **The check of an exclusive choice.** Of the recognised children after the first, the first that
is outside the alternative of the first is reported. -/
theorem checkChoice_eq_of_areExclusive (h : AreExclusive items) (parent : Text)
    (hfilter : children.filter (recognises items) = lead :: rest) (hhome : home ∈ items)
    (hlead : home.holds lead = true) :
    checkChoice parent items children
      = ((rest.find? fun child => !home.holds child).map fun child =>
          child.report (.choiceViolation child.name lead.name parent)).toList := by
  obtain ⟨before, after, rfl, hbefore, -, rfl⟩ := List.filter_eq_cons_iff.mp hfilter
  have hbefore : ∀ child ∈ before, recognises items child = false := fun child hchild =>
    Bool.eq_false_iff.mpr (hbefore child hchild)
  have hothers := h.recognises_others hhome hlead
  have hin : inUse items (before ++ lead :: after)
      = home :: inUse (items.filter fun item => !item.holds lead) after := by
    rw [inUse_append hbefore, inUse, h.filter_holds hhome hlead]
    rfl
  have hoffender : (after.filter (recognises items)).find? (fun child => !home.holds child)
      = after.find? (recognises (items.filter fun item => !item.holds lead)) := by
    rw [List.find?_filter]
    congr 1
    funext child
    rw [hothers child]
    simp
  rw [hoffender]
  cases hfind : after.find? (recognises (items.filter fun item => !item.holds lead)) with
  | none =>
    -- one alternative is in use
    refine checkChoice_of_length_le parent ?_
    rw [hin, inUse_eq_nil hfind]
    exact Nat.le_refl 1
  | some offender =>
    obtain ⟨second, others, hsecond, hmem, hfirst⟩ := exists_inUse_of_find? hfind
    rw [hsecond] at hin
    obtain ⟨used, hused, hcheck⟩ := exists_checkChoice_of_inUse parent hin
    have houtside : home.holds offender = false := by
      have hoffender := hothers offender
      rw [List.find?_some hfind, eq_comm, Bool.and_eq_true] at hoffender
      simpa using hoffender.2
    have hlead' : (before ++ lead :: after).find? home.holds = some lead := by
      refine List.find?_eq_some_iff_append.mpr ⟨hlead, before, after, rfl, fun child hchild => ?_⟩
      rw [holds_eq_false (hbefore child hchild) hhome]
      rfl
    obtain rfl := Option.some.inj (hused.symm.trans hlead')
    rw [hcheck, find?_outside hbefore hlead (List.mem_filter.mp hmem).1 hfirst houtside]

/-- The recognised children belong together when they are all in the alternative of the first. -/
theorem belongTogether_cons_iff (h : AreExclusive items) (hhome : home ∈ items)
    (hlead : home.holds lead = true) :
    BelongTogether items (lead :: rest) ↔ rest.find? (fun child => !home.holds child) = none := by
  rw [List.find?_eq_none]
  constructor
  · rintro (hnil | ⟨item, hitem, hholds⟩)
    · exact nomatch hnil
    · have hmem : item ∈ items.filter (·.holds lead) :=
        List.mem_filter.mpr ⟨hitem, hholds lead List.mem_cons_self⟩
      rw [h.filter_holds hhome hlead, List.mem_singleton] at hmem
      subst hmem
      intro child hchild
      rw [hholds child (List.mem_cons_of_mem lead hchild)]
      exact Bool.false_ne_true
  · intro hall
    refine Or.inr ⟨home, hhome, fun child hchild => ?_⟩
    rcases List.mem_cons.mp hchild with rfl | hchild
    · exact hlead
    · simpa using hall child hchild

/-! ### What the check does not depend on -/

theorem SameAlternatives.exists_mem (h : SameAlternatives items others) (hhome : home ∈ items) :
    ∃ other ∈ others, other.nameSet = home.nameSet := by
  have hmem : home.nameSet ∈ others.map Item.nameSet := h.subset (List.mem_map_of_mem hhome)
  exact List.mem_map.mp hmem

/-- The same children are recognised. -/
theorem SameAlternatives.recognises_eq (h : SameAlternatives items others)
    (child : Child Name Place) : recognises others child = recognises items child := by
  have hany : ∀ items : List (Item Name),
      recognises items child = (items.map Item.nameSet).any fun names => names child.name := by
    intro items
    rw [List.any_map]
    rfl
  rw [hany, hany, h.any_eq]

/-- No name gets into two alternatives. -/
theorem SameAlternatives.areExclusive (h : SameAlternatives items others)
    (hexclusive : AreExclusive items) : AreExclusive others := by
  have hsymm : ∀ {a b : Name → Bool}, (∀ name, a name = true → b name = false) →
      ∀ name, b name = true → a name = false := by
    intro a b hapart name hb
    refine Bool.eq_false_iff.mpr fun ha => ?_
    rw [hapart name ha] at hb
    exact absurd hb Bool.false_ne_true
  have hmap : ∀ items : List (Item Name), AreExclusive items ↔
      (items.map Item.nameSet).Pairwise fun a b => ∀ name, a name = true → b name = false :=
    fun items => by rw [List.pairwise_map]; rfl
  rw [hmap] at hexclusive ⊢
  exact (h.pairwise_iff hsymm).mp hexclusive

end

/-! ### Models -/

namespace ContentModel

variable {items : List (Item Name)}

/-- **The diagnostic of an exclusive choice.** When the recognised children belong together, nothing
is reported. When they do not, the first of them that is outside the alternative of the first is
reported, and it alone, as one that does not go with the first. Other bounds, other alternatives
with the same sets of names, in another order or put together otherwise, and other children that are
not recognised do not change the report. -/
theorem check_of_areExclusive (h : AreExclusive items) (bounds : Bounds) (parent : Text)
    (children : List (Child Name Place)) :
    (BelongTogether items (children.filter (recognises items)) →
      (⟨.choice, items, bounds⟩ : ContentModel Name).check parent children = []) ∧
    (¬ BelongTogether items (children.filter (recognises items)) →
      ∃ lead rest, children.filter (recognises items) = lead :: rest ∧
        ∃ home ∈ items, home.holds lead = true ∧
          ∃ offender, rest.find? (fun child => !home.holds child) = some offender ∧
            (⟨.choice, items, bounds⟩ : ContentModel Name).check parent children
              = [offender.report (.choiceViolation offender.name lead.name parent)]) ∧
    ∀ (others : List (Item Name)) (otherBounds : Bounds) (otherChildren : List (Child Name Place)),
      SameAlternatives items others →
      otherChildren.filter (recognises items) = children.filter (recognises items) →
        (⟨.choice, others, otherBounds⟩ : ContentModel Name).check parent otherChildren
          = (⟨.choice, items, bounds⟩ : ContentModel Name).check parent children := by
  have hothers : ∀ {others : List (Item Name)}, SameAlternatives items others →
      (recognises others : Child Name Place → Bool) = recognises items :=
    fun hsame => funext hsame.recognises_eq
  have hmodel : ∀ (items : List (Item Name)) (bounds : Bounds) (children : List (Child Name Place)),
      (⟨.choice, items, bounds⟩ : ContentModel Name).check parent children
        = checkChoice parent items children := fun _ _ _ => rfl
  simp only [hmodel]
  cases hfilter : children.filter (recognises items) with
  | nil =>
    have hnone := checkChoice_of_filter_eq_nil parent hfilter
    refine ⟨fun _ => hnone, fun hapart => absurd (Or.inl rfl) hapart, ?_⟩
    intro others _ otherChildren hsame hsameChildren
    rw [hnone]
    refine checkChoice_of_filter_eq_nil parent ?_
    rw [hothers hsame, hsameChildren]
  | cons lead rest =>
    obtain ⟨home, hhome, hlead⟩ : ∃ home ∈ items, home.holds lead = true := by
      have hmem : lead ∈ children.filter (recognises items) := hfilter ▸ List.mem_cons_self
      exact List.any_eq_true.mp (List.mem_filter.mp hmem).2
    have hcheck := checkChoice_eq_of_areExclusive h parent hfilter hhome hlead
    rw [belongTogether_cons_iff h hhome hlead]
    refine ⟨fun htogether => ?_, fun hapart => ?_, ?_⟩
    · rw [hcheck, htogether]
      rfl
    · obtain ⟨offender, hoffender⟩ := Option.ne_none_iff_exists'.mp hapart
      refine ⟨lead, rest, rfl, home, hhome, hlead, offender, hoffender, ?_⟩
      rw [hcheck, hoffender]
      rfl
    · intro others _ otherChildren hsame hsameChildren
      obtain ⟨other, hother, hnames⟩ := hsame.exists_mem hhome
      have hholds : ∀ child : Child Name Place, other.holds child = home.holds child :=
        fun child => congrFun hnames child.name
      rw [hcheck, checkChoice_eq_of_areExclusive (hsame.areExclusive h) parent
        (by rw [hothers hsame, hsameChildren]) hother ((hholds lead).trans hlead)]
      simp only [hholds]

/-- Two groups and an element as alternatives. The first two children are in the second group, the
third is in no alternative, and the fourth is reported. With the alternatives the other way round, a
group put together otherwise, and the third child left out, the report is the same. -/
theorem check_exclusive_groups :
    AreExclusive [pair "a" "b", pair "c" "d", lone "e"] ∧
    SameAlternatives [pair "a" "b", pair "c" "d", lone "e"] [lone "e", pair "d" "c", pair "a" "b"] ∧
    (⟨.choice, [pair "a" "b", pair "c" "d", lone "e"], Bounds.once⟩ : ContentModel Text).check
        (Text.ofString "p")
        [childAt "d" 4, childAt "c" 8, childAt "x" 12, childAt "b" 16, childAt "e" 20]
      = [(childAt "b" 16).report (.choiceViolation (Text.ofString "b") (Text.ofString "d")
          (Text.ofString "p"))] ∧
    (⟨.choice, [lone "e", pair "d" "c", pair "a" "b"], Bounds.anyNumber⟩ : ContentModel Text).check
        (Text.ofString "p") [childAt "d" 4, childAt "c" 8, childAt "b" 16, childAt "e" 20]
      = [(childAt "b" 16).report (.choiceViolation (Text.ofString "b") (Text.ofString "d")
          (Text.ofString "p"))] := by
  have hexclusive : AreExclusive [pair "a" "b", pair "c" "d", lone "e"] :=
    areExclusive_iff.mpr (by decide +kernel)
  have hsame : SameAlternatives [pair "a" "b", pair "c" "d", lone "e"]
      [lone "e", pair "d" "c", pair "a" "b"] := by
    have hnames : (pair "d" "c").nameSet = (pair "c" "d").nameSet := by
      funext name
      simp [Item.nameSet, pair, lone, Item.names, ContentModel.names, Item.namesOfAll, or_comm]
    simp only [SameAlternatives, List.map_cons, List.map_nil, hnames]
    exact (List.reverse_perm _).symm
  have hapart : ¬ BelongTogether [pair "a" "b", pair "c" "d", lone "e"]
      [childAt "d" 4, childAt "c" 8, childAt "b" 16, childAt "e" 20] := by
    have hmem : pair "c" "d" ∈ [pair "a" "b", pair "c" "d", lone "e"] := by simp
    rw [belongTogether_cons_iff hexclusive hmem rfl]
    exact Option.some_ne_none _
  obtain ⟨-, hreports, hothers⟩ := check_of_areExclusive hexclusive Bounds.once (Text.ofString "p")
    [childAt "d" 4, childAt "c" 8, childAt "x" 12, childAt "b" 16, childAt "e" 20]
  obtain ⟨lead, rest, hfilter, home, hhome, hlead, offender, hoffender, hcheck⟩ := hreports hapart
  have hrecognised :
      [childAt "d" 4, childAt "c" 8, childAt "b" 16, childAt "e" 20] = lead :: rest := hfilter
  obtain ⟨rfl, rfl⟩ := List.cons.inj hrecognised
  have hhome : home = pair "c" "d" := by
    have hmem : home ∈ [pair "a" "b", pair "c" "d", lone "e"].filter (·.holds (childAt "d" 4)) :=
      List.mem_filter.mpr ⟨hhome, hlead⟩
    exact List.mem_singleton.mp hmem
  subst hhome
  obtain rfl : childAt "b" 16 = offender := Option.some.inj hoffender
  have hother := hothers _ Bounds.anyNumber
    [childAt "d" 4, childAt "c" 8, childAt "b" 16, childAt "e" 20] hsame rfl
  exact ⟨hexclusive, hsame, hcheck, hother.trans hcheck⟩

end ContentModel

end MarkupGrammar
