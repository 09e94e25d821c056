import MarkupGrammar.Proofs.Check.Conformance
import MarkupGrammar.Proofs.Grammar.Required
import Mathlib.Data.List.Forall2

/-!
# Cardinalities

In a sequence, an interleaving or a group, each element item counts the children of its name, and so
does each item of the groups inside, as far as they are of these three arrangements. The check goes
down a model and counts again and again, over the same children. This module says of each element
item by itself what is reported about it, from the list of all that it stands in.

An item that the check comes to is *exposed*. It is at fault when its name occurs, but less often
than the item asks for, or when its name occurs more often than the item allows. No item is at fault
in both ways, since its bounds are in order.

## Main results

* `ContentModel.forall₂_check` — the cardinality diagnostics are those of the exposed items at
  fault, one each, in the order of the model
* `ContentModel.cardinality_check` — and only their positions depend on the order of the children
-/

namespace MarkupGrammar

variable {Name Place : Type}

/-- Whether a finding is about how often a name occurs. -/
def Finding.isCardinality : Finding Name → Bool
  | .tooMany .. => true
  | .tooFew .. => true
  | _ => false

/-- Whether a check that comes to the enclosure goes on to the items inside and counts them. -/
def Enclosure.counts : Enclosure → Bool
  | .model arrangement _ => arrangement ∈ [.sequence, .interleave, .group]
  | .group _ => true

variable [BEq Name]

/-- How many children have a name. -/
def tally (name : Name) (children : List (Child Name Place)) : Nat :=
  children.countP (·.name == name)

/-- A child of a name, with a number of children of that name before it. -/
def IsNth (children : List (Child Name Place)) (name : Name) (n : Nat) (child : Child Name Place) :
    Prop :=
  ∃ before after, children = before ++ child :: after ∧ (child.name == name) = true ∧
    tally name before = n

namespace Occurrence

/-- Whether the check comes to an element item: all models around it are sequences, interleavings or
groups. -/
def isExposed (o : Occurrence Name) : Bool := o.within.all Enclosure.counts

/-- Whether the name of an element item occurs, and less or more often than the item allows. -/
def isMiscounted (children : List (Child Name Place)) (o : Occurrence Name) : Bool :=
  0 < tally o.name children &&
    (tally o.name children < o.bounds.least || !o.bounds.most.admits (tally o.name children))

/-- An element item is at fault when the check comes to it and finds it miscounted. -/
def isAtFault (children : List (Child Name Place)) (o : Occurrence Name) : Bool :=
  o.isExposed && o.isMiscounted children

/-- What is reported about an element item: too few children at the first of them, too many at the
first in excess. -/
inductive Reports (parent : Text) (children : List (Child Name Place)) (o : Occurrence Name) :
    Diagnostic Name Place → Prop
  | tooFew {child : Child Name Place} (hsome : 0 < tally o.name children)
      (hfew : tally o.name children < o.bounds.least) (hchild : IsNth children o.name 0 child) :
      Reports parent children o (child.report (.tooFew o.name o.bounds.least parent))
  | tooMany {most : Nat} {child : Child Name Place} (hmost : o.bounds.most = .finite most)
      (hmany : most < tally o.name children) (hchild : IsNth children o.name most child) :
      Reports parent children o (child.report (.tooMany o.name most parent))

end Occurrence

section

variable {parent : Text} {children others : List (Child Name Place)}

/-! ### One element item -/

/-- The children of a name are counted off in the order of the document. -/
theorem isNth_of_getElem? {name : Name} {n : Nat} {child : Child Name Place}
    (h : (children.filter (·.name == name))[n]? = some child) : IsNth children name n child := by
  induction children generalizing n with
  | nil => exact nomatch h
  | cons first children ih =>
    cases hfirst : first.name == name with
    | false =>
      rw [List.filter_cons_of_neg (by simp [hfirst])] at h
      obtain ⟨before, after, rfl, hname, hn⟩ := ih h
      refine ⟨first :: before, after, rfl, hname, ?_⟩
      rw [tally, List.countP_cons_of_neg (by simp [hfirst])]
      exact hn
    | true =>
      rw [List.filter_cons_of_pos (by exact hfirst)] at h
      cases n with
      | zero =>
        obtain rfl := Option.some.inj h
        exact ⟨[], children, rfl, hfirst, rfl⟩
      | succ n =>
        obtain ⟨before, after, rfl, hname, hn⟩ := ih h
        refine ⟨first :: before, after, rfl, hname, ?_⟩
        rw [tally, List.countP_cons_of_pos (by exact hfirst)]
        exact congrArg Nat.succ hn

/-- As many children of a name there are, so many are counted off. -/
theorem length_filter_eq_tally (name : Name) (children : List (Child Name Place)) :
    (children.filter (·.name == name)).length = tally name children :=
  List.countP_eq_length_filter.symm

/-- **What is reported about an element item** is one diagnostic if it is at fault, and none
otherwise. -/
theorem Occurrence.forall₂_checkCount (o : Occurrence Name) (parent : Text)
    (children : List (Child Name Place)) :
    List.Forall₂ (Reports parent children) ([o].filter (isMiscounted children))
      (checkCount parent o.name o.bounds children) := by
  have hlength := length_filter_eq_tally o.name children
  rw [checkCount, List.filter_singleton, isMiscounted]
  cases hfound : children.filter (·.name == o.name) with
  | nil =>
    rw [hfound, List.length_nil] at hlength
    rw [← hlength]
    exact .nil
  | cons first rest =>
    have hchild : ∀ {n : Nat} {child : Child Name Place},
        (first :: rest)[n]? = some child → IsNth children o.name n child :=
      fun h => isNth_of_getElem? (hfound ▸ h)
    rw [hfound] at hlength
    have hsome : 0 < tally o.name children := by rw [← hlength]; exact Nat.zero_lt_succ _
    cases hmost : o.bounds.most with
    | unbounded =>
      by_cases hfew : tally o.name children < o.bounds.least
      · simpa [hlength, hsome, hfew] using .tooFew hsome hfew (hchild rfl)
      · simp [hlength, hfew, Limit.admits]
    | finite most =>
      have hle := Bounds.least_le hmost
      dsimp only
      by_cases hmany : most < tally o.name children
      · have hsurplus : (first :: rest)[most]? = some (first :: rest)[most] :=
          List.getElem?_eq_getElem (hlength ▸ hmany)
        have henough : ¬ tally o.name children < o.bounds.least := by omega
        have hreport : Reports parent children o _ := .tooMany hmost hmany (hchild hsurplus)
        rw [hsurplus]
        simpa [hlength, hsome, henough, Limit.admits, Nat.not_le_of_lt hmany] using hreport
      · rw [List.getElem?_eq_none (by omega)]
        by_cases hfew : tally o.name children < o.bounds.least
        · have hreport : Reports parent children o _ := .tooFew hsome hfew (hchild rfl)
          simpa [hlength, hsome, hfew] using hreport
        · simp [hlength, hfew, Limit.admits, Nat.le_of_not_lt hmany]

/-- So nothing is reported about an item that is not at fault. -/
theorem checkCount_eq_nil_iff (o : Occurrence Name) :
    checkCount parent o.name o.bounds children = [] ↔ o.isMiscounted children = false := by
  have hcount := o.forall₂_checkCount parent children
  rw [List.filter_singleton] at hcount
  cases hfault : o.isMiscounted children with
  | false =>
    rw [hfault] at hcount
    simpa using hcount
  | true =>
    rw [hfault] at hcount
    obtain ⟨d, ds, -, -, heq⟩ := List.forall₂_cons_left_iff.mp hcount
    simp [heq]

/-- What is found when an item's children are counted is reported about the item. -/
theorem Occurrence.reports_of_mem_checkCount (o : Occurrence Name) {d : Diagnostic Name Place}
    (hd : d ∈ checkCount parent o.name o.bounds children) : o.Reports parent children d := by
  have hcount := o.forall₂_checkCount parent children
  rw [List.filter_singleton] at hcount
  cases hfault : o.isMiscounted children with
  | false =>
    rw [(checkCount_eq_nil_iff o).mpr hfault] at hd
    exact nomatch hd
  | true =>
    rw [hfault] at hcount
    obtain ⟨e, es, hreports, hes, heq⟩ := List.forall₂_cons_left_iff.mp hcount
    obtain rfl := List.forall₂_nil_left_iff.mp hes
    rw [heq] at hd
    obtain rfl := List.mem_singleton.mp hd
    exact hreports

/-- A report about too few or too many is about a cardinality. -/
theorem isCardinality_of_mem_checkCount {name : Name} {bounds : Bounds} {d : Diagnostic Name Place}
    (hd : d ∈ checkCount parent name bounds children) : d.finding.isCardinality = true := by
  obtain ⟨child, -, -, rfl | ⟨most, rfl⟩⟩ := exists_of_mem_checkCount hd
  · rfl
  · rfl

/-! ### Models -/

/-- A model that does not count its items says nothing about cardinalities. -/
theorem filter_check_of_counts_eq_false (m : ContentModel Name)
    (h : (Enclosure.model m.arrangement m.bounds).counts = false) :
    (m.check parent children).filter (·.finding.isCardinality) = [] := by
  obtain ⟨arrangement, items, bounds⟩ := m
  rw [List.filter_eq_nil_iff]
  intro d hd
  cases arrangement with
  | choice =>
    obtain ⟨child, -, other, rfl⟩ := exists_of_mem_checkChoice hd
    exact Bool.false_ne_true
  | empty =>
    cases children with
    | nil => exact nomatch hd
    | cons child children =>
      obtain rfl := List.mem_singleton.mp hd
      exact Bool.false_ne_true
  | element => exact nomatch hd
  | text => exact nomatch hd
  | sequence => exact nomatch h
  | interleave => exact nomatch h
  | group => exact nomatch h

/-- A model that counts its items is checked item by item. -/
theorem check_of_counts (m : ContentModel Name)
    (h : (Enclosure.model m.arrangement m.bounds).counts = true) :
    m.check parent children = Item.checkAll parent children m.items := by
  obtain ⟨arrangement, items, bounds⟩ := m
  cases arrangement with
  | sequence => rfl
  | interleave => rfl
  | group => rfl
  | _ => exact nomatch h

/-- The cardinality diagnostics among some, where the check comes to what stands in the
enclosures. -/
def cardinalities (within : List Enclosure) (ds : List (Diagnostic Name Place)) :
    List (Diagnostic Name Place) :=
  if within.all Enclosure.counts then ds.filter (·.finding.isCardinality) else []

omit [BEq Name] in
theorem cardinalities_append (within : List Enclosure) (ds es : List (Diagnostic Name Place)) :
    cardinalities within (ds ++ es) = cardinalities within ds ++ cardinalities within es := by
  rw [cardinalities, cardinalities, cardinalities]
  split
  · exact List.filter_append _ _
  · rfl

mutual

/-- **Each exposed item at fault is reported once,** in the order of the model, and no other
cardinality is. Where something around does not count its items, none of them is exposed. -/
theorem ContentModel.forall₂_check (within : List Enclosure) (m : ContentModel Name) :
    List.Forall₂ (Occurrence.Reports parent children)
      ((m.occurrences within).filter (·.isAtFault children))
      (cardinalities within (m.check parent children)) := by
  obtain ⟨arrangement, items, bounds⟩ := m
  have hitems := Item.forall₂_checkAll (.model arrangement bounds :: within) items
  rw [ContentModel.occurrences]
  cases hcounts : (Enclosure.model arrangement bounds).counts with
  | true =>
    rw [check_of_counts _ hcounts]
    simpa [cardinalities, hcounts] using hitems
  | false =>
    have hnone : cardinalities within ((⟨arrangement, items, bounds⟩ : ContentModel Name).check
        parent children) = [] := by
      rw [cardinalities, filter_check_of_counts_eq_false _ hcounts, ite_self]
    rw [hnone]
    simpa [cardinalities, hcounts] using hitems

theorem Item.forall₂_checkAll (within : List Enclosure) (items : List (Item Name)) :
    List.Forall₂ (Occurrence.Reports parent children)
      ((Item.occurrencesOfAll within items).filter (·.isAtFault children))
      (cardinalities within (Item.checkAll parent children items)) := by
  cases items with
  | nil =>
    rw [Item.occurrencesOfAll, Item.checkAll, cardinalities, List.filter_nil, List.filter_nil]
    split <;> exact .nil
  | cons item items =>
    rw [Item.occurrencesOfAll, Item.checkAll, List.filter_append, cardinalities_append]
    exact List.rel_append (Item.forall₂_check within item) (Item.forall₂_checkAll within items)

theorem Item.forall₂_check (within : List Enclosure) (item : Item Name) :
    List.Forall₂ (Occurrence.Reports parent children)
      ((item.occurrences within).filter (·.isAtFault children))
      (cardinalities within (item.check parent children)) := by
  cases item with
  | element name bounds =>
    have hcount := Occurrence.forall₂_checkCount ⟨name, bounds, within⟩ parent children
    rw [Item.occurrences, Item.check, cardinalities,
      List.filter_eq_self.mpr fun d hd => isCardinality_of_mem_checkCount hd]
    rw [List.filter_singleton] at hcount ⊢
    rw [Occurrence.isAtFault, Occurrence.isExposed]
    cases within.all Enclosure.counts with
    | true => exact hcount
    | false => exact .nil
  | group content bounds =>
    have hcontent := ContentModel.forall₂_check (.group bounds :: within) content
    rw [Item.occurrences, Item.check]
    simpa [cardinalities, Enclosure.counts] using hcontent
  | text bounds => simp [Item.occurrences, Item.check, cardinalities]
  | pattern name bounds => simp [Item.occurrences, Item.check, cardinalities]

end

/-! ### The order of the children -/

/-- How many children have a name does not depend on their order. -/
theorem tally_perm (h : children.Perm others) (name : Name) :
    tally name children = tally name others :=
  h.countP_eq _

theorem Occurrence.isAtFault_perm (h : children.Perm others) (o : Occurrence Name) :
    o.isAtFault children = o.isAtFault others := by
  rw [isAtFault, isAtFault, isMiscounted, isMiscounted, tally_perm h]

/-- What is reported about an item is the same for as many children of its name. -/
theorem Occurrence.Reports.finding_eq {o : Occurrence Name} {d e : Diagnostic Name Place}
    (htally : tally o.name children = tally o.name others) (hd : Reports parent children o d)
    (he : Reports parent others o e) : d.finding = e.finding := by
  -- a count is not both below the least and above the most
  have hnot : ∀ {most : Nat} {children : List (Child Name Place)}, o.bounds.most = .finite most →
      most < tally o.name children → ¬ tally o.name children < o.bounds.least := by
    intro most children hmost hmany hfew
    have hle := Bounds.least_le hmost
    omega
  cases hd with
  | tooFew hsome hfew hchild =>
    cases he with
    | tooFew hsome' hfew' hchild' => rfl
    | tooMany hmost hmany hchild' => exact absurd (htally ▸ hfew) (hnot hmost hmany)
  | tooMany hmost hmany hchild =>
    cases he with
    | tooFew hsome' hfew' hchild' => exact absurd (htally ▸ hfew') (hnot hmost hmany)
    | tooMany hmost' hmany' hchild' =>
      obtain rfl := Limit.finite.inj (hmost.symm.trans hmost')
      rfl

theorem map_finding_eq {os : List (Occurrence Name)} {ds es : List (Diagnostic Name Place)}
    (h : children.Perm others) (hds : List.Forall₂ (Occurrence.Reports parent children) os ds)
    (hes : List.Forall₂ (Occurrence.Reports parent others) os es) :
    es.map (·.finding) = ds.map (·.finding) := by
  induction hds generalizing es with
  | nil =>
    cases hes
    rfl
  | cons hd _ ih =>
    cases hes with
    | cons he hes =>
      rw [List.map_cons, List.map_cons, hd.finding_eq (tally_perm h _) he, ih hes]

/-- **The cardinality diagnostics of a model.** They are those of the element items that the check
comes to, one for each that is at fault, in the order of the model: too many children, at the first
in excess, or too few, at the first of them. Other children of the same names, in another order, are
found at fault in the same way, though at other places. -/
theorem ContentModel.cardinality_check (m : ContentModel Name) (parent : Text)
    (children : List (Child Name Place)) :
    List.Forall₂ (Occurrence.Reports parent children)
      ((m.occurrences []).filter (·.isAtFault children))
      ((m.check parent children).filter (·.finding.isCardinality)) ∧
    ∀ others : List (Child Name Place), children.Perm others →
      ((m.check parent others).filter (·.finding.isCardinality)).map (·.finding)
        = ((m.check parent children).filter (·.finding.isCardinality)).map (·.finding) := by
  have hreports : ∀ children : List (Child Name Place),
      List.Forall₂ (Occurrence.Reports parent children)
        ((m.occurrences []).filter (·.isAtFault children))
        ((m.check parent children).filter (·.finding.isCardinality)) :=
    fun children => m.forall₂_check []
  refine ⟨hreports children, fun others hperm => ?_⟩
  have hothers := hreports others
  have hfault : (m.occurrences []).filter (·.isAtFault others)
      = (m.occurrences []).filter (·.isAtFault children) :=
    List.filter_congr fun o _ => (o.isAtFault_perm hperm).symm
  rw [hfault] at hothers
  exact map_finding_eq hperm (hreports children) hothers

end

/-- At most one head, and with it three items or more and no note or a label, in any order. -/
def listModel : ContentModel Text :=
  ⟨.sequence,
    [.element (Text.ofString "head") Bounds.optional,
     .group ⟨.interleave,
        [.element (Text.ofString "item") ⟨3, .unbounded, rfl⟩, .text Bounds.anyNumber,
         .element (Text.ofString "note") Bounds.never,
         .group ⟨.choice, [.element (Text.ofString "head") Bounds.never], Bounds.once⟩ Bounds.once],
        Bounds.once⟩ Bounds.anyNumber,
     .element (Text.ofString "label") Bounds.optional], Bounds.once⟩

/-- Children in the first line, one in each column. -/
def childrenNamed (names : List String) : List (Child Text) :=
  names.zipIdx.map fun (name, i) => ⟨Text.ofString name, ⟨1, i + 1⟩⟩

/-- Two heads are one too many, at the second of them, two items are too few, at the first, and the
only note is in excess. The head inside the choice does not count. Read backwards, the children are
at fault in the same way. -/
theorem cardinality_check_listModel :
    listModel.check (Text.ofString "list") (childrenNamed ["item", "head", "note", "head", "item"])
      = [⟨.tooMany (Text.ofString "head") 1 (Text.ofString "list"), ⟨1, 4⟩⟩,
         ⟨.tooFew (Text.ofString "item") 3 (Text.ofString "list"), ⟨1, 1⟩⟩,
         ⟨.tooMany (Text.ofString "note") 0 (Text.ofString "list"), ⟨1, 3⟩⟩] ∧
    (childrenNamed ["item", "head", "note", "head", "item"]).Perm
      (childrenNamed ["item", "head", "note", "head", "item"]).reverse ∧
    ((listModel.check (Text.ofString "list")
        (childrenNamed ["item", "head", "note", "head", "item"]).reverse).filter
          (·.finding.isCardinality)).map (·.finding)
      = [.tooMany (Text.ofString "head") 1 (Text.ofString "list"),
         .tooFew (Text.ofString "item") 3 (Text.ofString "list"),
         .tooMany (Text.ofString "note") 0 (Text.ofString "list")] := by
  refine ⟨rfl, (List.reverse_perm _).symm, ?_⟩
  have hcheck := listModel.cardinality_check (Text.ofString "list")
    (childrenNamed ["item", "head", "note", "head", "item"])
  rw [hcheck.2 _ (List.reverse_perm _).symm]
  rfl

end MarkupGrammar
