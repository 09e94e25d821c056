import MarkupGrammar.Proofs.RelaxNg.Reachable

/-!
# Mixed content written out

RELAX NG defines a mixed pattern as an interleaving of text with what is in it. Writing mixed
patterns out that way should change nothing about a grammar, and it changes nothing about content:
the items of the model are the same, and so is what stands in the way of reading them.

It changes attributes. They are looked for in an interleaving and not in a mixed pattern, so what a
mixed pattern leads to is found only when it is written out. A mixed pattern that leads to no named
attribute has nothing to lose.

`WrittenOut Q` relates patterns in which any number of mixed patterns are written out, those with a
body that satisfies `Q`.

## Main results

* `WrittenOut.expandAll` — expansion keeps the relation
* `WrittenOut.sameContent` — related patterns are the same content
* `WrittenOut.attributesOfAll_eq` — and have the same attributes, where none are lost
-/

namespace MarkupGrammar

namespace Pattern

/-- Whether a pattern has no patterns in it. -/
def isSimple : Pattern → Bool
  | .combine _ _ => false
  | .occurs _ _ => false
  | .resolved _ _ => false
  | _ => true

/-- Some mixed patterns, each with a body that satisfies `Q`, are written out. -/
inductive WrittenOut (Q : List Pattern → Prop) : List Pattern → List Pattern → Prop
  | nil : WrittenOut Q [] []
  | simple {p : Pattern} {ps qs : List Pattern} (hp : p.isSimple = true)
      (h : WrittenOut Q ps qs) : WrittenOut Q (p :: ps) (p :: qs)
  | combine {kind : CombineKind} {body written ps qs : List Pattern}
      (hbody : WrittenOut Q body written) (h : WrittenOut Q ps qs) :
      WrittenOut Q (.combine kind body :: ps) (.combine kind written :: qs)
  | occurs {kind : RepeatKind} {body written ps qs : List Pattern}
      (hbody : WrittenOut Q body written) (h : WrittenOut Q ps qs) :
      WrittenOut Q (.occurs kind body :: ps) (.occurs kind written :: qs)
  | resolved {name : Text} {body written ps qs : List Pattern}
      (hbody : WrittenOut Q body written) (h : WrittenOut Q ps qs) :
      WrittenOut Q (.resolved name body :: ps) (.resolved name written :: qs)
  | mixed {body written ps qs : List Pattern} (hQ : Q body) (hbody : WrittenOut Q body written)
      (h : WrittenOut Q ps qs) :
      WrittenOut Q (.combine .mixed body :: ps) (.combine .interleave (.text :: written) :: qs)

/-! ### Content -/

section SameContent

variable {ps qs : List Pattern}

/-- Two lists of patterns are the same content: among others, alone, and in what stands in the way
of reading them. -/
structure SameContent (ps qs : List Pattern) : Prop where
  any : ps.any isContent = qs.any isContent
  items : toItems ps = toItems qs
  model : contentModel ps = contentModel qs
  misnamed : ps.findSome? misnamed? = qs.findSome? misnamed?
  inner : innerObstacles ps = innerObstacles qs

theorem SameContent.obstacle (h : SameContent ps qs) :
    contentObstacle ps = contentObstacle qs := by
  rw [contentObstacle, contentObstacle, h.misnamed, h.inner]

theorem SameContent.cons {p q : Pattern} (h : SameContent ps qs)
    (hcontent : p.isContent = q.isContent) (hitem : toItem p = toItem q)
    (hmodel : toModel p = toModel q) (hmisnamed : p.misnamed? = q.misnamed?)
    (hinner : innerObstacle p = innerObstacle q) : SameContent (p :: ps) (q :: qs) where
  any := by rw [List.any_cons, List.any_cons, hcontent, h.any]
  items := by rw [toItems, toItems, hitem, h.items]
  model := by rw [contentModel, contentModel, hcontent, h.any, hitem, h.items, hmodel, h.model]
  misnamed := by rw [List.findSome?_cons, List.findSome?_cons, hmisnamed, h.misnamed]
  inner := by rw [innerObstacles, innerObstacles, hinner, h.inner]

end SameContent

/-! ### Attributes that are not lost -/

section Attributes

variable {ps : List Pattern}

/-- A pattern is an attribute with a name. -/
def IsNamedAttribute (p : Pattern) : Prop := ∃ a, p = .attr a ∧ a.name ≠ []

/-- Patterns lead to a named attribute as the import looks for it: anywhere but in a mixed
pattern. -/
def LeadsToAttribute (defines : Table Text (List Pattern)) (ps : List Pattern) : Prop :=
  Reaches defines (fun kind => kind ≠ .mixed) IsNamedAttribute ps

theorem isStable_isNamedAttribute : IsStable IsNamedAttribute := by
  intro left p
  cases p with
  | ref name =>
    rw [expand]
    split <;> simp [IsNamedAttribute]
  | _ => simp [expand, IsNamedAttribute]

theorem leadsToAttribute_cons_iff {p : Pattern} :
    LeadsToAttribute [] (p :: ps) ↔ LeadsToAttribute [] [p] ∨ LeadsToAttribute [] ps :=
  reaches_cons_iff p ps

theorem leadsToAttribute_singleton_iff {p : Pattern} :
    LeadsToAttribute [] [p] ↔ IsNamedAttribute p ∨
      match p with
      | .combine kind body => kind ≠ .mixed ∧ LeadsToAttribute [] body
      | .occurs _ body => LeadsToAttribute [] body
      | .resolved _ body => LeadsToAttribute [] body
      | _ => False := by
  rw [LeadsToAttribute, reaches_singleton_iff]
  cases p <;> simp [LeadsToAttribute, Table.find?]

theorem attributesOf_combine (isRequired : Bool) (kind : CombineKind) (body : List Pattern) :
    attributesOf isRequired (.combine kind body)
      = if kind = .mixed then [] else attributesOfAll (isRequired && kind ≠ .choice) body := by
  cases kind <;> simp [attributesOf]

theorem meet_combine (met : List Text) (kind : CombineKind) (body : List Pattern) :
    meet met (.combine kind body) = if kind = .mixed then .ok met else meetAll met body := by
  cases kind <;> simp [meet]

/-- What stands in the way of reading the first of several patterns, or the others. -/
theorem contentObstacle_cons_eq_none_iff {p : Pattern} :
    contentObstacle (p :: ps) = none ↔
      (p.misnamed? = none ∧ innerObstacle p = none) ∧ contentObstacle ps = none := by
  rw [contentObstacle, contentObstacle, List.findSome?_cons, innerObstacles]
  cases p.misnamed? <;> simp [and_left_comm]

/-- **Attributes are found where one is led to,** and nowhere else. -/
theorem attributesOfAll_eq_nil_iff (isRequired : Bool) (ps : List Pattern) :
    attributesOfAll isRequired ps = [] ↔ ¬ LeadsToAttribute [] ps := by
  cases ps with
  | nil => exact iff_of_true (by rw [attributesOfAll]) not_reaches_nil
  | cons p ps =>
    rw [attributesOfAll, List.append_eq_nil_iff, leadsToAttribute_cons_iff, not_or,
      attributesOfAll_eq_nil_iff isRequired ps]
    refine and_congr_left fun _ => ?_
    rw [leadsToAttribute_singleton_iff]
    cases p with
    | attr a => by_cases hname : a.name = [] <;> simp [attributesOf, IsNamedAttribute, hname]
    | occurs kind body =>
      rw [attributesOf, attributesOfAll_eq_nil_iff _ body]
      simp [IsNamedAttribute]
    | combine kind body =>
      rw [attributesOf_combine]
      split
      · next hkind => simp [IsNamedAttribute, hkind]
      · next hkind =>
        rw [attributesOfAll_eq_nil_iff _ body]
        simp [IsNamedAttribute, hkind]
    | resolved name body =>
      rw [attributesOf, attributesOfAll_eq_nil_iff _ body]
      simp [IsNamedAttribute]
    | _ => simp [attributesOf, IsNamedAttribute]
termination_by sizeOf ps

/-- Whether patterns of a grammar lead to an attribute can be computed. -/
theorem leadsToAttribute_iff {defines : Table Text (List Pattern)} (hdefines : defines.Distinct) :
    LeadsToAttribute defines ps ↔ attributesOfAll true (expandAll defines ps) ≠ [] := by
  rw [ne_eq, attributesOfAll_eq_nil_iff, not_not, LeadsToAttribute, LeadsToAttribute,
    reaches_expandAll isStable_isNamedAttribute hdefines]

/-- Where none is led to, none is met, unless something stands in the way of the content. -/
theorem meetAll_eq_ok (met : List Text) (ps : List Pattern) (h : ¬ LeadsToAttribute [] ps)
    (hobstacle : contentObstacle ps = none) : meetAll met ps = .ok met := by
  cases ps with
  | nil => rw [meetAll]
  | cons p ps =>
    rw [leadsToAttribute_cons_iff, not_or] at h
    obtain ⟨hp, hps⟩ := h
    rw [leadsToAttribute_singleton_iff, not_or] at hp
    rw [contentObstacle_cons_eq_none_iff] at hobstacle
    obtain ⟨⟨hmisnamed, hinner⟩, hrest⟩ := hobstacle
    have hfirst : meet met p = .ok met := by
      cases p with
      | attr a =>
        have hname : a.name = [] := by_contra fun hne => hp.1 ⟨a, rfl, hne⟩
        simp [meet, hname]
      | misnamed name => exact nomatch hmisnamed
      | occurs kind body =>
        rw [innerObstacle] at hinner
        rw [meet]
        exact meetAll_eq_ok met body hp.2 hinner
      | combine kind body =>
        rw [innerObstacle] at hinner
        rw [meet_combine]
        split
        · rfl
        · next hkind => exact meetAll_eq_ok met body (fun hbody => hp.2 ⟨hkind, hbody⟩) hinner
      | resolved name body =>
        rw [innerObstacle] at hinner
        rw [meet]
        exact meetAll_eq_ok met body hp.2 hinner
      | _ => simp [meet]
    rw [meetAll, hfirst]
    exact meetAll_eq_ok met ps hps hrest
termination_by sizeOf ps

end Attributes

/-! ### Expanded patterns -/

namespace WrittenOut

variable {Q R : List Pattern → Prop} {ps qs : List Pattern}

/-- **Writing mixed patterns out does not change the content.** -/
theorem sameContent (h : WrittenOut Q ps qs) : SameContent ps qs := by
  induction h with
  | nil => exact ⟨rfl, rfl, rfl, rfl, rfl⟩
  | simple hp _ ih => exact ih.cons rfl rfl rfl rfl rfl
  | combine _ _ hbody ih =>
    refine ih.cons rfl ?_ ?_ rfl ?_
    · rw [toItem, toItem, hbody.items]
    · rw [toModel, toModel, hbody.items]
    · rw [innerObstacle, innerObstacle, hbody.misnamed, hbody.inner]
  | occurs _ _ hbody ih =>
    refine ih.cons rfl ?_ ?_ rfl ?_
    · rw [toItem, toItem, hbody.model]
    · rw [toModel, toModel, hbody.model]
    · rw [innerObstacle, innerObstacle, hbody.misnamed, hbody.inner]
  | resolved _ _ hbody ih =>
    refine ih.cons rfl ?_ ?_ rfl ?_
    · rw [toItem, toItem, hbody.model]
    · rw [toModel, toModel, hbody.model]
    · rw [innerObstacle, innerObstacle, hbody.misnamed, hbody.inner]
  | @mixed body written _ _ _ _ _ hbody ih =>
    -- the text that a mixed pattern has of its own is an item of the interleaving
    have hitems : CombineKind.mixed.ownItems ++ toItems body
        = CombineKind.interleave.ownItems ++ toItems (.text :: written) := by
      rw [toItems, toItem, hbody.items]
      rfl
    have htext : innerObstacle .text = none := by simp [innerObstacle]
    refine ih.cons rfl ?_ ?_ rfl ?_
    · rw [toItem, toItem, hitems]
      rfl
    · rw [toModel, toModel, hitems]
      rfl
    · rw [innerObstacle, innerObstacle, innerObstacles, htext, List.findSome?_cons,
        hbody.misnamed, hbody.inner]
      rfl

/-- Nor does it change the attributes, where the mixed patterns lead to none. -/
theorem attributesOfAll_eq (h : WrittenOut (fun body => ¬ LeadsToAttribute [] body) ps qs)
    (isRequired : Bool) : attributesOfAll isRequired ps = attributesOfAll isRequired qs := by
  induction h generalizing isRequired with
  | nil => rfl
  | simple _ _ ih => rw [attributesOfAll, attributesOfAll, ih]
  | combine _ _ hbody ih =>
    rw [attributesOfAll, attributesOfAll, ih, attributesOf_combine, attributesOf_combine, hbody]
  | occurs _ _ hbody ih =>
    rw [attributesOfAll, attributesOfAll, ih, attributesOf, attributesOf, hbody]
  | resolved _ _ hbody ih =>
    rw [attributesOfAll, attributesOfAll, ih, attributesOf, attributesOf, hbody]
  | @mixed body written _ _ hQ _ _ hbody ih =>
    have hwritten : attributesOf isRequired (.combine .interleave (.text :: written)) = [] := by
      rw [attributesOf_combine, if_neg nofun, attributesOfAll, ← hbody,
        (attributesOfAll_eq_nil_iff _ body).mpr hQ, List.append_nil]
      simp [attributesOf]
    rw [attributesOfAll, attributesOfAll, ih, attributesOf_combine, if_pos rfl, hwritten]

theorem meetAll_cons_congr {p q : Pattern} {met : List Text} (hfirst : meet met p = meet met q)
    (hrest : ∀ met, meetAll met ps = meetAll met qs) :
    meetAll met (p :: ps) = meetAll met (q :: qs) := by
  rw [meetAll, meetAll, hfirst]
  split
  · rfl
  · exact hrest _

/-- Nor what is met on the way to them, where nothing stands in the way of the content. -/
theorem meetAll_eq (h : WrittenOut (fun body => ¬ LeadsToAttribute [] body) ps qs)
    (met : List Text) (hobstacle : contentObstacle ps = none) :
    meetAll met ps = meetAll met qs := by
  induction h generalizing met with
  | nil => rfl
  | simple _ _ ih =>
    rw [contentObstacle_cons_eq_none_iff] at hobstacle
    exact meetAll_cons_congr rfl fun met => ih met hobstacle.2
  | combine _ _ hbody ih =>
    rw [contentObstacle_cons_eq_none_iff, innerObstacle] at hobstacle
    refine meetAll_cons_congr ?_ fun met => ih met hobstacle.2
    rw [meet_combine, meet_combine, hbody _ hobstacle.1.2]
  | occurs _ _ hbody ih =>
    rw [contentObstacle_cons_eq_none_iff, innerObstacle] at hobstacle
    refine meetAll_cons_congr ?_ fun met => ih met hobstacle.2
    rw [meet, meet, hbody _ hobstacle.1.2]
  | resolved _ _ hbody ih =>
    rw [contentObstacle_cons_eq_none_iff, innerObstacle] at hobstacle
    refine meetAll_cons_congr ?_ fun met => ih met hobstacle.2
    rw [meet, meet, hbody _ hobstacle.1.2]
  | @mixed body written _ _ hQ _ _ hbody ih =>
    rw [contentObstacle_cons_eq_none_iff, innerObstacle] at hobstacle
    have htext : meet met .text = .ok met := by simp [meet]
    have hwritten : meet met (.combine .interleave (.text :: written)) = .ok met := by
      rw [meet_combine, if_neg nofun, meetAll, htext]
      exact (hbody met hobstacle.1.2).symm.trans (meetAll_eq_ok met body hQ hobstacle.1.2)
    refine meetAll_cons_congr ?_ fun met => ih met hobstacle.2
    rw [meet_combine, if_pos rfl, hwritten]

/-! ### Expansion -/

mutual

/-- A pattern may stay as it is. -/
theorem same (p : Pattern) {ps qs : List Pattern} (h : WrittenOut Q ps qs) :
    WrittenOut Q (p :: ps) (p :: qs) := by
  cases p with
  | combine kind body => exact .combine (refl body) h
  | occurs kind body => exact .occurs (refl body) h
  | resolved name body => exact .resolved (refl body) h
  | _ => exact .simple rfl h

theorem refl (ps : List Pattern) : WrittenOut Q ps ps := by
  cases ps with
  | nil => exact .nil
  | cons p ps => exact same p (refl ps)

end

/-- The definitions of one table are those of another with mixed patterns written out. -/
def OfTables (Q : List Pattern → Prop) : Table Text (List Pattern) → Table Text (List Pattern) →
    Prop :=
  List.Forall₂ fun d written => d.1 = written.1 ∧ WrittenOut Q d.2 written.2

section Tables

variable {left written : Table Text (List Pattern)}

theorem OfTables.without (h : OfTables Q left written) (name : Text) :
    OfTables Q (left.filter fun d => !(d.1 == name)) (written.filter fun d => !(d.1 == name)) := by
  induction h with
  | nil => exact .nil
  | cons hd _ ih =>
    rw [List.filter_cons, List.filter_cons, hd.1]
    split
    · exact .cons hd ih
    · exact ih

theorem OfTables.find?_cases (h : OfTables Q left written) (name : Text) :
    (left.find? name = none ∧ written.find? name = none) ∨
      ∃ body body', left.find? name = some body ∧ written.find? name = some body' ∧
        WrittenOut Q body body' := by
  induction h with
  | nil => exact Or.inl ⟨rfl, rfl⟩
  | @cons d d' _ _ hd _ ih =>
    obtain ⟨key, body⟩ := d
    obtain ⟨key', body'⟩ := d'
    obtain rfl : key = key' := hd.1
    rw [Table.find?, Table.find?]
    split
    · exact Or.inr ⟨body, body', rfl, rfl, hd.2⟩
    · exact ih

theorem OfTables.isSome_find? (h : OfTables Q left written) (name : Text) :
    (left.find? name).isSome = (written.find? name).isSome := by
  rcases h.find?_cases name with ⟨hl, hw⟩ | ⟨body, body', hl, hw, -⟩
  · rw [hl, hw]
  · rw [hl, hw, Option.isSome_some, Option.isSome_some]

/-- What `Q` says of patterns of a grammar, `R` says of them when they are expanded with some of its
definitions. -/
def Passes (defines : Table Text (List Pattern)) (Q R : List Pattern → Prop) : Prop :=
  ∀ left : Table Text (List Pattern), left.Distinct →
    (∀ name body, left.find? name = some body → defines.find? name = some body) →
      ∀ body, Q body → R (Pattern.expandAll left body)

theorem passes_true (defines : Table Text (List Pattern)) :
    Passes defines (fun _ => True) (fun _ => True) :=
  fun _ _ _ _ _ => trivial

/-- What leads to no attribute leads to none when it is expanded. -/
theorem passes_leadsToAttribute (defines : Table Text (List Pattern)) :
    Passes defines (fun body => ¬ LeadsToAttribute defines body)
      (fun body => ¬ LeadsToAttribute [] body) := by
  intro left hleft hsub body hbody hleads
  rw [LeadsToAttribute, reaches_expandAll isStable_isNamedAttribute hleft] at hleads
  exact hbody (hleads.mono hsub)

theorem expand_of_isSimple {p : Pattern} (hp : p.isSimple = true) (hno : ∀ name, p ≠ .ref name) :
    expand left p = p := by
  cases p with
  | ref name => exact (hno name rfl).elim
  | combine kind body => exact nomatch hp
  | occurs kind body => exact nomatch hp
  | resolved name body => exact nomatch hp
  | _ => simp [expand]

/-- **Expansion keeps the relation.** A definition that is entered has its mixed patterns written
out as well. -/
theorem expandAll {defines : Table Text (List Pattern)} (hpasses : Passes defines Q R)
    (hleft : left.Distinct) (hwritten : written.Distinct)
    (hsub : ∀ name body, left.find? name = some body → defines.find? name = some body)
    (htables : OfTables Q left written) (h : WrittenOut Q ps qs) :
    WrittenOut R (Pattern.expandAll left ps) (Pattern.expandAll written qs) := by
  -- the definitions left become fewer with every definition that is entered
  induction hlength : left.length using Nat.strongRecOn generalizing left written ps qs with
  | _ length ihlength =>
    subst hlength
    induction h with
    | nil =>
      rw [Pattern.expandAll, Pattern.expandAll]
      exact .nil
    | @simple p _ _ hp _ ih =>
      rw [Pattern.expandAll, Pattern.expandAll]
      by_cases href : ∃ name, p = .ref name
      · obtain ⟨name, rfl⟩ := href
        rcases htables.find?_cases name with ⟨hname, hname'⟩ | ⟨body, body', hname, hname', hbody⟩
        · rw [expand_ref_of_find?_eq_none hleft hname, expand_ref_of_find?_eq_none hwritten hname']
          exact .simple rfl ih
        · rw [expand_ref_of_find? hleft hname, expand_ref_of_find? hwritten hname']
          exact .resolved (ihlength _ (length_without_lt hname) (hleft.filter _)
            (hwritten.filter _) (fun other d hd => hsub other d (find?_of_find?_without hd))
            (htables.without name) hbody rfl) ih
      · have hno : ∀ name, p ≠ .ref name := fun name hname => href ⟨name, hname⟩
        rw [expand_of_isSimple hp hno, expand_of_isSimple hp hno]
        exact .simple hp ih
    | combine _ _ hbody ih =>
      rw [Pattern.expandAll, Pattern.expandAll, expand, expand]
      exact .combine hbody ih
    | occurs _ _ hbody ih =>
      rw [Pattern.expandAll, Pattern.expandAll, expand, expand]
      exact .occurs hbody ih
    | resolved _ _ hbody ih =>
      rw [Pattern.expandAll, Pattern.expandAll, expand, expand]
      exact .resolved hbody ih
    | mixed hQ _ _ hbody ih =>
      have htext : expand written .text = .text := by simp [expand]
      rw [Pattern.expandAll, Pattern.expandAll, expand, expand, Pattern.expandAll, htext]
      exact .mixed (hpasses left hleft hsub _ hQ) hbody ih

end Tables

end WrittenOut

end Pattern

end MarkupGrammar
