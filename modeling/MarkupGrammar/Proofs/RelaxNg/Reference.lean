import MarkupGrammar.RelaxNg.Pattern
import MarkupGrammar.Proofs.Grammar.Table

/-!
# References in patterns

A pattern may refer to a list of patterns by name, definitions refer to each other, and expansion
takes each of them at most once on a path. What is said here about references is said of a grammar
as it is written, where a definition may be entered any number of times, and the cut that expansion
makes is shown to change nothing.

## Contentless patterns

A list of patterns has no content when nothing in it is content, or when its only content is a
pattern that says so, a repetition of patterns without content, or a reference to a definition
without content. A definition that holds an attribute has no content, and neither has one that holds
an optional attribute. A definition that holds two optional attributes has: two patterns are always
a sequence.

## Bare references

A pattern stands among others when it is one of several in a list, or part of a combination, at any
depth and behind any reference. A reference that leads to no content and stands among others is
bare. `Pattern.HasBareReference` is the question that the compiled models of a grammar turn on.

## Why the cut is harmless

`Contentless.avoid` and `Among.avoid` are loop removal: what holds of a list with a definition at
hand holds without it, or it holds of that definition without it. That a bare reference does not
depend on the definitions through which it is found needs one more remark, `Contentless.not_among`:
in a list without content nothing stands among others.

## Main results

* `contentless_expandAll` — expansion keeps what has no content
* `hasBareReference_expandAll` — and it keeps bare references
-/

namespace MarkupGrammar

namespace Pattern

/-- The patterns of a list that are content of the element they stand in. -/
def content (ps : List Pattern) : List Pattern := ps.filter isContent

/-- Whether the pattern is a reference. -/
def isReference : Pattern → Bool
  | .ref _ => true
  | .resolved _ _ => true
  | _ => false

/-- A list of patterns has no content. -/
inductive Contentless (defines : Table Text (List Pattern)) : List Pattern → Prop
  | none {ps : List Pattern} (h : content ps = []) : Contentless defines ps
  | empty {ps : List Pattern} (h : content ps = [.empty]) : Contentless defines ps
  | occurs {ps body : List Pattern} {kind : RepeatKind} (h : content ps = [.occurs kind body])
      (hbody : Contentless defines body) : Contentless defines ps
  | ref {ps body : List Pattern} {name : Text} (h : content ps = [.ref name])
      (hfind : defines.find? name = some body) (hbody : Contentless defines body) :
      Contentless defines ps
  | resolved {ps body : List Pattern} {name : Text} (h : content ps = [.resolved name body])
      (hbody : Contentless defines body) : Contentless defines ps

/-- A pattern stands among others in a list: beside other content, or as part of a combination, in
the list itself or in a pattern that the list leads to without entering another element. -/
inductive Among (defines : Table Text (List Pattern)) (q : Pattern) : List Pattern → Prop
  | beside {ps : List Pattern} (hq : q ∈ ps) (htwo : 2 ≤ (content ps).length) : Among defines q ps
  | combined {ps body : List Pattern} {kind : CombineKind} (hp : .combine kind body ∈ ps)
      (hq : q ∈ body) : Among defines q ps
  | inCombination {ps body : List Pattern} {kind : CombineKind} (hp : .combine kind body ∈ ps)
      (h : Among defines q body) : Among defines q ps
  | inRepetition {ps body : List Pattern} {kind : RepeatKind} (hp : .occurs kind body ∈ ps)
      (h : Among defines q body) : Among defines q ps
  | inDefinition {ps body : List Pattern} {name : Text} (hp : .ref name ∈ ps)
      (hfind : defines.find? name = some body) (h : Among defines q body) : Among defines q ps
  | inResolved {ps body : List Pattern} {name : Text} (hp : .resolved name body ∈ ps)
      (h : Among defines q body) : Among defines q ps

/-- A reference that leads to no content. -/
def IsBare (defines : Table Text (List Pattern)) (q : Pattern) : Prop :=
  q.isReference = true ∧ Contentless defines [q]

/-- A reference that leads to no content stands among others. -/
def HasBareReference (defines : Table Text (List Pattern)) (ps : List Pattern) : Prop :=
  ∃ q, IsBare defines q ∧ Among defines q ps

/-! ### One list at a time -/

section Lists

variable {defines : Table Text (List Pattern)} {ps : List Pattern}

theorem mem_content_iff {p : Pattern} : p ∈ content ps ↔ p ∈ ps ∧ p.isContent = true :=
  List.mem_filter

/-- What has no content, by the content that there is. -/
theorem contentless_iff (ps : List Pattern) :
    Contentless defines ps ↔
      match content ps with
      | [] => True
      | [.empty] => True
      | [.occurs _ body] => Contentless defines body
      | [.ref name] => ∃ body, defines.find? name = some body ∧ Contentless defines body
      | [.resolved _ body] => Contentless defines body
      | _ => False := by
  constructor
  · intro h
    cases h with
    | none h => rw [h]; trivial
    | empty h => rw [h]; trivial
    | occurs h hbody => rw [h]; exact hbody
    | ref h hfind hbody => rw [h]; exact ⟨_, hfind, hbody⟩
    | resolved h hbody => rw [h]; exact hbody
  · intro h
    split at h
    · next hps => exact .none hps
    · next hps => exact .empty hps
    · next hps => exact .occurs hps h
    · next hps =>
      obtain ⟨body, hfind, hbody⟩ := h
      exact .ref hps hfind hbody
    · next hps => exact .resolved hps h
    · exact h.elim

/-- Bare references in a single pattern. -/
theorem hasBareReference_singleton_iff {p : Pattern} :
    HasBareReference defines [p] ↔
      match p with
      | .combine _ body => (∃ q ∈ body, IsBare defines q) ∨ HasBareReference defines body
      | .occurs _ body => HasBareReference defines body
      | .ref name => ∃ body, defines.find? name = some body ∧ HasBareReference defines body
      | .resolved _ body => HasBareReference defines body
      | _ => False := by
  constructor
  · rintro ⟨q, hbare, h⟩
    cases h with
    | beside hq htwo =>
      have : (content [p]).length ≤ 1 := List.length_filter_le _ _
      omega
    | combined hp hq =>
      obtain rfl := List.mem_singleton.mp hp
      exact Or.inl ⟨q, hq, hbare⟩
    | inCombination hp h =>
      obtain rfl := List.mem_singleton.mp hp
      exact Or.inr ⟨q, hbare, h⟩
    | inRepetition hp h =>
      obtain rfl := List.mem_singleton.mp hp
      exact ⟨q, hbare, h⟩
    | inDefinition hp hfind h =>
      obtain rfl := List.mem_singleton.mp hp
      exact ⟨_, hfind, q, hbare, h⟩
    | inResolved hp h =>
      obtain rfl := List.mem_singleton.mp hp
      exact ⟨q, hbare, h⟩
  · intro h
    cases p with
    | combine kind body =>
      rcases h with ⟨q, hq, hbare⟩ | ⟨q, hbare, h⟩
      · exact ⟨q, hbare, .combined (List.mem_singleton.mpr rfl) hq⟩
      · exact ⟨q, hbare, .inCombination (List.mem_singleton.mpr rfl) h⟩
    | occurs kind body =>
      obtain ⟨q, hbare, h⟩ := h
      exact ⟨q, hbare, .inRepetition (List.mem_singleton.mpr rfl) h⟩
    | ref name =>
      obtain ⟨body, hfind, q, hbare, h⟩ := h
      exact ⟨q, hbare, .inDefinition (List.mem_singleton.mpr rfl) hfind h⟩
    | resolved name body =>
      obtain ⟨q, hbare, h⟩ := h
      exact ⟨q, hbare, .inResolved (List.mem_singleton.mpr rfl) h⟩
    | _ => exact h.elim

/-- Bare references in a list stand in the list itself or in one of its patterns. -/
theorem hasBareReference_iff (ps : List Pattern) :
    HasBareReference defines ps ↔
      (2 ≤ (content ps).length ∧ ∃ q ∈ ps, IsBare defines q) ∨
        ∃ p ∈ ps, HasBareReference defines [p] := by
  constructor
  · rintro ⟨q, hbare, h⟩
    have hself : ∀ p : Pattern, p ∈ [p] := fun p => List.mem_singleton.mpr rfl
    cases h with
    | beside hq htwo => exact Or.inl ⟨htwo, q, hq, hbare⟩
    | combined hp hq => exact Or.inr ⟨_, hp, q, hbare, .combined (hself _) hq⟩
    | inCombination hp h => exact Or.inr ⟨_, hp, q, hbare, .inCombination (hself _) h⟩
    | inRepetition hp h => exact Or.inr ⟨_, hp, q, hbare, .inRepetition (hself _) h⟩
    | inDefinition hp hfind h => exact Or.inr ⟨_, hp, q, hbare, .inDefinition (hself _) hfind h⟩
    | inResolved hp h => exact Or.inr ⟨_, hp, q, hbare, .inResolved (hself _) h⟩
  · rintro (⟨htwo, q, hq, hbare⟩ | ⟨p, hp, h⟩)
    · exact ⟨q, hbare, .beside hq htwo⟩
    · rw [hasBareReference_singleton_iff] at h
      split at h
      · rcases h with ⟨q, hq, hbare⟩ | ⟨q, hbare, h⟩
        · exact ⟨q, hbare, .combined hp hq⟩
        · exact ⟨q, hbare, .inCombination hp h⟩
      · obtain ⟨q, hbare, h⟩ := h
        exact ⟨q, hbare, .inRepetition hp h⟩
      · obtain ⟨body, hfind, q, hbare, h⟩ := h
        exact ⟨q, hbare, .inDefinition hp hfind h⟩
      · obtain ⟨q, hbare, h⟩ := h
        exact ⟨q, hbare, .inResolved hp h⟩
      · exact h.elim

/-- A list with content of its own kind and nothing else has that content's pattern only. -/
theorem eq_of_mem_of_content_eq {p q : Pattern} (h : content ps = [p]) (hq : q ∈ ps)
    (hcontent : q.isContent = true) : q = p := by
  have hmem := mem_content_iff.mpr ⟨hq, hcontent⟩
  rw [h] at hmem
  exact List.mem_singleton.mp hmem

/-- In a list without content nothing stands among others. -/
theorem Contentless.not_among {q : Pattern} (h : Contentless defines ps) :
    ¬ Among defines q ps := by
  induction h with
  | @none ps h =>
    have hnone : ∀ p ∈ ps, p.isContent = false := by simpa [content] using h
    rintro (⟨_, htwo⟩ | ⟨hp, _⟩ | ⟨hp, _⟩ | ⟨hp, _⟩ | ⟨hp, _, _⟩ | ⟨hp, _⟩)
    · simp [h] at htwo
    all_goals exact nomatch hnone _ hp
  | empty h =>
    rintro (⟨_, htwo⟩ | ⟨hp, _⟩ | ⟨hp, _⟩ | ⟨hp, _⟩ | ⟨hp, _, _⟩ | ⟨hp, _⟩)
    · simp [h] at htwo
    all_goals exact nomatch eq_of_mem_of_content_eq h hp rfl
  | occurs h _ ih =>
    rintro (⟨_, htwo⟩ | ⟨hp, _⟩ | ⟨hp, _⟩ | ⟨hp, hbody⟩ | ⟨hp, _, _⟩ | ⟨hp, _⟩)
    · simp [h] at htwo
    case inRepetition =>
      obtain ⟨-, rfl⟩ := Pattern.occurs.inj (eq_of_mem_of_content_eq h hp rfl)
      exact ih hbody
    all_goals exact nomatch eq_of_mem_of_content_eq h hp rfl
  | ref h hfind _ ih =>
    rintro (⟨_, htwo⟩ | ⟨hp, _⟩ | ⟨hp, _⟩ | ⟨hp, _⟩ | ⟨hp, hfind', hbody⟩ | ⟨hp, _⟩)
    · simp [h] at htwo
    case inDefinition =>
      obtain rfl := Pattern.ref.inj (eq_of_mem_of_content_eq h hp rfl)
      obtain rfl := Option.some.inj (hfind.symm.trans hfind')
      exact ih hbody
    all_goals exact nomatch eq_of_mem_of_content_eq h hp rfl
  | resolved h _ ih =>
    rintro (⟨_, htwo⟩ | ⟨hp, _⟩ | ⟨hp, _⟩ | ⟨hp, _⟩ | ⟨hp, _, _⟩ | ⟨hp, hbody⟩)
    · simp [h] at htwo
    case inResolved =>
      obtain ⟨-, rfl⟩ := Pattern.resolved.inj (eq_of_mem_of_content_eq h hp rfl)
      exact ih hbody
    all_goals exact nomatch eq_of_mem_of_content_eq h hp rfl

end Lists

/-! ### With and without a definition -/

section Without

variable {defines rest : Table Text (List Pattern)} {ps : List Pattern}

/-- More definitions leave what has no content. -/
theorem Contentless.mono (hsub : ∀ name body, rest.find? name = some body →
    defines.find? name = some body) (h : Contentless rest ps) : Contentless defines ps := by
  induction h with
  | none h => exact .none h
  | empty h => exact .empty h
  | occurs h _ ih => exact .occurs h ih
  | ref h hfind _ ih => exact .ref h (hsub _ _ hfind) ih
  | resolved h _ ih => exact .resolved h ih

/-- More definitions leave what stands among others. -/
theorem Among.mono {q : Pattern} (hsub : ∀ name body, rest.find? name = some body →
    defines.find? name = some body) (h : Among rest q ps) : Among defines q ps := by
  induction h with
  | beside hq htwo => exact .beside hq htwo
  | combined hp hq => exact .combined hp hq
  | inCombination hp _ ih => exact .inCombination hp ih
  | inRepetition hp _ ih => exact .inRepetition hp ih
  | inDefinition hp hfind _ ih => exact .inDefinition hp (hsub _ _ hfind) ih
  | inResolved hp _ ih => exact .inResolved hp ih

variable {name : Text} {d : List Pattern} (hd : defines.find? name = some d)
  (hrest : ∀ other, other ≠ name → rest.find? other = defines.find? other)

include hd hrest

/-- **Loop removal.** What has no content has none without entering a definition, or that definition
has none without being entered again. -/
theorem Contentless.avoid (h : Contentless defines ps) :
    Contentless rest ps ∨ Contentless rest d := by
  induction h with
  | none h => exact Or.inl (.none h)
  | empty h => exact Or.inl (.empty h)
  | occurs h _ ih => exact ih.imp_left (.occurs h)
  | @ref ps body other h hfind _ ih =>
    by_cases hother : other = name
    · -- the last entry into the definition is here
      subst hother
      obtain rfl := Option.some.inj (hd.symm.trans hfind)
      exact Or.inr (ih.elim id id)
    · exact ih.imp_left (.ref h ((hrest other hother).trans hfind))
  | resolved h _ ih => exact ih.imp_left (.resolved h)

/-- **Loop removal.** What stands among others does so without entering a definition, or it does so
in that definition without its being entered again. -/
theorem Among.avoid {q : Pattern} (h : Among defines q ps) : Among rest q ps ∨ Among rest q d := by
  induction h with
  | beside hq htwo => exact Or.inl (.beside hq htwo)
  | combined hp hq => exact Or.inl (.combined hp hq)
  | inCombination hp _ ih => exact ih.imp_left (.inCombination hp)
  | inRepetition hp _ ih => exact ih.imp_left (.inRepetition hp)
  | @inDefinition ps body other hp hfind _ ih =>
    by_cases hother : other = name
    · subst hother
      obtain rfl := Option.some.inj (hd.symm.trans hfind)
      exact Or.inr (ih.elim id id)
    · exact ih.imp_left (.inDefinition hp ((hrest other hother).trans hfind))
  | inResolved hp _ ih => exact ih.imp_left (.inResolved hp)

/-- A definition without content has none without being entered again. -/
theorem contentless_definition_iff (hsub : ∀ other body, rest.find? other = some body →
    defines.find? other = some body) : Contentless defines d ↔ Contentless rest d :=
  ⟨fun h => (h.avoid hd hrest).elim id id, Contentless.mono hsub⟩

/-- A bare reference in a definition is found without entering the definition again. Should its own
path lead through the definition, the definition would have no content, and nothing in it would
stand among others. -/
theorem hasBareReference_definition_iff (hsub : ∀ other body, rest.find? other = some body →
    defines.find? other = some body) : HasBareReference defines d ↔ HasBareReference rest d := by
  constructor
  · rintro ⟨q, ⟨href, hq⟩, h⟩
    have hamong : Among rest q d := (h.avoid hd hrest).elim id id
    rcases hq.avoid hd hrest with hq | hcontentless
    · exact ⟨q, ⟨href, hq⟩, hamong⟩
    · exact (hcontentless.not_among hamong).elim
  · rintro ⟨q, ⟨href, hq⟩, h⟩
    exact ⟨q, ⟨href, hq.mono hsub⟩, h.mono hsub⟩

end Without

/-! ### Expansion -/

section Expansion

variable {left : Table Text (List Pattern)}

theorem expandAll_eq_map (ps : List Pattern) : expandAll left ps = ps.map (expand left) := by
  induction ps with
  | nil => rw [expandAll]; rfl
  | cons p ps ih => rw [expandAll, ih]; rfl

@[simp] theorem isContent_expand (p : Pattern) : (expand left p).isContent = p.isContent := by
  cases p with
  | ref name =>
    rw [expand]
    split <;> rfl
  | _ => simp [expand, isContent]

@[simp] theorem isReference_expand (p : Pattern) :
    (expand left p).isReference = p.isReference := by
  cases p with
  | ref name =>
    rw [expand]
    split <;> rfl
  | _ => simp [expand, isReference]

theorem content_expandAll (ps : List Pattern) :
    content (expandAll left ps) = (content ps).map (expand left) := by
  rw [expandAll_eq_map, content, content, List.filter_map]
  congr 1
  exact List.filter_congr fun p _ => isContent_expand p

theorem isText_name (name : Text) : Label.IsText name := ⟨name, rfl⟩

/-- A reference to a definition is expanded to the definition, in which it is left as it is. -/
theorem expand_ref_of_find? (hleft : left.Distinct) {name : Text} {body : List Pattern}
    (h : left.find? name = some body) :
    expand left (.ref name)
      = .resolved name (expandAll (left.filter fun e => !(e.1 == name)) body) := by
  have htake : left.take? name = some (body, left.filter fun e => !(e.1 == name)) := by
    rw [Table.take?_eq hleft (isText_name name), h]
    rfl
  rw [expand]
  split
  · next hnone => exact absurd (htake.symm.trans hnone) (Option.some_ne_none _)
  · next body' rest hsome =>
    obtain ⟨rfl, rfl⟩ := Prod.mk.inj (Option.some.inj (htake.symm.trans hsome))
    rfl

theorem expand_ref_of_find?_eq_none (hleft : left.Distinct) {name : Text}
    (h : left.find? name = none) : expand left (.ref name) = .ref name := by
  have htake : left.take? name = none := by
    rw [Table.take?_eq hleft (isText_name name), h]
    rfl
  rw [expand]
  split
  · rfl
  · next hsome => exact absurd (hsome.symm.trans htake) (Option.some_ne_none _)

theorem find?_without (left : Table Text (List Pattern)) (name other : Text) :
    Table.find? other (left.filter fun e => !(e.1 == name))
      = if other = name then none else left.find? other := by
  rw [Table.find?_filter left (fun k => !(k == name)) (isText_name other)]
  by_cases h : other = name <;> simp [h]

theorem find?_without_of_ne {name other : Text} (h : other ≠ name) :
    Table.find? other (left.filter fun e => !(e.1 == name)) = left.find? other := by
  rw [find?_without, if_neg h]

theorem find?_of_find?_without {name other : Text} {body : List Pattern}
    (h : Table.find? other (left.filter fun e => !(e.1 == name)) = some body) :
    left.find? other = some body := by
  rw [find?_without] at h
  split at h
  · exact nomatch h
  · exact h

theorem length_without_lt {name : Text} {body : List Pattern} (h : left.find? name = some body) :
    (left.filter fun e => !(e.1 == name)).length < left.length := by
  obtain ⟨e, he, hkey⟩ : ∃ e ∈ left, (e.1 == name) = true := by
    by_contra hnone
    push Not at hnone
    have hfind := find?_without left name name
    rw [List.filter_eq_self.mpr (by simpa using hnone), h] at hfind
    simp at hfind
  exact List.length_filter_lt_length_iff_exists.mpr ⟨e, he, by simp [hkey]⟩

theorem sizeOf_lt_of_occurs_mem {kind : RepeatKind} {ps body : List Pattern}
    (h : .occurs kind body ∈ ps) : sizeOf body < sizeOf ps := by
  have hlt := List.sizeOf_lt_of_mem h
  rw [Pattern.occurs.sizeOf_spec] at hlt
  omega

theorem sizeOf_lt_of_resolved_mem {name : Text} {ps body : List Pattern}
    (h : .resolved name body ∈ ps) : sizeOf body < sizeOf ps := by
  have hlt := List.sizeOf_lt_of_mem h
  rw [Pattern.resolved.sizeOf_spec] at hlt
  omega

/-- **Expansion keeps what has no content,** with the definitions at hand before it and none at hand
after it. -/
theorem contentless_expandAll {left : Table Text (List Pattern)} (hleft : left.Distinct)
    (ps : List Pattern) : Contentless [] (expandAll left ps) ↔ Contentless left ps := by
  rw [contentless_iff (expandAll left ps), contentless_iff ps, content_expandAll]
  cases hps : content ps with
  | nil => rfl
  | cons p others =>
    cases others with
    | cons q others => simp
    | nil =>
      have hmem : p ∈ ps := (mem_content_iff.mp (hps ▸ List.mem_singleton.mpr rfl)).1
      cases p with
      | occurs kind body =>
        have : sizeOf body < sizeOf ps := sizeOf_lt_of_occurs_mem hmem
        simp only [List.map_cons, List.map_nil, expand]
        exact contentless_expandAll hleft body
      | resolved name body =>
        have : sizeOf body < sizeOf ps := sizeOf_lt_of_resolved_mem hmem
        simp only [List.map_cons, List.map_nil, expand]
        exact contentless_expandAll hleft body
      | ref name =>
        cases hfind : left.find? name with
        | none => simp [expand_ref_of_find?_eq_none hleft hfind, hfind, Table.find?]
        | some body =>
          have : (left.filter fun e => !(e.1 == name)).length < left.length :=
            length_without_lt hfind
          simp only [List.map_cons, List.map_nil, expand_ref_of_find? hleft hfind, hfind,
            Option.some.injEq, exists_eq_left']
          rw [contentless_expandAll (hleft.filter _) body]
          exact (contentless_definition_iff hfind (fun _ => find?_without_of_ne)
            fun _ _ => find?_of_find?_without).symm
      | _ => simp [expand]
termination_by (left.length, sizeOf ps)

theorem isBare_expand (hleft : left.Distinct) (q : Pattern) :
    IsBare [] (expand left q) ↔ IsBare left q := by
  have hcontentless : Contentless [] [expand left q] ↔ Contentless left [q] := by
    rw [← contentless_expandAll hleft, expandAll_eq_map]
    rfl
  rw [IsBare, IsBare, isReference_expand, hcontentless]

theorem exists_isBare_expandAll (hleft : left.Distinct) (ps : List Pattern) :
    (∃ q ∈ expandAll left ps, IsBare [] q) ↔ ∃ q ∈ ps, IsBare left q := by
  simp [expandAll_eq_map, isBare_expand hleft]

mutual

/-- Expansion keeps the bare references in a pattern. -/
theorem hasBareReference_expand {left : Table Text (List Pattern)} (hleft : left.Distinct)
    (p : Pattern) : HasBareReference [] [expand left p] ↔ HasBareReference left [p] := by
  rw [hasBareReference_singleton_iff, hasBareReference_singleton_iff]
  cases p with
  | combine kind body =>
    simp only [expand]
    rw [exists_isBare_expandAll hleft, hasBareReference_expandAll hleft body]
  | occurs kind body =>
    simp only [expand]
    exact hasBareReference_expandAll hleft body
  | resolved name body =>
    simp only [expand]
    exact hasBareReference_expandAll hleft body
  | ref name =>
    cases hfind : left.find? name with
    | none => simp [expand_ref_of_find?_eq_none hleft hfind, hfind, Table.find?]
    | some body =>
      have : (left.filter fun e => !(e.1 == name)).length < left.length :=
        length_without_lt hfind
      simp only [expand_ref_of_find? hleft hfind, hfind, Option.some.injEq, exists_eq_left']
      rw [hasBareReference_expandAll (hleft.filter _) body]
      exact (hasBareReference_definition_iff hfind (fun _ => find?_without_of_ne)
        fun _ _ => find?_of_find?_without).symm
  | _ => simp [expand]
termination_by (left.length, sizeOf p)

/-- **Expansion keeps bare references.** -/
theorem hasBareReference_expandAll {left : Table Text (List Pattern)} (hleft : left.Distinct)
    (ps : List Pattern) :
    HasBareReference [] (expandAll left ps) ↔ HasBareReference left ps := by
  rw [hasBareReference_iff (expandAll left ps), hasBareReference_iff ps,
    exists_isBare_expandAll hleft, content_expandAll, List.length_map]
  refine or_congr_right ?_
  rw [expandAll_eq_map]
  constructor
  · rintro ⟨q, hq, h⟩
    obtain ⟨p, hp, rfl⟩ := List.mem_map.mp hq
    have := List.sizeOf_lt_of_mem hp
    exact ⟨p, hp, (hasBareReference_expand hleft p).mp h⟩
  · rintro ⟨p, hp, h⟩
    have := List.sizeOf_lt_of_mem hp
    exact ⟨_, List.mem_map.mpr ⟨p, hp, rfl⟩, (hasBareReference_expand hleft p).mpr h⟩
termination_by (left.length, sizeOf ps)

end

end Expansion

end Pattern

end MarkupGrammar
