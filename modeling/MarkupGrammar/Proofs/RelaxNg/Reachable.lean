import MarkupGrammar.Proofs.Compile.Names
import MarkupGrammar.Proofs.RelaxNg.EmptyContent

/-!
# What patterns lead to

Patterns lead into the patterns inside them, and through references into definitions. The relation
that says so is `Pattern.Reaches`. It is a relation on the grammar as it is written, where a
definition may be entered any number of times; which combinations may be passed through, and what
is looked for, are left open.

## Why the cut is harmless

Expansion takes each definition at most once on a path. `Reaches.avoid` is loop removal: what is
reached is reached without entering a definition, or it is reached from that definition without
entering it again. So nothing is lost when a definition is expanded without itself.

## Names

The names of the elements in an imported model are those in its patterns, in the same order and
with the same repetitions. Patterns that add nothing to a model, the ones that are no content and
the repetitions without content, have no names in them.

## Main results

* `Reaches.avoid` — loop removal
* `reaches_expandAll` — expansion keeps what is reached
* `namesOf_contentModel` — a model has the names of its patterns
* `mem_children_elementSpec_iff` — so an imported element has the names that its patterns reach
-/

namespace MarkupGrammar

namespace Pattern

/-- Something is reached from a list of patterns: it is one of them, or it is reached from the
patterns inside one of them or from those of a definition that one of them refers to. Combinations
are passed through where `through` says so. -/
inductive Reaches (defines : Table Text (List Pattern)) (through : CombineKind → Bool)
    (target : Pattern → Prop) : List Pattern → Prop
  | here {ps : List Pattern} {p : Pattern} (hp : p ∈ ps) (h : target p) :
      Reaches defines through target ps
  | inCombination {ps body : List Pattern} {kind : CombineKind} (hp : .combine kind body ∈ ps)
      (hkind : through kind = true) (h : Reaches defines through target body) :
      Reaches defines through target ps
  | inRepetition {ps body : List Pattern} {kind : RepeatKind} (hp : .occurs kind body ∈ ps)
      (h : Reaches defines through target body) : Reaches defines through target ps
  | inDefinition {ps body : List Pattern} {name : Text} (hp : .ref name ∈ ps)
      (hfind : defines.find? name = some body) (h : Reaches defines through target body) :
      Reaches defines through target ps
  | inResolved {ps body : List Pattern} {name : Text} (hp : .resolved name body ∈ ps)
      (h : Reaches defines through target body) : Reaches defines through target ps

/-! ### One pattern at a time -/

section Lists

variable {defines : Table Text (List Pattern)} {through : CombineKind → Bool}
  {target : Pattern → Prop} {ps : List Pattern}

/-- What is reached from a single pattern. -/
theorem reaches_singleton_iff {p : Pattern} :
    Reaches defines through target [p] ↔ target p ∨
      match p with
      | .combine kind body => through kind = true ∧ Reaches defines through target body
      | .occurs _ body => Reaches defines through target body
      | .ref name => ∃ body, defines.find? name = some body ∧ Reaches defines through target body
      | .resolved _ body => Reaches defines through target body
      | _ => False := by
  have hself : p ∈ [p] := List.mem_singleton_self p
  constructor
  · intro h
    cases h with
    | here hp h =>
      obtain rfl := List.mem_singleton.mp hp
      exact Or.inl h
    | inCombination hp hkind h =>
      obtain rfl := List.mem_singleton.mp hp
      exact Or.inr ⟨hkind, h⟩
    | inRepetition hp h =>
      obtain rfl := List.mem_singleton.mp hp
      exact Or.inr h
    | inDefinition hp hfind h =>
      obtain rfl := List.mem_singleton.mp hp
      exact Or.inr ⟨_, hfind, h⟩
    | inResolved hp h =>
      obtain rfl := List.mem_singleton.mp hp
      exact Or.inr h
  · rintro (h | h)
    · exact .here hself h
    · split at h
      · exact .inCombination hself h.1 h.2
      · exact .inRepetition hself h
      · obtain ⟨body, hfind, h⟩ := h
        exact .inDefinition hself hfind h
      · exact .inResolved hself h
      · exact h.elim

/-- What is reached from a list is reached from one of its patterns. -/
theorem reaches_iff (ps : List Pattern) :
    Reaches defines through target ps ↔ ∃ p ∈ ps, Reaches defines through target [p] := by
  have hself : ∀ p : Pattern, p ∈ [p] := List.mem_singleton_self
  constructor
  · intro h
    cases h with
    | here hp h => exact ⟨_, hp, .here (hself _) h⟩
    | inCombination hp hkind h => exact ⟨_, hp, .inCombination (hself _) hkind h⟩
    | inRepetition hp h => exact ⟨_, hp, .inRepetition (hself _) h⟩
    | inDefinition hp hfind h => exact ⟨_, hp, .inDefinition (hself _) hfind h⟩
    | inResolved hp h => exact ⟨_, hp, .inResolved (hself _) h⟩
  · rintro ⟨p, hp, h⟩
    rw [reaches_singleton_iff] at h
    rcases h with h | h
    · exact .here hp h
    · split at h
      · exact .inCombination hp h.1 h.2
      · exact .inRepetition hp h
      · obtain ⟨body, hfind, h⟩ := h
        exact .inDefinition hp hfind h
      · exact .inResolved hp h
      · exact h.elim

theorem not_reaches_nil : ¬ Reaches defines through target [] := by
  rw [reaches_iff]
  rintro ⟨p, hp, -⟩
  exact nomatch hp

theorem reaches_cons_iff (p : Pattern) (ps : List Pattern) :
    Reaches defines through target (p :: ps) ↔
      Reaches defines through target [p] ∨ Reaches defines through target ps := by
  rw [reaches_iff (p :: ps), reaches_iff ps]
  simp only [List.mem_cons, exists_eq_or_imp]

end Lists

/-! ### With and without a definition -/

section Without

variable {defines rest : Table Text (List Pattern)} {through : CombineKind → Bool}
  {target : Pattern → Prop} {ps : List Pattern}

/-- More definitions reach more. -/
theorem Reaches.mono (hsub : ∀ name body, rest.find? name = some body →
    defines.find? name = some body) (h : Reaches rest through target ps) :
    Reaches defines through target ps := by
  induction h with
  | here hp h => exact .here hp h
  | inCombination hp hkind _ ih => exact .inCombination hp hkind ih
  | inRepetition hp _ ih => exact .inRepetition hp ih
  | inDefinition hp hfind _ ih => exact .inDefinition hp (hsub _ _ hfind) ih
  | inResolved hp _ ih => exact .inResolved hp ih

variable {name : Text} {d : List Pattern} (hd : defines.find? name = some d)
  (hrest : ∀ other, other ≠ name → rest.find? other = defines.find? other)

include hd hrest

/-- **Loop removal.** What is reached is reached without entering a definition, or it is reached
from that definition without entering it again. -/
theorem Reaches.avoid (h : Reaches defines through target ps) :
    Reaches rest through target ps ∨ Reaches rest through target d := by
  induction h with
  | here hp h => exact Or.inl (.here hp h)
  | inCombination hp hkind _ ih => exact ih.imp_left (.inCombination hp hkind)
  | inRepetition hp _ ih => exact ih.imp_left (.inRepetition hp)
  | @inDefinition ps body other hp hfind _ ih =>
    by_cases hother : other = name
    · -- the last entry into the definition is here
      subst hother
      obtain rfl := Option.some.inj (hd.symm.trans hfind)
      exact Or.inr (ih.elim id id)
    · exact ih.imp_left (.inDefinition hp ((hrest other hother).trans hfind))
  | inResolved hp _ ih => exact ih.imp_left (.inResolved hp)

/-- What is reached from a definition is reached without entering it again. -/
theorem reaches_definition_iff (hsub : ∀ other body, rest.find? other = some body →
    defines.find? other = some body) :
    Reaches defines through target d ↔ Reaches rest through target d :=
  ⟨fun h => (h.avoid hd hrest).elim id id, Reaches.mono hsub⟩

end Without

/-! ### Expansion -/

/-- Expansion leaves alone what is looked for, and puts nothing of the kind in the place of a
reference. -/
def IsStable (target : Pattern → Prop) : Prop :=
  ∀ (left : Table Text (List Pattern)) (p : Pattern), target (expand left p) ↔ target p

theorem isStable_element (name : Text) : IsStable (· = .element name) := by
  intro left p
  cases p with
  | ref other =>
    rw [expand]
    split <;> simp
  | _ => simp [expand]

section Expansion

variable {through : CombineKind → Bool} {target : Pattern → Prop}

mutual

theorem reaches_expand (htarget : IsStable target) {left : Table Text (List Pattern)}
    (hleft : left.Distinct) (p : Pattern) :
    Reaches [] through target [expand left p] ↔ Reaches left through target [p] := by
  rw [reaches_singleton_iff, reaches_singleton_iff, htarget left p]
  refine or_congr_right ?_
  cases p with
  | combine kind body =>
    simp only [expand]
    exact and_congr_right fun _ => reaches_expandAll htarget hleft body
  | occurs kind body =>
    simp only [expand]
    exact reaches_expandAll htarget hleft body
  | resolved name body =>
    simp only [expand]
    exact reaches_expandAll htarget hleft body
  | ref name =>
    cases hfind : left.find? name with
    | none => simp [expand_ref_of_find?_eq_none hleft hfind, hfind, Table.find?]
    | some body =>
      have : (left.filter fun e => !(e.1 == name)).length < left.length :=
        length_without_lt hfind
      simp only [expand_ref_of_find? hleft hfind, hfind, Option.some.injEq, exists_eq_left']
      rw [reaches_expandAll htarget (hleft.filter _) body]
      exact (reaches_definition_iff hfind (fun _ => find?_without_of_ne)
        fun _ _ => find?_of_find?_without).symm
  | _ => simp [expand]
termination_by (left.length, sizeOf p)

/-- **Expansion keeps what is reached,** with the definitions at hand before it and none at hand
after it. -/
theorem reaches_expandAll (htarget : IsStable target) {left : Table Text (List Pattern)}
    (hleft : left.Distinct) (ps : List Pattern) :
    Reaches [] through target (expandAll left ps) ↔ Reaches left through target ps := by
  rw [reaches_iff (expandAll left ps), reaches_iff ps, expandAll_eq_map]
  simp only [List.mem_map, exists_exists_and_eq_and]
  refine exists_congr fun p => and_congr_right fun hp => ?_
  have := List.sizeOf_lt_of_mem hp
  exact reaches_expand htarget hleft p
termination_by (left.length, sizeOf ps)

end

end Expansion

/-! ### Names -/

mutual

/-- The names of the elements that stand for themselves in a pattern, in order, with
repetitions. -/
def names : Pattern → List Text
  | .element name => if name.isEmpty then [] else [name]
  | .combine _ body => namesOfAll body
  | .occurs _ body => namesOfAll body
  | .resolved _ body => namesOfAll body
  | _ => []

/-- The names of the elements in a list of patterns. -/
def namesOfAll : List Pattern → List Text
  | [] => []
  | p :: ps => names p ++ namesOfAll ps

end

mutual

theorem mem_names_iff (p : Pattern) {name : Text} :
    name ∈ names p ↔ name ≠ [] ∧ Reaches [] (fun _ => true) (· = .element name) [p] := by
  rw [reaches_singleton_iff]
  cases p with
  | element other =>
    rw [names, or_false, Pattern.element.injEq]
    by_cases hother : other = []
    · simp only [hother, List.isEmpty_nil, if_true, List.not_mem_nil, false_iff, not_and]
      exact fun hname heq => hname heq.symm
    · rw [List.isEmpty_eq_false_iff.mpr hother, if_neg Bool.false_ne_true, List.mem_singleton]
      exact ⟨fun heq => ⟨heq ▸ hother, heq.symm⟩, fun h => h.2.symm⟩
  | combine kind body => simp [names, mem_namesOfAll_iff body]
  | occurs kind body => simp [names, mem_namesOfAll_iff body]
  | resolved other body => simp [names, mem_namesOfAll_iff body]
  | ref other => simp [names, Table.find?]
  | _ => simp [names]

/-- The names in patterns without references are those of the elements that are reached. -/
theorem mem_namesOfAll_iff (ps : List Pattern) {name : Text} :
    name ∈ namesOfAll ps ↔ name ≠ [] ∧ Reaches [] (fun _ => true) (· = .element name) ps := by
  cases ps with
  | nil => simp [namesOfAll, not_reaches_nil]
  | cons p ps =>
    rw [namesOfAll, List.mem_append, mem_names_iff p, mem_namesOfAll_iff ps,
      reaches_cons_iff p ps, and_or_left]

end

/-! ### Names in a model -/

open Expansion (namesOf namesOfAll_append names_eq_namesOfAll)

theorem names_eq_nil {p : Pattern} (h : p.isContent = false) : names p = [] := by
  cases p with
  | attr a => simp [names]
  | commentary => simp [names]
  | misnamed name => simp [names]
  | _ => exact nomatch h

theorem namesOfAll_eq_nil {ps : List Pattern} (h : ps.any isContent = false) :
    namesOfAll ps = [] := by
  induction ps with
  | nil => rfl
  | cons p ps ih =>
    rw [List.any_cons, Bool.or_eq_false_iff] at h
    rw [namesOfAll, names_eq_nil h.1, ih h.2]
    rfl

theorem namesOfAll_ownItems (kind : CombineKind) : Item.namesOfAll kind.ownItems = [] := by
  cases kind <;> rfl

theorem namesOfAll_unresolvedItem (name : Text) :
    Item.namesOfAll (unresolvedItem name).toList = [] := by
  rw [unresolvedItem]
  split <;> rfl

theorem namesOfAll_elementItem (name : Text) :
    Item.namesOfAll (elementItem name).toList = names (.element name) := by
  rw [elementItem, names]
  split <;> rfl

theorem namesOfAll_map_withBounds (bounds : Bounds) (items : List (Item Text)) :
    Item.namesOfAll (items.map (Item.withBounds bounds)) = Item.namesOfAll items := by
  induction items with
  | nil => rfl
  | cons item items ih =>
    rw [List.map_cons, Item.namesOfAll, Item.namesOfAll, ih]
    cases item <;> rfl

@[simp] theorem names_rebound (m : ContentModel Text) (bounds : Bounds) :
    (m.rebound bounds).names = m.names := by
  obtain ⟨arrangement, items, b⟩ := m
  rw [ContentModel.rebound]
  split
  · exact namesOfAll_map_withBounds bounds items
  · rfl

/-- What is left out for having no content has no names. -/
theorem names_of_isVacuous {m : ContentModel Text} (h : m.isVacuous = true) : m.names = [] := by
  rw [ContentModel.isVacuous, Bool.and_eq_true, List.isEmpty_iff] at h
  rw [names_eq_namesOfAll, h.2]
  rfl

mutual

/-- **A model has the names of its patterns,** in order and with repetitions. -/
theorem namesOf_contentModel (ps : List Pattern) : namesOf (contentModel ps) = namesOfAll ps := by
  cases ps with
  | nil => rw [contentModel]; rfl
  | cons p ps =>
    rw [contentModel, namesOfAll]
    cases hp : p.isContent with
    | false => simpa [names_eq_nil hp] using namesOf_contentModel ps
    | true =>
      cases hps : ps.any isContent with
      | false => simpa [namesOfAll_eq_nil hps] using namesOf_toModel p
      | true =>
        simp only [if_true, namesOf, Option.elim, ContentModel.names]
        rw [namesOfAll_append, namesOfAll_toItem p, namesOfAll_toItems ps]

theorem namesOf_toModel (p : Pattern) : namesOf (toModel p) = names p := by
  cases p with
  | element name => exact namesOfAll_elementItem name
  | combine kind body =>
    rw [toModel, names, ← namesOfAll_toItems body]
    simp only [namesOf, Option.elim, ContentModel.names]
    rw [namesOfAll_append, namesOfAll_ownItems, List.nil_append]
  | occurs kind body =>
    rw [toModel, names, ← namesOf_contentModel body]
    cases contentModel body with
    | none => rfl
    | some m => exact names_rebound m _
  | resolved name body =>
    rw [toModel, names, ← namesOf_contentModel body]
    cases contentModel body with
    | none => exact namesOfAll_unresolvedItem name
    | some m => rfl
  | ref name =>
    simp only [toModel, names]
    exact namesOfAll_unresolvedItem name
  | _ => simp [toModel, names, namesOf, ContentModel.names, Item.namesOfAll]

theorem namesOfAll_toItem (p : Pattern) : Item.namesOfAll (toItem p).toList = names p := by
  cases p with
  | element name => exact namesOfAll_elementItem name
  | combine kind body =>
    rw [toItem, names, ← namesOfAll_toItems body]
    simp only [Option.toList, Item.namesOfAll, Item.names, ContentModel.names, List.append_nil]
    rw [namesOfAll_append, namesOfAll_ownItems, List.nil_append]
  | occurs kind body =>
    rw [toItem, names, ← namesOf_contentModel body]
    cases contentModel body with
    | none => rfl
    | some m =>
      cases hm : m.isVacuous with
      | true => simp [hm, namesOf, names_of_isVacuous hm, Item.namesOfAll]
      | false => simp [hm, namesOf, Item.namesOfAll, Item.names]
  | resolved name body =>
    rw [toItem, names, ← namesOf_contentModel body]
    cases contentModel body with
    | none => exact namesOfAll_unresolvedItem name
    | some m => simp [namesOf, Item.namesOfAll, Item.names]
  | ref name => simpa [toItem, names] using namesOfAll_unresolvedItem name
  | _ => simp [toItem, names, Item.namesOfAll, Item.names]

theorem namesOfAll_toItems (ps : List Pattern) : Item.namesOfAll (toItems ps) = namesOfAll ps := by
  cases ps with
  | nil => rw [toItems]; rfl
  | cons p ps =>
    rw [toItems, namesOfAll_append, namesOfAll_toItem p, namesOfAll_toItems ps, namesOfAll]

end

/-- The names in the model of expanded patterns are those that the patterns reach. -/
theorem mem_namesOf_contentModel_iff {left : Table Text (List Pattern)} (hleft : left.Distinct)
    (ps : List Pattern) {name : Text} :
    name ∈ namesOf (contentModel (expandAll left ps)) ↔
      name ≠ [] ∧ Reaches left (fun _ => true) (· = .element name) ps := by
  rw [namesOf_contentModel, mem_namesOfAll_iff, reaches_expandAll (isStable_element name) hleft]

end Pattern

namespace RngGrammar

open Pattern

/-- **The children of an imported element are the names that its patterns reach.** -/
theorem mem_children_elementSpec_iff {g : RngGrammar} (hg : g.defines.Distinct)
    (e : ElementPattern) {name : Text} :
    name ∈ (g.elementSpec e).children ↔
      name ≠ [] ∧ Reaches g.defines (fun _ => true) (· = .element name) e.body := by
  rw [← mem_namesOf_contentModel_iff hg, elementSpec, ElementSpec.children]
  cases contentModel (expandAll g.defines e.body) with
  | none => simp [Expansion.namesOf]
  | some m => exact Label.ofText_mem_eraseDups name m.names

end RngGrammar

end MarkupGrammar
