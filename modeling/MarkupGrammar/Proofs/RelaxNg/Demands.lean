import MarkupGrammar.Proofs.Grammar.Required
import MarkupGrammar.Proofs.RelaxNg.Language

/-!
# What an imported element demands

The import should not demand a child that its grammar makes optional. It demands one in a single
case. A repetition that stands alone sets the bounds of its content, in place of those that the
content has: it has to, since the content is a model and not an item. For a pattern of one or more
around content that may be left out this is wrong, as no content at all is then admitted by the
grammar and not by the model. Among others a repetition becomes a group around its content with
bounds of its own, and nothing is lost.

`Loose` is content that stands alone and may be left out, and `Forces` a place where a repetition
overrides that it may be. The language of such a place has the empty word, and the name that is
demanded is in all its other words.

## Main results

* `hasModel_of_contentModel` — the models that patterns can have
* `compels_or_forces_contentModel` — a demanded name is in all words, or it is forced
* `Forces.of_expandAll` — what is forced after expansion is forced in the grammar
-/

namespace MarkupGrammar

namespace Pattern

/-- A single pattern, maybe behind references, says that its content may be left out. -/
inductive Loose (defines : Table Text (List Pattern)) : List Pattern → Prop
  | occurs {ps body : List Pattern} {kind : RepeatKind} (h : content ps = [.occurs kind body])
      (hkind : kind ≠ .oneOrMore) : Loose defines ps
  | ref {ps body : List Pattern} {name : Text} (h : content ps = [.ref name])
      (hfind : defines.find? name = some body) (hbody : Loose defines body) : Loose defines ps
  | resolved {ps body : List Pattern} {name : Text} (h : content ps = [.resolved name body])
      (hbody : Loose defines body) : Loose defines ps

/-- A language has a letter in all its words but the empty one. -/
def CompelsUnlessEmpty (l : Language Text) (name : Text) : Prop := ∀ w ∈ l, w ≠ [] → name ∈ w

/-- A name is forced where a repetition is all there is and its content may be left out. Such a
place is found in any pattern that has to occur, and in content that stands alone. `alone` says
whether the patterns are all that stands in their place, and not parts of a combination. -/
inductive Forces (defines : Table Text (List Pattern)) (meaning : Text → Language Text)
    (name : Text) : Bool → List Pattern → Prop
  | here {ps body : List Pattern} (h : content ps = [.occurs .oneOrMore body])
      (hloose : Loose defines body) (hname : CompelsUnlessEmpty (languageOf meaning body) name) :
      Forces defines meaning name true ps
  | inLone {ps body : List Pattern} {kind : RepeatKind} (h : content ps = [.occurs kind body])
      (hbody : Forces defines meaning name true body) : Forces defines meaning name true ps
  | inCombination {alone : Bool} {ps body : List Pattern} {kind : CombineKind}
      (hp : .combine kind body ∈ ps) (hkind : kind ≠ .choice)
      (hbody : Forces defines meaning name false body) : Forces defines meaning name alone ps
  | inRepetition {alone : Bool} {ps body : List Pattern} (hp : .occurs .oneOrMore body ∈ ps)
      (hbody : Forces defines meaning name true body) : Forces defines meaning name alone ps
  | inDefinition {alone : Bool} {ps body : List Pattern} {other : Text} (hp : .ref other ∈ ps)
      (hfind : defines.find? other = some body) (hbody : Forces defines meaning name true body) :
      Forces defines meaning name alone ps
  | inResolved {alone : Bool} {ps body : List Pattern} {other : Text}
      (hp : .resolved other body ∈ ps) (hbody : Forces defines meaning name true body) :
      Forces defines meaning name alone ps

section

variable {defines rest : Table Text (List Pattern)} {meaning : Text → Language Text} {name : Text}
  {ps qs : List Pattern}

/-- More definitions leave what is loose. -/
theorem Loose.mono (hsub : ∀ other body, rest.find? other = some body →
    defines.find? other = some body) (h : Loose rest ps) : Loose defines ps := by
  induction h with
  | occurs h hkind => exact .occurs h hkind
  | ref h hfind _ ih => exact .ref h (hsub _ _ hfind) ih
  | resolved h _ ih => exact .resolved h ih

theorem nil_mem_words_of_ne {l : Language Text} {kind : RepeatKind} (hkind : kind ≠ .oneOrMore) :
    [] ∈ kind.words l := by
  cases kind with
  | optional => exact Or.inl rfl
  | zeroOrMore => exact Language.nil_mem_kstar l
  | oneOrMore => exact absurd rfl hkind

/-- Content that may be left out may be left out however it is repeated. -/
theorem nil_mem_words {l : Language Text} {kind : RepeatKind} (h : [] ∈ l) : [] ∈ kind.words l := by
  cases kind with
  | optional => exact Or.inl rfl
  | zeroOrMore => exact Language.nil_mem_kstar l
  | oneOrMore => exact Language.append_mem_mul h (Language.nil_mem_kstar l)

/-- Loose content may be left out. -/
theorem Loose.nil_mem (hmeaning : IsReading defines meaning) (h : Loose defines ps) :
    [] ∈ languageOf meaning ps := by
  induction h with
  | @occurs _ body kind h hkind =>
    rw [languageOf_of_content_eq meaning h, language]
    exact nil_mem_words_of_ne hkind
  | ref h hfind _ ih =>
    rw [languageOf_of_content_eq meaning h, language, hmeaning _ _ hfind]
    exact ih
  | resolved h _ ih =>
    rw [languageOf_of_content_eq meaning h, language]
    exact ih

/-- More definitions leave what is forced. -/
theorem Forces.mono {alone : Bool} (hsub : ∀ other body, rest.find? other = some body →
    defines.find? other = some body) (h : Forces rest meaning name alone ps) :
    Forces defines meaning name alone ps := by
  induction h with
  | here h hloose hname => exact .here h (hloose.mono hsub) hname
  | inLone h _ ih => exact .inLone h ih
  | inCombination hp hkind _ ih => exact .inCombination hp hkind ih
  | inRepetition hp _ ih => exact .inRepetition hp ih
  | inDefinition hp hfind _ ih => exact .inDefinition hp (hsub _ _ hfind) ih
  | inResolved hp _ ih => exact .inResolved hp ih

/-- What is forced among some patterns is forced among more of them. -/
theorem Forces.of_subset {alone : Bool} (h : Forces defines meaning name false ps)
    (hsub : ∀ p ∈ ps, p ∈ qs) : Forces defines meaning name alone qs := by
  cases h with
  | inCombination hp hkind hbody => exact .inCombination (hsub _ hp) hkind hbody
  | inRepetition hp hbody => exact .inRepetition (hsub _ hp) hbody
  | inDefinition hp hfind hbody => exact .inDefinition (hsub _ hp) hfind hbody
  | inResolved hp hbody => exact .inResolved (hsub _ hp) hbody

end

/-! ### Demands of a model under other bounds -/

section Bounds

theorem least_ne_zero_of_mem_demands {m : ContentModel Text} {name : Text}
    (h : name ∈ m.demands) : m.bounds.least ≠ 0 := by
  obtain ⟨arrangement, items, bounds⟩ := m
  intro hbounds
  rw [ContentModel.demands] at h
  simp [show bounds.least = 0 from hbounds] at h

theorem rebound_rebound (m : ContentModel Text) (b c : Bounds) :
    (m.rebound b).rebound c = m.rebound c := by
  have hitem : Item.withBounds c ∘ Item.withBounds b = (Item.withBounds c : Item Text → _) := by
    funext item
    cases item <;> rfl
  rw [ContentModel.rebound, arrangement_rebound, ContentModel.rebound, ContentModel.rebound]
  split
  · rw [List.map_map, hitem]
  · rfl

theorem bounds_rebound (m : ContentModel Text) (b : Bounds) : (m.rebound b).bounds = b := by
  rw [ContentModel.rebound]
  split <;> rfl

/-- Under bounds that ask for it, what a model demands does not depend on them. -/
theorem demands_rebound (m : ContentModel Text) {b c : Bounds} (hb : b.least ≠ 0)
    (hc : c.least ≠ 0) : (m.rebound b).demands = (m.rebound c).demands := by
  obtain ⟨arrangement, items, bounds⟩ := m
  have hitems : Item.demandsOfAll (items.map (Item.withBounds b))
      = Item.demandsOfAll (items.map (Item.withBounds c)) := by
    induction items with
    | nil => rfl
    | cons item items ih =>
      rw [List.map_cons, List.map_cons, Item.demandsOfAll, Item.demandsOfAll, ih]
      cases item <;> simp [Item.withBounds, Item.demands, hb, hc]
  simp only [ContentModel.rebound]
  split <;> simp [ContentModel.demands, hb, hc, hitems]

theorem boundsAlone_least {kind : RepeatKind} {inner : Bounds}
    (h : (kind.boundsAlone inner).least ≠ 0) : kind = .oneOrMore := by
  cases kind with
  | oneOrMore => rfl
  | zeroOrMore => exact absurd rfl h
  | optional =>
    simp only [RepeatKind.boundsAlone] at h
    split at h <;> exact absurd rfl h

theorem bounds_least {kind : RepeatKind} (h : kind.bounds.least ≠ 0) : kind = .oneOrMore := by
  cases kind with
  | oneOrMore => rfl
  | _ => exact absurd rfl h

theorem demandsOfAll_append (items others : List (Item Text)) :
    Item.demandsOfAll (items ++ others) = Item.demandsOfAll items ++ Item.demandsOfAll others := by
  induction items with
  | nil => rfl
  | cons item items ih =>
    rw [List.cons_append, Item.demandsOfAll, Item.demandsOfAll, ih, List.append_assoc]

theorem demandsOfAll_ownItems (kind : CombineKind) : Item.demandsOfAll kind.ownItems = [] := by
  cases kind <;> rfl

theorem demandsOfAll_unresolvedItem (name : Text) :
    Item.demandsOfAll (unresolvedItem name).toList = [] := by
  rw [unresolvedItem]
  split <;> rfl

theorem mem_demandsOfAll_group {name : Text} {content : ContentModel Text} {bounds : Bounds}
    (h : name ∈ Item.demandsOfAll (some (Item.group content bounds)).toList) :
    bounds.least ≠ 0 ∧ name ∈ content.demands := by
  rw [Option.toList_some, Item.demandsOfAll, Item.demandsOfAll, List.append_nil, Item.demands] at h
  split at h
  · exact (List.not_mem_nil h).elim
  · next hbounds => exact ⟨hbounds, h⟩

theorem eq_of_mem_demandsOfAll_elementItem {name other : Text}
    (h : name ∈ Item.demandsOfAll (elementItem other).toList) : name = other := by
  rw [elementItem] at h
  split at h
  · exact (List.not_mem_nil h).elim
  · exact List.mem_singleton.mp h

end Bounds

/-! ### Demands of expanded patterns -/

section Models

variable {ps : List Pattern} {m : ContentModel Text} {name : Text}

/-- The models that patterns can have, by the content among them: none, several patterns, or one.
Only a repetition and a resolved reference have theirs from other patterns. -/
inductive HasModel (ps : List Pattern) : ContentModel Text → Prop
  | bare {arrangement : Arrangement} {bounds : Bounds} (h : arrangement ≠ .element) :
      HasModel ps ⟨arrangement, [], bounds⟩
  | several : HasModel ps ⟨.sequence, toItems ps, Bounds.once⟩
  | element {other : Text} (h : content ps = [.element other]) :
      HasModel ps ⟨.element, (elementItem other).toList, Bounds.once⟩
  | combine {kind : CombineKind} {body : List Pattern} (h : content ps = [.combine kind body]) :
      HasModel ps ⟨kind.arrangement, kind.ownItems ++ toItems body, Bounds.once⟩
  | occurs {kind : RepeatKind} {body : List Pattern} {inner : ContentModel Text}
      (h : content ps = [.occurs kind body]) (hbody : contentModel body = some inner) :
      HasModel ps (inner.rebound (kind.boundsAlone inner.bounds))
  | resolved {other : Text} {body : List Pattern} {inner : ContentModel Text}
      (h : content ps = [.resolved other body]) (hbody : contentModel body = some inner) :
      HasModel ps inner
  | unresolved (other : Text) : HasModel ps ⟨.group, (unresolvedItem other).toList, Bounds.once⟩

theorem hasModel_of_contentModel (hm : contentModel ps = some m) : HasModel ps m := by
  rw [contentModel_eq] at hm
  split at hm
  · obtain rfl := Option.some.inj hm
    exact .bare (by decide)
  · next p hps =>
    cases p with
    | occurs kind body =>
      rw [toModel] at hm
      obtain ⟨inner, hinner, rfl⟩ := Option.map_eq_some_iff.mp hm
      exact .occurs hps hinner
    | resolved other body =>
      rw [toModel] at hm
      split at hm
      · next hinner => exact .resolved hps (hinner.trans hm)
      · obtain rfl := Option.some.inj hm
        exact .unresolved other
    | element other =>
      rw [toModel] at hm
      obtain rfl := Option.some.inj hm
      exact .element hps
    | combine kind body =>
      rw [toModel] at hm
      obtain rfl := Option.some.inj hm
      exact .combine hps
    | ref other =>
      rw [toModel] at hm
      obtain rfl := Option.some.inj hm
      exact .unresolved other
    | text | data | empty =>
      rw [toModel] at hm
      obtain rfl := Option.some.inj hm
      exact .bare (by decide)
    | _ =>
      rw [toModel] at hm
      contradiction
  · obtain rfl := Option.some.inj hm
    exact .several

theorem sizeOf_lt_of_combine_mem {kind : CombineKind} {body : List Pattern}
    (h : .combine kind body ∈ ps) : sizeOf body < sizeOf ps := by
  have hlt := List.sizeOf_lt_of_mem h
  rw [Pattern.combine.sizeOf_spec] at hlt
  omega

theorem mem_of_content_eq {p : Pattern} (h : content ps = [p]) : p ∈ ps :=
  (mem_content_iff.mp (h ▸ List.mem_singleton_self p)).1

theorem not_mem_demands_unresolved (other : Text) {b : Bounds} :
    name ∉ (⟨.group, (unresolvedItem other).toList, b⟩ : ContentModel Text).demands := by
  intro h
  simp [ContentModel.demands, demandsOfAll_unresolvedItem] at h

theorem not_mem_demands_bare (arrangement : Arrangement) (b : Bounds) :
    name ∉ (⟨arrangement, [], b⟩ : ContentModel Text).demands := by
  intro h
  simp [ContentModel.demands, Item.demandsOfAll] at h

theorem arrangement_combine_ne_element (kind : CombineKind) : kind.arrangement ≠ .element := by
  cases kind <;> decide

/-- Bounds that ask for content once change what its model demands for repetitions only, maybe
behind references. -/
theorem demands_rebound_once_cases (hm : contentModel ps = some m) :
    (m.rebound Bounds.once).demands = m.demands ∨
      (∃ kind body inner, content ps = [.occurs kind body] ∧ contentModel body = some inner ∧
        m = inner.rebound (kind.boundsAlone inner.bounds)) ∨
      ∃ other body, content ps = [.resolved other body] ∧ contentModel body = some m := by
  have honce : ∀ {arrangement : Arrangement} {items : List (Item Text)}, arrangement ≠ .element →
      (ContentModel.rebound ⟨arrangement, items, Bounds.once⟩ Bounds.once).demands
        = (⟨arrangement, items, Bounds.once⟩ : ContentModel Text).demands := by
    intro arrangement items h
    rw [ContentModel.rebound, if_neg h]
  cases hasModel_of_contentModel hm with
  | bare h =>
    rw [ContentModel.rebound, if_neg h]
    simp [ContentModel.demands, Item.demandsOfAll]
  | several => exact Or.inl (honce (by decide))
  | unresolved other => exact Or.inl (honce (by decide))
  | combine hps => exact Or.inl (honce (arrangement_combine_ne_element _))
  | element hps =>
    rw [elementItem]
    split <;> exact Or.inl rfl
  | occurs hps hinner => exact Or.inr (Or.inl ⟨_, _, _, hps, hinner, rfl⟩)
  | resolved hps hinner => exact Or.inr (Or.inr ⟨_, _, hps, hinner⟩)

/-- Content that may not be left out demands what it demands under any bounds that ask for it. -/
theorem loose_or_demands_rebound (ps : List Pattern) {m : ContentModel Text}
    (hm : contentModel ps = some m) :
    Loose [] ps ∨ (m.rebound Bounds.once).demands = m.demands := by
  rcases demands_rebound_once_cases hm with
    hsame | ⟨kind, body, inner, hps, hinner, rfl⟩ | ⟨other, body, hps, hinner⟩
  · exact Or.inr hsame
  · by_cases hkind : kind = .oneOrMore
    · subst hkind
      rw [rebound_rebound]
      exact Or.inr (demands_rebound inner Nat.one_ne_zero Nat.one_ne_zero)
    · exact Or.inl (.occurs hps hkind)
  · have : sizeOf body < sizeOf ps := sizeOf_lt_of_resolved_mem (mem_of_content_eq hps)
    exact (loose_or_demands_rebound body hinner).imp_left (.resolved hps)
termination_by sizeOf ps

end Models

/-! ### Repetitions and combinations -/

section Languages

variable {l : Language Text} {name : Text}

theorem compels_words_oneOrMore (h : Compels l name) :
    Compels (RepeatKind.oneOrMore.words l) name :=
  h.mul_left _

/-- However content is repeated, a name that is in all its words but the empty one stays so. -/
theorem CompelsUnlessEmpty.words (h : CompelsUnlessEmpty l name) (kind : RepeatKind) :
    CompelsUnlessEmpty (kind.words l) name := by
  have hstar : CompelsUnlessEmpty (KStar.kstar l) name := by
    intro w hw hne
    obtain ⟨words, rfl, hwords⟩ := Language.mem_kstar.mp hw
    obtain ⟨u, hu, hune⟩ : ∃ u ∈ words, u ≠ [] := by
      by_contra hnone
      push Not at hnone
      exact hne (List.flatten_eq_nil_iff.mpr hnone)
    exact List.mem_flatten.mpr ⟨u, hu, h u (hwords u hu) hune⟩
  cases kind with
  | optional =>
    rintro w (hw | hw) hne
    · exact absurd hw hne
    · exact h w hw hne
  | zeroOrMore => exact hstar
  | oneOrMore =>
    intro w hw hne
    obtain ⟨u, hu, v, hv, rfl⟩ := Language.mem_mul.mp hw
    by_cases hune : u = []
    · subst hune
      exact hstar v hv hne
    · exact List.mem_append_left v (h u hu hune)

theorem compels_words_combine {kind : CombineKind} {ls : List (Language Text)}
    (hkind : kind ≠ .choice) (hl : l ∈ ls) (h : Compels l name) : Compels (kind.words ls) name := by
  cases kind with
  | choice => exact absurd rfl hkind
  | group => exact h.prod hl
  | interleave => exact h.shuffles hl
  | mixed => exact h.shuffles hl

end Languages

section Demands

variable {meaning : Text → Language Text} {name : Text}

/-- A combination demands what its items demand, unless it is a choice. -/
theorem compels_or_forces_combination (kind : CombineKind) (body : List Pattern)
    (hitems : name ∈ Item.demandsOfAll (toItems body) →
      (∃ l ∈ languages meaning body, Compels l name) ∨ Forces [] meaning name false body)
    (h : name ∈ (⟨kind.arrangement, kind.ownItems ++ toItems body, Bounds.once⟩
      : ContentModel Text).demands) :
    Compels (language meaning (.combine kind body)) name ∨
      (kind ≠ .choice ∧ Forces [] meaning name false body) := by
  have hkind : kind ≠ .choice := by
    rintro rfl
    exact nomatch h
  have hbody : name ∈ Item.demandsOfAll (toItems body) := by
    rw [ContentModel.demands] at h
    split at h
    · exact nomatch h
    · rwa [demandsOfAll_append, demandsOfAll_ownItems, List.nil_append] at h
  rcases hitems hbody with ⟨l, hl, hcompels⟩ | hforces
  · rw [language]
    exact Or.inl (compels_words_combine hkind hl hcompels)
  · exact Or.inr ⟨hkind, hforces⟩

mutual

/-- **A demanded name is in all words, or it is forced.** -/
theorem compels_or_forces_contentModel (ps : List Pattern) {m : ContentModel Text}
    (hm : contentModel ps = some m) (h : name ∈ m.demands) :
    Compels (languageOf meaning ps) name ∨ Forces [] meaning name true ps := by
  cases hasModel_of_contentModel hm with
  | bare _ => exact (not_mem_demands_bare _ _ h).elim
  | unresolved other => exact (not_mem_demands_unresolved other h).elim
  | several =>
    rcases exists_compels_or_forces_toItems ps h with ⟨l, hl, hcompels⟩ | hforces
    · exact Or.inl (hcompels.prod hl)
    · exact Or.inr (hforces.of_subset fun p hp => hp)
  | element hps =>
    obtain rfl := eq_of_mem_demandsOfAll_elementItem h
    rw [languageOf_of_content_eq meaning hps, language]
    exact Or.inl (compels_singleton name)
  | @combine kind body hps =>
    have hmem := mem_of_content_eq hps
    have : sizeOf body < sizeOf ps := sizeOf_lt_of_combine_mem hmem
    rw [languageOf_of_content_eq meaning hps]
    rcases compels_or_forces_combination kind body (exists_compels_or_forces_toItems body) h with
      hcompels | ⟨hkind, hforces⟩
    · exact Or.inl hcompels
    · exact Or.inr (.inCombination hmem hkind hforces)
  | @occurs kind body inner hps hinner =>
    have : sizeOf body < sizeOf ps := sizeOf_lt_of_occurs_mem (mem_of_content_eq hps)
    have hleast := least_ne_zero_of_mem_demands h
    rw [bounds_rebound] at hleast
    obtain rfl := boundsAlone_least hleast
    rw [demands_rebound inner hleast (show Bounds.once.least ≠ 0 from Nat.one_ne_zero)] at h
    rcases loose_or_demands_rebound body hinner with hloose | hsame
    · -- the bounds of the repetition stand in place of those that let the content be left out
      rcases compelsUnlessEmpty_or_forces body hinner h with hcompels | hforces
      · exact Or.inr (.here hps hloose hcompels)
      · exact Or.inr (.inLone hps hforces)
    · rw [hsame] at h
      rcases compels_or_forces_contentModel body hinner h with hcompels | hforces
      · rw [languageOf_of_content_eq meaning hps, language]
        exact Or.inl (compels_words_oneOrMore hcompels)
      · exact Or.inr (.inLone hps hforces)
  | @resolved other body _ hps hinner =>
    have hmem := mem_of_content_eq hps
    have : sizeOf body < sizeOf ps := sizeOf_lt_of_resolved_mem hmem
    rw [languageOf_of_content_eq meaning hps, language]
    exact (compels_or_forces_contentModel body hinner h).imp_right (.inResolved hmem)
termination_by (sizeOf ps, 1)

/-- Under the bounds of a repetition, a demanded name is in all words but the empty one. -/
theorem compelsUnlessEmpty_or_forces (ps : List Pattern) {m : ContentModel Text}
    (hm : contentModel ps = some m) (h : name ∈ (m.rebound Bounds.once).demands) :
    CompelsUnlessEmpty (languageOf meaning ps) name ∨ Forces [] meaning name true ps := by
  rcases demands_rebound_once_cases hm with
    hsame | ⟨kind, body, inner, hps, hinner, rfl⟩ | ⟨other, body, hps, hinner⟩
  · rw [hsame] at h
    exact (compels_or_forces_contentModel ps hm h).imp_left fun hcompels w hw _ => hcompels w hw
  · have : sizeOf body < sizeOf ps := sizeOf_lt_of_occurs_mem (mem_of_content_eq hps)
    rw [rebound_rebound] at h
    rcases compelsUnlessEmpty_or_forces body hinner h with hcompels | hforces
    · rw [languageOf_of_content_eq meaning hps, language]
      exact Or.inl (hcompels.words kind)
    · exact Or.inr (.inLone hps hforces)
  · have hmem := mem_of_content_eq hps
    have : sizeOf body < sizeOf ps := sizeOf_lt_of_resolved_mem hmem
    rw [languageOf_of_content_eq meaning hps, language]
    exact (compelsUnlessEmpty_or_forces body hinner h).imp_right (.inResolved hmem)
termination_by (sizeOf ps, 2)

theorem compels_or_forces_toItem (p : Pattern)
    (h : name ∈ Item.demandsOfAll (toItem p).toList) :
    Compels (language meaning p) name ∨ Forces [] meaning name false [p] := by
  have hself := List.mem_singleton_self p
  cases p with
  | element other =>
    obtain rfl := eq_of_mem_demandsOfAll_elementItem h
    rw [language]
    exact Or.inl (compels_singleton name)
  | combine kind body =>
    rw [toItem] at h
    rcases compels_or_forces_combination kind body (exists_compels_or_forces_toItems body)
        (mem_demandsOfAll_group h).2 with hcompels | ⟨hkind, hforces⟩
    · exact Or.inl hcompels
    · exact Or.inr (.inCombination hself hkind hforces)
  | occurs kind body =>
    rw [toItem] at h
    cases hbody : contentModel body with
    | none => simp [hbody, Item.demandsOfAll] at h
    | some inner =>
      simp only [hbody] at h
      split at h
      · exact nomatch h
      · obtain ⟨hbounds, hinner⟩ := mem_demandsOfAll_group h
        obtain rfl := bounds_least hbounds
        rcases compels_or_forces_contentModel body hbody hinner with hcompels | hforces
        · rw [language]
          exact Or.inl (compels_words_oneOrMore hcompels)
        · exact Or.inr (.inRepetition hself hforces)
  | resolved other body =>
    rw [toItem] at h
    cases hbody : contentModel body with
    | none =>
      simp only [hbody, demandsOfAll_unresolvedItem] at h
      exact nomatch h
    | some inner =>
      simp only [hbody] at h
      have hinner := (mem_demandsOfAll_group h).2
      rcases compels_or_forces_contentModel body hbody hinner with hcompels | hforces
      · rw [language]
        exact Or.inl hcompels
      · exact Or.inr (.inResolved hself hforces)
  | ref other =>
    rw [toItem, demandsOfAll_unresolvedItem] at h
    exact nomatch h
  | _ => simp [toItem, Item.demandsOfAll, Item.demands] at h
termination_by (sizeOf p, 0)

theorem exists_compels_or_forces_toItems (ps : List Pattern)
    (h : name ∈ Item.demandsOfAll (toItems ps)) :
    (∃ l ∈ languages meaning ps, Compels l name) ∨ Forces [] meaning name false ps := by
  cases ps with
  | nil =>
    rw [toItems] at h
    exact nomatch h
  | cons p ps =>
    rw [toItems, demandsOfAll_append] at h
    rw [languages]
    rcases List.mem_append.mp h with h | h
    · rcases compels_or_forces_toItem p h with hcompels | hforces
      · exact Or.inl ⟨_, List.mem_cons_self, hcompels⟩
      · refine Or.inr (hforces.of_subset fun q hq => ?_)
        obtain rfl := List.mem_singleton.mp hq
        exact List.mem_cons_self
    · rcases exists_compels_or_forces_toItems ps h with ⟨l, hl, hcompels⟩ | hforces
      · exact Or.inl ⟨l, List.mem_cons_of_mem _ hl, hcompels⟩
      · exact Or.inr (hforces.of_subset fun q hq => List.mem_cons_of_mem _ hq)
termination_by (sizeOf ps, 0)

end

end Demands

/-! ### Before expansion -/

section Expansion

variable {left : Table Text (List Pattern)} {ps : List Pattern} {p : Pattern}

theorem exists_of_expand_eq_combine {kind : CombineKind} {body : List Pattern}
    (h : expand left p = .combine kind body) :
    ∃ inner, p = .combine kind inner ∧ expandAll left inner = body := by
  cases p with
  | combine other inner =>
    rw [expand] at h
    obtain ⟨rfl, hbody⟩ := Pattern.combine.inj h
    exact ⟨inner, rfl, hbody⟩
  | ref other =>
    rw [expand] at h
    split at h <;> contradiction
  | _ => simp [expand] at h

theorem exists_of_expand_eq_occurs {kind : RepeatKind} {body : List Pattern}
    (h : expand left p = .occurs kind body) :
    ∃ inner, p = .occurs kind inner ∧ expandAll left inner = body := by
  cases p with
  | occurs other inner =>
    rw [expand] at h
    obtain ⟨rfl, hbody⟩ := Pattern.occurs.inj h
    exact ⟨inner, rfl, hbody⟩
  | ref other =>
    rw [expand] at h
    split at h <;> contradiction
  | _ => simp [expand] at h

/-- What is resolved after expansion was resolved before, or refers to one of the definitions. -/
theorem exists_of_expand_eq_resolved (hleft : left.Distinct) {name : Text} {body : List Pattern}
    (h : expand left p = .resolved name body) :
    (∃ inner, p = .resolved name inner ∧ expandAll left inner = body) ∨
      p = .ref name ∧ ∃ inner, left.find? name = some inner ∧
        expandAll (left.filter fun e => !(e.1 == name)) inner = body := by
  cases p with
  | resolved other inner =>
    rw [expand] at h
    obtain ⟨rfl, hbody⟩ := Pattern.resolved.inj h
    exact Or.inl ⟨inner, rfl, hbody⟩
  | ref other =>
    cases hfind : left.find? other with
    | none =>
      rw [expand_ref_of_find?_eq_none hleft hfind] at h
      exact nomatch h
    | some inner =>
      rw [expand_ref_of_find? hleft hfind] at h
      obtain ⟨rfl, hbody⟩ := Pattern.resolved.inj h
      exact Or.inr ⟨rfl, inner, hfind, hbody⟩
  | _ => simp [expand] at h

theorem exists_of_content_expandAll_eq {q : Pattern} (h : content (expandAll left ps) = [q]) :
    ∃ p, content ps = [p] ∧ expand left p = q := by
  rw [content_expandAll] at h
  exact List.map_eq_singleton_iff.mp h

theorem exists_of_mem_expandAll {q : Pattern} (h : q ∈ expandAll left ps) :
    ∃ p ∈ ps, expand left p = q := by
  rw [expandAll_eq_map] at h
  exact List.mem_map.mp h

/-- What is loose after expansion is loose in the grammar. -/
theorem Loose.of_expandAll (hleft : left.Distinct) (h : Loose [] (expandAll left ps)) :
    Loose left ps := by
  generalize hqs : expandAll left ps = qs at h
  induction h generalizing left ps with
  | occurs h hkind =>
    subst hqs
    obtain ⟨p, hp, hexpand⟩ := exists_of_content_expandAll_eq h
    obtain ⟨inner, rfl, -⟩ := exists_of_expand_eq_occurs hexpand
    exact .occurs hp hkind
  | ref h hfind _ _ => exact nomatch hfind
  | resolved h _ ih =>
    subst hqs
    obtain ⟨p, hp, hexpand⟩ := exists_of_content_expandAll_eq h
    rcases exists_of_expand_eq_resolved hleft hexpand with
      ⟨inner, rfl, hbody⟩ | ⟨rfl, inner, hfind, hbody⟩
    · exact .resolved hp (ih hleft hbody)
    · exact .ref hp hfind ((ih (hleft.filter _) hbody).mono fun _ _ => find?_of_find?_without)

/-- **What is forced after expansion is forced in the grammar.** -/
theorem Forces.of_expandAll {meaning : Text → Language Text} {name : Text} {alone : Bool}
    (hleft : left.Distinct) (hmeaning : IsReading left meaning)
    (h : Forces [] meaning name alone (expandAll left ps)) :
    Forces left meaning name alone ps := by
  generalize hqs : expandAll left ps = qs at h
  induction h generalizing left ps with
  | here h hloose hname =>
    subst hqs
    obtain ⟨p, hp, hexpand⟩ := exists_of_content_expandAll_eq h
    obtain ⟨inner, rfl, rfl⟩ := exists_of_expand_eq_occurs hexpand
    rw [languageOf_expandAll hleft hmeaning] at hname
    exact .here hp (hloose.of_expandAll hleft) hname
  | inLone h _ ih =>
    subst hqs
    obtain ⟨p, hp, hexpand⟩ := exists_of_content_expandAll_eq h
    obtain ⟨inner, rfl, hbody⟩ := exists_of_expand_eq_occurs hexpand
    exact .inLone hp (ih hleft hmeaning hbody)
  | inCombination hq hkind _ ih =>
    subst hqs
    obtain ⟨p, hp, hexpand⟩ := exists_of_mem_expandAll hq
    obtain ⟨inner, rfl, hbody⟩ := exists_of_expand_eq_combine hexpand
    exact .inCombination hp hkind (ih hleft hmeaning hbody)
  | inRepetition hq _ ih =>
    subst hqs
    obtain ⟨p, hp, hexpand⟩ := exists_of_mem_expandAll hq
    obtain ⟨inner, rfl, hbody⟩ := exists_of_expand_eq_occurs hexpand
    exact .inRepetition hp (ih hleft hmeaning hbody)
  | inDefinition _ hfind _ _ => exact nomatch hfind
  | inResolved hq _ ih =>
    subst hqs
    obtain ⟨p, hp, hexpand⟩ := exists_of_mem_expandAll hq
    rcases exists_of_expand_eq_resolved hleft hexpand with
      ⟨inner, rfl, hbody⟩ | ⟨rfl, inner, hfind, hbody⟩
    · exact .inResolved hp (ih hleft hmeaning hbody)
    · exact .inDefinition hp hfind
        ((ih (hleft.filter _) (hmeaning.without _) hbody).mono fun _ _ => find?_of_find?_without)

end Expansion

end Pattern

end MarkupGrammar
