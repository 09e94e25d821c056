import MarkupGrammar.Proofs.Grammar.Language
import MarkupGrammar.Proofs.Grammar.Table

/-!
# What a content model requires

The children that a model requires are collected on the way down: nothing inside a choice, nor
inside a part that may be left out. This module says so of each element item by itself, through the
list of all that it stands in, and compares it with what the model means, the language of the
children that it admits.

## Where an item stands

`ContentModel.occurrences` are the element items of a model in the order in which they are met, each
with the models and groups around it. `Occurrence.IsDemanded` looks at that list only.

## What a model means

`ContentModel.language` reads a model as a language of child names. An item that could not be
resolved may stand for anything. Text is no child, so a model of text or of nothing, which has no
items, has the empty word only.

## Main results

* `demands_eq` — what is collected are the names of the demanded items, in their order
* `compels_of_mem_demands` — all words of the language have them
* `requiredChildren_eq` — both, of the list without repetitions
-/

namespace MarkupGrammar

variable {Name : Type}

/-! ### Element items and where they stand -/

/-- What an item stands in: a model, or a group with bounds of its own. -/
inductive Enclosure where
  | model (arrangement : Arrangement) (bounds : Bounds)
  | group (bounds : Bounds)

namespace Enclosure

/-- Whether what is in the enclosure cannot be left out because of it. -/
def IsBinding : Enclosure → Prop
  | .model arrangement bounds => arrangement ≠ .choice ∧ 0 < bounds.least
  | .group bounds => 0 < bounds.least

instance : DecidablePred IsBinding
  | .model arrangement bounds =>
    inferInstanceAs (Decidable (arrangement ≠ .choice ∧ 0 < bounds.least))
  | .group bounds => inferInstanceAs (Decidable (0 < bounds.least))

theorem isBinding_model_iff {arrangement : Arrangement} {bounds : Bounds} :
    (model arrangement bounds).IsBinding ↔ ¬ (arrangement = .choice ∨ bounds.least = 0) := by
  rw [IsBinding, Nat.pos_iff_ne_zero, not_or]

theorem isBinding_group_iff {bounds : Bounds} :
    (group bounds).IsBinding ↔ ¬ bounds.least = 0 :=
  Nat.pos_iff_ne_zero

end Enclosure

/-- An element item of a model, with all that it stands in, the innermost first. -/
structure Occurrence (Name : Type) where
  name : Name
  bounds : Bounds
  within : List Enclosure

namespace Occurrence

/-- An element item is demanded when its element may not be missing and nothing around it may be
left out. -/
def IsDemanded (o : Occurrence Name) : Prop := 0 < o.bounds.least ∧ ∀ e ∈ o.within, e.IsBinding

instance (o : Occurrence Name) : Decidable o.IsDemanded :=
  inferInstanceAs (Decidable (0 < o.bounds.least ∧ ∀ e ∈ o.within, e.IsBinding))

theorem isDemanded_iff {o : Occurrence Name} :
    o.IsDemanded ↔ ¬ o.bounds.least = 0 ∧ ∀ e ∈ o.within, e.IsBinding := by
  rw [IsDemanded, Nat.pos_iff_ne_zero]

end Occurrence

mutual

/-- The element items of a model that stands in something, in the order in which they are met. -/
def ContentModel.occurrences (within : List Enclosure) :
    ContentModel Name → List (Occurrence Name)
  | ⟨arrangement, items, bounds⟩ =>
    Item.occurrencesOfAll (.model arrangement bounds :: within) items

/-- The element items of a list of items. -/
def Item.occurrencesOfAll (within : List Enclosure) : List (Item Name) → List (Occurrence Name)
  | [] => []
  | item :: items => item.occurrences within ++ Item.occurrencesOfAll within items

/-- The element items of an item. -/
def Item.occurrences (within : List Enclosure) : Item Name → List (Occurrence Name)
  | .element name bounds => [⟨name, bounds, within⟩]
  | .text _ => []
  | .group content bounds => content.occurrences (.group bounds :: within)
  | .pattern _ _ => []

end

/-- The names of the demanded items among some, in their order. -/
def demandedNames (occurrences : List (Occurrence Name)) : List Name :=
  (occurrences.filter fun o => o.IsDemanded).map Occurrence.name

theorem demandedNames_singleton (o : Occurrence Name) :
    demandedNames [o] = if o.IsDemanded then [o.name] else [] := by
  by_cases h : o.IsDemanded <;> simp [demandedNames, h]

theorem demandedNames_append (os others : List (Occurrence Name)) :
    demandedNames (os ++ others) = demandedNames os ++ demandedNames others := by
  rw [demandedNames, List.filter_append, List.map_append]
  rfl

theorem mem_demandedNames_iff {occurrences : List (Occurrence Name)} {name : Name} :
    name ∈ demandedNames occurrences ↔ ∃ o ∈ occurrences, o.name = name ∧ o.IsDemanded := by
  simp only [demandedNames, List.mem_map, List.mem_filter, decide_eq_true_eq]
  constructor
  · rintro ⟨o, ⟨ho, hdemanded⟩, hname⟩
    exact ⟨o, ho, hname, hdemanded⟩
  · rintro ⟨o, ho, hname, hdemanded⟩
    exact ⟨o, ⟨ho, hdemanded⟩, hname⟩

/-! ### Collected on the way down, or seen from the item -/

mutual

/-- Where everything around is binding, what a model requires are the names of its demanded items.
Where something is not, none of its items is demanded. -/
theorem ContentModel.demandedNames_occurrences (within : List Enclosure) (m : ContentModel Name) :
    demandedNames (m.occurrences within)
      = if ∀ e ∈ within, e.IsBinding then m.demands else [] := by
  obtain ⟨arrangement, items, bounds⟩ := m
  rw [ContentModel.occurrences, Item.demandedNames_occurrencesOfAll, ContentModel.demands]
  simp only [List.forall_mem_cons, Enclosure.isBinding_model_iff, Bool.or_eq_true,
    decide_eq_true_eq]
  by_cases hmodel : arrangement = .choice ∨ bounds.least = 0
  · rw [if_pos hmodel, if_neg (fun h => h.1 hmodel), ite_self]
  · simp only [hmodel, not_false_eq_true, true_and, if_false]

theorem Item.demandedNames_occurrencesOfAll (within : List Enclosure) (items : List (Item Name)) :
    demandedNames (Item.occurrencesOfAll within items)
      = if ∀ e ∈ within, e.IsBinding then Item.demandsOfAll items else [] := by
  cases items with
  | nil => simp [Item.occurrencesOfAll, Item.demandsOfAll, demandedNames]
  | cons item items =>
    rw [Item.occurrencesOfAll, demandedNames_append, Item.demandedNames_occurrences within item,
      Item.demandedNames_occurrencesOfAll within items, Item.demandsOfAll]
    split <;> rfl

theorem Item.demandedNames_occurrences (within : List Enclosure) (item : Item Name) :
    demandedNames (item.occurrences within)
      = if ∀ e ∈ within, e.IsBinding then item.demands else [] := by
  cases item with
  | element name bounds =>
    rw [Item.occurrences, demandedNames_singleton, Item.demands]
    simp only [Occurrence.isDemanded_iff]
    by_cases hbounds : bounds.least = 0
    · rw [if_pos hbounds, if_neg (fun h => h.1 hbounds), ite_self]
    · simp only [hbounds, not_false_eq_true, true_and, if_false]
  | group content bounds =>
    rw [Item.occurrences, ContentModel.demandedNames_occurrences, Item.demands]
    simp only [List.forall_mem_cons, Enclosure.isBinding_group_iff]
    by_cases hbounds : bounds.least = 0
    · rw [if_pos hbounds, if_neg (fun h => h.1 hbounds), ite_self]
    · simp only [hbounds, not_false_eq_true, true_and, if_false]
  | text bounds => simp [Item.occurrences, Item.demands, demandedNames]
  | pattern name bounds => simp [Item.occurrences, Item.demands, demandedNames]

end

/-- **What is collected are the names of the demanded items,** in the order in which they are
met. -/
theorem ContentModel.demands_eq (m : ContentModel Name) :
    m.demands = demandedNames (m.occurrences []) := by
  rw [ContentModel.demandedNames_occurrences, if_pos (fun e he => nomatch he)]

/-! ### The language of a model -/

mutual

/-- The children that a model admits. -/
def ContentModel.language : ContentModel Name → Language Name
  | ⟨arrangement, items, bounds⟩ => bounds.repeats (arrangement.words (Item.languages items))

/-- The children that each of some items admits. -/
def Item.languages : List (Item Name) → List (Language Name)
  | [] => []
  | item :: items => item.language :: Item.languages items

/-- The children that an item admits. -/
def Item.language : Item Name → Language Name
  | .element name bounds => bounds.repeats {[name]}
  | .text _ => 1
  | .group content bounds => bounds.repeats content.language
  | .pattern _ _ => ⊤

end

mutual

/-- **What a model requires is in every word of its language.** -/
theorem ContentModel.compels_of_mem_demands (m : ContentModel Name) {name : Name}
    (h : name ∈ m.demands) : Compels m.language name := by
  obtain ⟨arrangement, items, bounds⟩ := m
  rw [ContentModel.demands] at h
  split at h
  · exact nomatch h
  · next hbinding =>
    simp only [Bool.or_eq_true, decide_eq_true_eq, not_or] at hbinding
    obtain ⟨l, hl, hcompels⟩ := Item.exists_compels_of_mem_demandsOfAll items h
    rw [ContentModel.language]
    exact (hcompels.words hl hbinding.1).repeats (Nat.pos_of_ne_zero hbinding.2)

theorem Item.exists_compels_of_mem_demandsOfAll (items : List (Item Name)) {name : Name}
    (h : name ∈ Item.demandsOfAll items) : ∃ l ∈ Item.languages items, Compels l name := by
  cases items with
  | nil => exact nomatch h
  | cons item items =>
    rw [Item.languages]
    rcases List.mem_append.mp h with h | h
    · exact ⟨_, List.mem_cons_self, Item.compels_of_mem_demands item h⟩
    · obtain ⟨l, hl, hcompels⟩ := Item.exists_compels_of_mem_demandsOfAll items h
      exact ⟨l, List.mem_cons_of_mem _ hl, hcompels⟩

theorem Item.compels_of_mem_demands (item : Item Name) {name : Name} (h : name ∈ item.demands) :
    Compels item.language name := by
  cases item with
  | element other bounds =>
    rw [Item.demands] at h
    split at h
    · exact nomatch h
    · next hbounds =>
      obtain rfl := List.mem_singleton.mp h
      rw [Item.language]
      exact (compels_singleton name).repeats (Nat.pos_of_ne_zero hbounds)
  | group content bounds =>
    rw [Item.demands] at h
    split at h
    · exact nomatch h
    · next hbounds =>
      rw [Item.language]
      exact (ContentModel.compels_of_mem_demands content h).repeats (Nat.pos_of_ne_zero hbounds)
  | text bounds => exact nomatch h
  | pattern other bounds => exact nomatch h

end

/-! ### Without repetitions -/

section

variable [Label Name]

/-- **Required children, without repetitions.** They are the names of the demanded element items in
the order in which these are met, each once; a text is among them exactly when a demanded item has
it as its name; and every word of the model's language has them all. -/
theorem ContentModel.requiredChildren_eq [LawfulLabel Name] (m : ContentModel Name) :
    m.requiredChildren = (demandedNames (m.occurrences [])).eraseDups ∧
      m.requiredChildren.Pairwise (fun a b => (b == a) = false) ∧
      (∀ t : Text, Label.ofText t ∈ m.requiredChildren ↔
        ∃ o ∈ m.occurrences [], o.name = Label.ofText t ∧ o.IsDemanded) ∧
      ∀ name ∈ m.requiredChildren, ∀ word ∈ m.language, name ∈ word := by
  refine ⟨?_, pairwise_eraseDups _, fun t => ?_, fun name hname => ?_⟩
  · rw [ContentModel.requiredChildren, ContentModel.demands_eq]
  · rw [ContentModel.requiredChildren, Label.ofText_mem_eraseDups, ContentModel.demands_eq]
    exact mem_demandedNames_iff
  · exact ContentModel.compels_of_mem_demands m (Label.mem_of_mem_eraseDups hname)

end

/-- A head, then a label or items, then an item and another head in any order, and perhaps a
name. -/
def entryModel : ContentModel Text :=
  ⟨.sequence,
    [.element (Text.ofString "head") Bounds.once,
     .group ⟨.choice,
        [.element (Text.ofString "label") Bounds.once,
         .element (Text.ofString "item") Bounds.oneOrMore], Bounds.once⟩ Bounds.once,
     .group ⟨.interleave,
        [.element (Text.ofString "item") Bounds.once, .text Bounds.anyNumber,
         .element (Text.ofString "head") Bounds.once], Bounds.once⟩ Bounds.once,
     .group ⟨.element, [.element (Text.ofString "name") Bounds.once], Bounds.once⟩ Bounds.optional],
    Bounds.once⟩

/-- An entry requires its heads and an item; a label is enough for the choice, and required by
nothing. -/
theorem requiredChildren_entryModel :
    Text.ofString "item" ∈ entryModel.requiredChildren ∧
      Text.ofString "label" ∉ entryModel.requiredChildren ∧
      (∀ word ∈ entryModel.language, Text.ofString "item" ∈ word) ∧
      [Text.ofString "head", Text.ofString "label", Text.ofString "item", Text.ofString "head"]
        ∈ entryModel.language := by
  have hitem : Text.ofString "item" ∈ entryModel.requiredChildren := by decide
  have hrequired := entryModel.requiredChildren_eq
  refine ⟨hitem, ?_, hrequired.2.2.2 _ hitem, ?_⟩
  · rw [hrequired.1]
    decide
  · have hhead : [Text.ofString "head"] ∈ Bounds.once.repeats {[Text.ofString "head"]} :=
      Bounds.mem_repeats_once rfl
    have hlabel : [Text.ofString "label"] ∈ Bounds.once.repeats (Arrangement.choice.words
        [Bounds.once.repeats {[Text.ofString "label"]},
          Bounds.oneOrMore.repeats {[Text.ofString "item"]}]) :=
      Bounds.mem_repeats_once (Or.inl (Bounds.mem_repeats_once rfl))
    have hmixed : [Text.ofString "item"] ++ ([] ++ ([Text.ofString "head"] ++ []))
        ∈ Bounds.once.repeats (Arrangement.interleave.words
          [Bounds.once.repeats {[Text.ofString "item"]}, 1,
            Bounds.once.repeats {[Text.ofString "head"]}]) :=
      Bounds.mem_repeats_once (append_mem_shuffle (Bounds.mem_repeats_once rfl)
        (append_mem_shuffle Language.nil_mem_one
          (append_mem_shuffle hhead Language.nil_mem_one)))
    have hname : [] ∈ Bounds.optional.repeats (Bounds.once.repeats
        (Arrangement.element.words [Bounds.once.repeats {[Text.ofString "name"]}])) :=
      Bounds.nil_mem_repeats rfl
    refine Bounds.mem_repeats_once ?_
    simp only [Arrangement.words, Item.languages, List.prod_cons, List.prod_nil]
    exact Language.append_mem_mul hhead
      (Language.append_mem_mul (Bounds.mem_repeats_once hlabel)
        (Language.append_mem_mul (Bounds.mem_repeats_once hmixed)
          (Language.append_mem_mul hname Language.nil_mem_one)))

end MarkupGrammar
