import MarkupGrammar.Compile.Schema
import MarkupGrammar.Proofs.Grammar.Inheritance

/-!
# Tables in another order

A table keeps the order in which its entries were written, but whatever is looked up in it is found
by its key. When the keys are texts and no key is there twice, another order of the entries makes no
difference: neither to what is found nor to which classes a search through the inheritance map
reaches, in which order. So the attributes of an element do not depend on the order of the tables
of a schema.

A list of names without its repetitions is another matter. Which of several names that are the same
is kept depends on their order, unless they are texts.

## Main results

* `Table.IsTextual.find?_perm`, `Table.IsTextual.take?_perm` — looking up and taking out
* `reachedClasses_perm` — the search for classes
* `Schema.SameClasses.candidates_eq` — the attributes that reach an element
* `Json.TextsMoved.eraseDups_perm` — names of which only texts are in another order
-/

namespace MarkupGrammar

variable {Name : Type} [Label Name]

/-! ### Names that are told apart -/

/-- Texts of which none is there twice. -/
structure Label.AreDistinctTexts (names : List Name) : Prop where
  isText : ∀ n ∈ names, Label.IsText n
  distinct : names.Pairwise fun a b => (a == b) = false

/-- They are so in any order. -/
theorem Label.AreDistinctTexts.perm [LawfulLabel Name] {names names' : List Name}
    (h : AreDistinctTexts names) (hperm : names'.Perm names) : AreDistinctTexts names' := by
  have htext : ∀ n ∈ names', Label.IsText n := fun n hn => h.isText n (hperm.mem_iff.mp hn)
  have hne : names.Pairwise (· ≠ ·) :=
    h.distinct.imp_of_mem fun {a b} ha _ hab heq =>
      Bool.eq_false_iff.mp hab (((h.isText a ha).beq_iff' b).mpr heq)
  refine ⟨htext, (hperm.symm.pairwise hne fun hab => hab.symm).imp_of_mem fun {a b} ha _ hab => ?_⟩
  exact Bool.eq_false_iff.mpr fun hbeq => hab (((htext a ha).beq_iff' b).mp hbeq)

/-- The same texts, in another order. -/
structure Label.AreReordered (names names' : List Name) : Prop where
  perm : names'.Perm names
  isText : ∀ n ∈ names, Label.IsText n

/-! ### Tables -/

namespace Table

variable {Value : Type} {t t' : Table Name Value}

/-- A table under texts, in which no text is twice. -/
def IsTextual (t : Table Name Value) : Prop := Label.AreDistinctTexts (t.map (·.1))

theorem IsTextual.keys (h : t.IsTextual) : ∀ e ∈ t, Label.IsText e.1 := fun _ he =>
  h.isText _ (List.mem_map_of_mem he)

theorem IsTextual.distinct (h : t.IsTextual) : t.Distinct :=
  List.pairwise_map.mp (Label.AreDistinctTexts.distinct h)

/-- Writing the entries of a dictionary one after the other writes the dictionary. -/
theorem foldl_insert (h : t.Distinct) :
    List.foldl (fun (r : Table Name Value) e => r.insert e.1 e.2) [] t = t :=
  ofEntries_eq h

theorem IsTextual.map {Other : Type} (h : t.IsTextual) (f : Value → Other) :
    IsTextual (List.map (fun e => (e.1, f e.2)) t) := by
  rw [IsTextual, List.map_map]
  exact h

theorem IsTextual.filter (h : t.IsTextual) (p : Name × Value → Bool) :
    IsTextual (List.filter p t) := by
  refine ⟨fun k hk => ?_, List.pairwise_map.mpr (h.distinct.filter p)⟩
  obtain ⟨e, he, rfl⟩ := List.mem_map.mp hk
  exact h.keys e (List.mem_filter.mp he).1

variable [LawfulLabel Name]

theorem IsTextual.perm (h : t.IsTextual) (hperm : t'.Perm t) : t'.IsTextual :=
  Label.AreDistinctTexts.perm h (hperm.map _)

/-- What is found under a key is what is written under it. -/
theorem IsTextual.find?_eq_some_iff (h : t.IsTextual) {key : Name} {v : Value} :
    t.find? key = some v ↔ (key, v) ∈ t := by
  constructor
  · intro hfind
    obtain ⟨k, hmem, hbeq⟩ := exists_mem_beq_of_find? hfind
    obtain rfl := ((h.keys _ hmem).beq_iff' key).mp hbeq
    exact hmem
  · exact fun hmem => find?_of_mem h.distinct (h.keys _ hmem) hmem

/-- **Looking up does not depend on the order.** -/
theorem IsTextual.find?_perm (h : t.IsTextual) (hperm : t'.Perm t) (key : Name) :
    t'.find? key = t.find? key := by
  refine Option.ext fun v => ?_
  rw [(h.perm hperm).find?_eq_some_iff, h.find?_eq_some_iff, hperm.mem_iff]

/-- What is taken out of a table is found in it, and so its key is a text. -/
theorem IsTextual.take?_eq (h : t.IsTextual) (key : Name) :
    t.take? key = (t.find? key).map fun v => (v, t.filter fun e => !(e.1 == key)) := by
  cases hfind : t.find? key with
  | none => exact take?_eq_none_iff.mpr hfind
  | some v =>
    have hkey : Label.IsText key := h.keys (key, v) (h.find?_eq_some_iff.mp hfind)
    rw [Table.take?_eq h.distinct hkey, hfind]

/-- **Nor does taking out,** and what is left is the same but for the order. -/
theorem IsTextual.take?_perm (h : t.IsTextual) (hperm : t'.Perm t) {key : Name} {v : Value}
    {rest : Table Name Value} (htake : t.take? key = some (v, rest)) :
    ∃ rest', t'.take? key = some (v, rest') ∧ rest'.Perm rest ∧ rest.IsTextual := by
  rw [h.take?_eq] at htake
  obtain ⟨w, hfind, heq⟩ := Option.map_eq_some_iff.mp htake
  obtain ⟨rfl, rfl⟩ := Prod.mk.inj heq
  refine ⟨_, ?_, hperm.filter _, h.filter _⟩
  rw [(h.perm hperm).take?_eq, h.find?_perm hperm, hfind]
  rfl

end Table

/-! ### Classes -/

theorem reachedClasses_of_take?_eq_none {inheritance : Table Name (List Name)} {seen : List Name}
    {c : Name} (hseen : ¬ seen.elem c = true) (htake : inheritance.take? c = none)
    (queue : List Name) :
    reachedClasses inheritance seen (c :: queue)
      = c :: reachedClasses inheritance (c :: seen) queue := by
  rw [reachedClasses, if_neg hseen]
  split
  · rfl
  · next hsome => cases htake.symm.trans hsome

theorem reachedClasses_of_take?_eq_some {inheritance rest : Table Name (List Name)}
    {seen parents : List Name} {c : Name} (hseen : ¬ seen.elem c = true)
    (htake : inheritance.take? c = some (parents, rest)) (queue : List Name) :
    reachedClasses inheritance seen (c :: queue)
      = c :: reachedClasses rest (c :: seen) (queue ++ parents) := by
  rw [reachedClasses, if_neg hseen]
  split
  · next hnone => cases htake.symm.trans hnone
  · next hsome =>
    obtain ⟨rfl, rfl⟩ := Prod.mk.inj (Option.some.inj (htake.symm.trans hsome))
    rfl

/-- **The search for classes does not depend on the order of the inheritance map.** -/
theorem reachedClasses_perm [LawfulLabel Name] {inheritance inheritance' : Table Name (List Name)}
    (h : inheritance.IsTextual) (hperm : inheritance'.Perm inheritance) (seen queue : List Name) :
    reachedClasses inheritance' seen queue = reachedClasses inheritance seen queue := by
  induction inheritance, seen, queue using reachedClasses.induct generalizing inheritance' with
  | case1 inheritance seen => rw [reachedClasses, reachedClasses]
  | case2 inheritance seen c queue hseen ih =>
    rw [reachedClasses, if_pos hseen, reachedClasses, if_pos hseen, ih h hperm]
  | case3 inheritance seen c queue hseen hnone ih =>
    have hnone' : inheritance'.take? c = none := by
      rw [Table.take?_eq_none_iff, h.find?_perm hperm, ← Table.take?_eq_none_iff, hnone]
    rw [reachedClasses_of_take?_eq_none hseen hnone, reachedClasses_of_take?_eq_none hseen hnone',
      ih h hperm]
  | case4 inheritance seen c queue hseen parents rest htake _ ih =>
    obtain ⟨rest', htake', hrest, hdictionary⟩ := h.take?_perm hperm htake
    rw [reachedClasses_of_take?_eq_some hseen htake, reachedClasses_of_take?_eq_some hseen htake',
      ih hdictionary hrest]

/-! ### Attributes -/

namespace Schema

/-- The classes of the second schema are those of the first, in another order. They are named by
texts, and each is there once. -/
structure SameClasses (s s' : Schema Name) : Prop where
  attributeClasses : s.attributeClasses.IsTextual
  attributeClasses_perm : s'.attributeClasses.Perm s.attributeClasses
  inheritance : s.inheritance.IsTextual
  inheritance_perm : s'.inheritance.Perm s.inheritance
  elementClasses : s.elementClasses.IsTextual
  elementClasses_perm : s'.elementClasses.Perm s.elementClasses

namespace SameClasses

variable [LawfulLabel Name] {s s' : Schema Name} (h : s.SameClasses s') {e e' : ElementSpec Name}
  (hname : e'.name = e.name) (hclasses : e'.attributeClasses = e.attributeClasses)
  (hattributes : e'.attributes = e.attributes)

include h hname hclasses

theorem classesOf_eq : s'.classesOf e' = s.classesOf e := by
  rw [classesOf, classesOf, declaredClasses, declaredClasses, hname, hclasses,
    h.elementClasses.find?_perm h.elementClasses_perm,
    reachedClasses_perm h.inheritance h.inheritance_perm]

include hattributes

/-- **The attributes that reach an element** do not depend on the order of the classes. -/
theorem candidates_eq : s'.candidates e' = s.candidates e := by
  rw [candidates, candidates, h.classesOf_eq hname hclasses, hattributes]
  simp only [h.attributeClasses.find?_perm h.attributeClasses_perm]

theorem canResolve_eq : s'.canResolve e' = s.canResolve e := by
  rw [canResolve, canResolve, h.classesOf_eq hname hclasses,
    h.candidates_eq hname hclasses hattributes]

end SameClasses

end Schema

/-! ### Names without repetitions -/

/-- A choice of names that are the same together, or not at all, can be made before or after
repetitions are removed. -/
theorem filter_eraseDups {p : Name → Bool} (hp : ∀ a b : Name, (a == b) = true → p a = p b) :
    ∀ names : List Name, names.eraseDups.filter p = (names.filter p).eraseDups
  | [] => rfl
  | name :: names => by
    have : (names.filter fun n => !n == name).length < names.length + 1 :=
      Nat.lt_succ_of_le (List.length_filter_le _ _)
    rw [List.eraseDups_cons, List.filter_cons, filter_eraseDups hp, List.filter_cons]
    cases hname : p name with
    | true =>
      rw [if_pos rfl, if_pos rfl, List.eraseDups_cons, List.filter_filter, List.filter_filter]
      simp only [Bool.and_comm]
    | false =>
      rw [if_neg (by simp), if_neg (by simp), List.filter_filter]
      congr 1
      refine List.filter_congr fun n _ => ?_
      cases hn : n == name with
      | false => simp
      | true => simp [hp n name hn, hname]
termination_by names => names.length

theorem Label.perm_eraseDups [LawfulLabel Name] {names names' : List Name}
    (h : ∀ n ∈ names, Label.IsText n) (hperm : names'.Perm names) :
    names'.eraseDups.Perm names.eraseDups := by
  have h' : ∀ n ∈ names', Label.IsText n := fun n hn => h n (hperm.mem_iff.mp hn)
  refine (List.perm_ext_iff_of_nodup (Label.nodup_eraseDups h') (Label.nodup_eraseDups h)).mpr ?_
  intro n
  by_cases hn : Label.IsText n
  · obtain ⟨t, rfl⟩ := hn
    rw [Label.ofText_mem_eraseDups, Label.ofText_mem_eraseDups, hperm.mem_iff]
  · exact ⟨fun hmem => absurd (h' n (Label.mem_of_mem_eraseDups hmem)) hn,
      fun hmem => absurd (h n (Label.mem_of_mem_eraseDups hmem)) hn⟩

namespace Json

/-- The same names, of which only texts are in another order. -/
structure TextsMoved (names names' : List Json) : Prop where
  perm : names'.Perm names
  others : names'.filter (·.text?.isNone) = names.filter (·.text?.isNone)

theorem TextsMoved.refl (names : List Json) : TextsMoved names names := ⟨.refl _, rfl⟩

theorem TextsMoved.append {names names' more more' : List Json} (h : TextsMoved names names')
    (hmore : TextsMoved more more') : TextsMoved (names ++ more) (names' ++ more') :=
  ⟨h.perm.append hmore.perm, by
    rw [List.filter_append, List.filter_append, h.others, hmore.others]⟩

theorem isText_of_isSome {n : Json} (h : n.text?.isSome = true) : Label.IsText n := by
  cases n with
  | text t => exact ⟨t, rfl⟩
  | _ => exact nomatch h

instance (names : List Json) : Decidable (Label.AreDistinctTexts names) :=
  decidable_of_iff
    ((∀ n ∈ names, n.text?.isSome = true) ∧ names.Pairwise fun a b => (a == b) = false)
    ⟨fun h => ⟨fun n hn => isText_of_isSome (h.1 n hn), h.2⟩, fun h => ⟨fun n hn => by
      obtain ⟨t, rfl⟩ := h.isText n hn
      rfl, h.distinct⟩⟩

/-- What is the same as a text is the text. -/
theorem isSome_text?_of_beq {a b : Json} (h : (a == b) = true) :
    a.text?.isSome = b.text?.isSome := by
  cases ha : a.text?.isSome with
  | true => rw [← ((isText_of_isSome ha).beq_iff' b).mp h, ha]
  | false =>
    cases hb : b.text?.isSome with
    | false => rfl
    | true => rw [← ha, ((isText_of_isSome hb).beq_iff a).mp h, hb]

/-- **Names of which only texts are in another order** are the same set. Of other names that are
the same the first is kept, and they are where they were. -/
theorem TextsMoved.eraseDups_perm {names names' : List Json} (h : TextsMoved names names') :
    names'.eraseDups.Perm names.eraseDups := by
  have hsplit : ∀ ns : List Json, ((ns.filter (·.text?.isSome)).eraseDups
      ++ (ns.filter (·.text?.isNone)).eraseDups).Perm ns.eraseDups := by
    intro ns
    have hnone : (fun n : Json => n.text?.isNone) = fun n => !n.text?.isSome := by
      funext n
      exact (Option.not_isSome n.text?).symm
    rw [← filter_eraseDups fun a b hab => isSome_text?_of_beq hab,
      ← filter_eraseDups fun a b hab => by
        rw [← Option.not_isSome, ← Option.not_isSome, isSome_text?_of_beq hab], hnone]
    exact List.filter_append_perm _ _
  have htexts : (names'.filter (·.text?.isSome)).eraseDups.Perm
      (names.filter (·.text?.isSome)).eraseDups :=
    Label.perm_eraseDups (fun n hn => isText_of_isSome (List.mem_filter.mp hn).2)
      (h.perm.filter _)
  refine (hsplit names').symm.trans (.trans ?_ (hsplit names))
  rw [h.others]
  exact htexts.append_right _

end Json

/-- Among texts in another order there is no other name. -/
theorem Label.AreReordered.textsMoved {names names' : List Json}
    (h : Label.AreReordered names names') : Json.TextsMoved names names' := by
  have hnone : ∀ ns : List Json, (∀ n ∈ ns, Label.IsText n) → ns.filter (·.text?.isNone) = [] := by
    intro ns hns
    rw [List.filter_eq_nil_iff]
    intro n hn
    obtain ⟨t, rfl⟩ := hns n hn
    exact Bool.false_ne_true
  refine ⟨h.perm, ?_⟩
  rw [hnone names h.isText, hnone names' fun n hn => h.isText n (h.perm.mem_iff.mp hn)]

end MarkupGrammar
