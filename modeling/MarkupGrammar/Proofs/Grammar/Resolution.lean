import MarkupGrammar.Module.Graph
import MarkupGrammar.Proofs.Grammar.Inheritance
import Mathlib.Data.Nat.Find

/-!
# Which definition of an attribute counts

An attribute may be defined by an element and by any number of the classes that the element reaches,
each time differently: required here and optional there, with values or without. Resolution keeps
one definition of each name. `Schema.IsResolution` says which, without the order in which
definitions are met: the element's own, or else that of a nearest class.

Names are texts throughout. Nothing is asked of the class graph: it may be cyclic, a class may
inherit from itself, from a class that nothing declares, or from one class twice.

## Main results

* `mem_distinctAttributes_iff` — of the definitions of a name, the first is kept
* `isResolution_attributesOf` — the attributes of an element
* `isResolution_resolve` — resolution by name goes through, with these attributes
-/

namespace MarkupGrammar

variable {Name : Type} [Label Name]

/-! ### The first of each name -/

section Distinct

variable [LawfulLabel Name] {as bs : List (AttributeSpec Name)} {a : AttributeSpec Name}
  {seen : List Name}

/-- **The first definition of a name is kept,** unless the name has been seen. -/
theorem mem_distinctAttributes_iff (htext : ∀ a ∈ as, Label.IsText a.name) :
    a ∈ distinctAttributes seen as ↔
      a.name ∉ seen ∧ as.find? (fun b => b.name == a.name) = some a := by
  induction as generalizing seen with
  | nil => simp [distinctAttributes]
  | cons b as ih =>
    have hb : Label.IsText b.name := htext b List.mem_cons_self
    have htail := fun c hc => htext c (List.mem_cons_of_mem b hc)
    rw [distinctAttributes, List.find?_cons]
    by_cases hname : b.name = a.name
    · have hbeq : (b.name == a.name) = true := (hb.beq_iff' a.name).mpr hname
      rw [hbeq]
      by_cases hseen : seen.elem b.name = true
      · have hmem : b.name ∈ seen := (hb.elem_iff seen).mp hseen
        rw [if_pos hseen, ih htail, ← hname]
        exact ⟨fun h => absurd hmem h.1, fun h => absurd hmem h.1⟩
      · have hmem : b.name ∉ seen := mt (hb.elem_iff seen).mpr hseen
        rw [if_neg hseen, List.mem_cons, ih htail, ← hname, Option.some.injEq]
        constructor
        · rintro (rfl | ⟨h, -⟩)
          · exact ⟨hmem, rfl⟩
          · exact absurd List.mem_cons_self h
        · rintro ⟨-, rfl⟩
          exact Or.inl rfl
    · have hbeq : (b.name == a.name) = false :=
        Bool.eq_false_iff.mpr (mt (hb.beq_iff' a.name).mp hname)
      rw [hbeq]
      by_cases hseen : seen.elem b.name = true
      · rw [if_pos hseen, ih htail]
      · rw [if_neg hseen, List.mem_cons, ih htail, List.mem_cons]
        constructor
        · rintro (rfl | ⟨h, hfind⟩)
          · exact absurd rfl hname
          · exact ⟨fun hs => h (Or.inr hs), hfind⟩
        · rintro ⟨h, hfind⟩
          exact Or.inr ⟨fun hs => hs.elim (fun heq => hname heq.symm) h, hfind⟩

omit [LawfulLabel Name] in
theorem sublist_distinctAttributes (seen : List Name) (as : List (AttributeSpec Name)) :
    (distinctAttributes seen as).Sublist as := by
  induction as generalizing seen with
  | nil => exact List.Sublist.refl _
  | cons a as ih =>
    rw [distinctAttributes]
    split
    · exact (ih seen).cons a
    · exact (ih (a.name :: seen)).cons_cons a

theorem pairwise_distinctAttributes (htext : ∀ a ∈ as, Label.IsText a.name) (seen : List Name) :
    (distinctAttributes seen as).Pairwise fun a b => a.name ≠ b.name := by
  induction as generalizing seen with
  | nil => exact .nil
  | cons a as ih =>
    have htail := fun c hc => htext c (List.mem_cons_of_mem a hc)
    rw [distinctAttributes]
    split
    · exact ih htail seen
    · refine List.pairwise_cons.mpr ⟨fun b hb heq => ?_, ih htail (a.name :: seen)⟩
      exact ((mem_distinctAttributes_iff htail).mp hb).1 (heq ▸ List.mem_cons_self)

omit [LawfulLabel Name] in
/-- What is kept of a list does not depend on what follows it. -/
theorem distinctAttributes_append (seen : List Name) (as bs : List (AttributeSpec Name)) :
    ∃ rest, distinctAttributes seen (as ++ bs) = distinctAttributes seen as ++ rest := by
  induction as generalizing seen with
  | nil => exact ⟨distinctAttributes seen bs, rfl⟩
  | cons a as ih =>
    rw [List.cons_append, distinctAttributes, distinctAttributes]
    split
    · exact ih seen
    · obtain ⟨rest, hrest⟩ := ih (a.name :: seen)
      exact ⟨rest, by rw [hrest, List.cons_append]⟩

/-- A name that is there is kept with its first definition. -/
theorem exists_mem_distinctAttributes (htext : ∀ a ∈ as, Label.IsText a.name) (ha : a ∈ as) :
    ∃ b ∈ distinctAttributes [] as,
      b.name = a.name ∧ as.find? (fun c => c.name == a.name) = some b := by
  cases hfind : as.find? (fun c => c.name == a.name) with
  | none =>
    have hself := List.find?_eq_none.mp hfind a ha
    exact absurd (((htext a ha).beq_iff a.name).mpr rfl) hself
  | some b =>
    have hbeq := List.find?_some hfind
    have hname : b.name = a.name := ((htext a ha).beq_iff b.name).mp hbeq
    refine ⟨b, (mem_distinctAttributes_iff htext).mpr ⟨List.not_mem_nil, ?_⟩, hname, rfl⟩
    rw [hname]
    exact hfind

end Distinct

/-! ### Resolution -/

/-- An element declares an attribute of a name itself. -/
def ElementSpec.Declares (e : ElementSpec Name) (n : Name) : Prop := ∃ a ∈ e.attributes, a.name = n

namespace Schema

/-- The attributes that a class declares. -/
def classAttributes (s : Schema Name) (c : Name) : List (AttributeSpec Name) :=
  (s.attributeClasses.find? c).getD []

/-- A class declares an attribute of a name. -/
def Declares (s : Schema Name) (c n : Name) : Prop := ∃ a ∈ s.classAttributes c, a.name = n

/-- The attributes of an element, said without an order of search. -/
structure IsResolution (s : Schema Name) (e : ElementSpec Name)
    (as : List (AttributeSpec Name)) : Prop where
  /-- No name occurs twice. -/
  distinct : as.Pairwise fun a b => a.name ≠ b.name
  /-- The names are those that the element declares, or a class at some distance from it. -/
  declares_iff : ∀ n, (∃ a ∈ as, a.name = n) ↔
    e.Declares n ∨ ∃ m c, s.ClassAt e m c ∧ s.Declares c n
  /-- The element's own attributes come first, in the order of their declaration and each in its
  first definition. -/
  own_first : ∃ own inherited, as = own ++ inherited ∧ own.Sublist e.attributes ∧
    (∀ a ∈ e.attributes, ∃ b ∈ own, b.name = a.name ∧
      e.attributes.find? (fun c => c.name == a.name) = some b) ∧
    ∀ a ∈ inherited, ¬ e.Declares a.name
  /-- An attribute that the element does not declare is as a nearest class first defines it. -/
  nearest : ∀ a ∈ as, ¬ e.Declares a.name → ∃ m c, s.ClassAt e m c ∧
    (s.classAttributes c).find? (fun b => b.name == a.name) = some a ∧
    ∀ k d, s.ClassAt e k d → s.Declares d a.name → m ≤ k

variable {s : Schema Name} {e : ElementSpec Name} {name : Name}

theorem candidates_eq (s : Schema Name) (e : ElementSpec Name) :
    s.candidates e = e.attributes ++ (s.classesOf e).flatMap s.classAttributes := rfl

theorem IsTextual.isText_own (hs : s.IsTextual) (he : s.element? name = some e) :
    ∀ a ∈ e.attributes, Label.IsText a.name := by
  obtain ⟨k, hk⟩ := Table.exists_mem_of_find? he
  exact hs.own (k, e) hk

theorem IsTextual.isText_classAttributes (hs : s.IsTextual) (c : Name) :
    ∀ a ∈ s.classAttributes c, Label.IsText a.name := by
  intro a ha
  rw [classAttributes] at ha
  cases hfind : s.attributeClasses.find? c with
  | none => rw [hfind] at ha; exact nomatch ha
  | some as =>
    rw [hfind] at ha
    obtain ⟨k, hk⟩ := Table.exists_mem_of_find? hfind
    exact hs.ofClass (k, as) hk a ha

theorem IsTextual.isText_candidates (hs : s.IsTextual) (he : s.element? name = some e) :
    ∀ a ∈ s.candidates e, Label.IsText a.name := by
  intro a ha
  rcases List.mem_append.mp ha with ha | ha
  · exact hs.isText_own he a ha
  · obtain ⟨c, -, ha⟩ := List.mem_flatMap.mp ha
    exact hs.isText_classAttributes c a ha

theorem attributesOf_eq (he : s.element? name = some e) :
    s.attributesOf name = distinctAttributes [] (s.candidates e) := by
  rw [attributesOf, he]

variable [LawfulLabel Name]

theorem declares_iff_mem_attributesOf (hs : s.IsTextual) (he : s.element? name = some e)
    (n : Name) : (∃ a ∈ s.attributesOf name, a.name = n) ↔
      e.Declares n ∨ ∃ m c, s.ClassAt e m c ∧ s.Declares c n := by
  rw [attributesOf_eq he]
  constructor
  · rintro ⟨a, ha, rfl⟩
    have hmem := (sublist_distinctAttributes [] (s.candidates e)).subset ha
    rcases List.mem_append.mp hmem with hown | hclass
    · exact Or.inl ⟨a, hown, rfl⟩
    · obtain ⟨c, hc, ha⟩ := List.mem_flatMap.mp hclass
      obtain ⟨m, hm⟩ := (mem_classesOf_iff hs he c).mp hc
      exact Or.inr ⟨m, c, hm, a, ha, rfl⟩
  · have hkept : ∀ a ∈ s.candidates e, ∃ b ∈ distinctAttributes [] (s.candidates e),
        b.name = a.name := by
      intro a ha
      obtain ⟨b, hb, hname, -⟩ := exists_mem_distinctAttributes (hs.isText_candidates he) ha
      exact ⟨b, hb, hname⟩
    rintro (⟨a, ha, rfl⟩ | ⟨m, c, hc, a, ha, rfl⟩)
    · exact hkept a (List.mem_append_left _ ha)
    · have hmem : c ∈ s.classesOf e := (mem_classesOf_iff hs he c).mpr ⟨m, hc⟩
      exact hkept a (List.mem_append_right _ (List.mem_flatMap.mpr ⟨c, hmem, ha⟩))

theorem own_first_attributesOf (hs : s.IsTextual) (he : s.element? name = some e) :
    ∃ own inherited, s.attributesOf name = own ++ inherited ∧ own.Sublist e.attributes ∧
      (∀ a ∈ e.attributes, ∃ b ∈ own, b.name = a.name ∧
        e.attributes.find? (fun c => c.name == a.name) = some b) ∧
      ∀ a ∈ inherited, ¬ e.Declares a.name := by
  obtain ⟨inherited, hsplit⟩ := distinctAttributes_append [] e.attributes
    ((s.classesOf e).flatMap s.classAttributes)
  rw [← candidates_eq, ← attributesOf_eq he] at hsplit
  have hfirst := fun a (ha : a ∈ e.attributes) =>
    exists_mem_distinctAttributes (hs.isText_own he) ha
  refine ⟨distinctAttributes [] e.attributes, inherited, hsplit,
    sublist_distinctAttributes [] e.attributes, hfirst, ?_⟩
  rintro a ha ⟨b, hb, hname⟩
  -- the element's own definition of the name is kept too, and no name is kept twice
  obtain ⟨c, hc, hcb, -⟩ := hfirst b hb
  have hdistinct := pairwise_distinctAttributes (hs.isText_candidates he) []
  rw [← attributesOf_eq he, hsplit] at hdistinct
  exact (List.pairwise_append.mp hdistinct).2.2 c hc a ha (hcb.trans hname)

/-- Of two classes that define a name, the one that is searched first is no further away. -/
theorem nearest_attributesOf (hs : s.IsTextual) (he : s.element? name = some e)
    {a : AttributeSpec Name} (ha : a ∈ s.attributesOf name) (hown : ¬ e.Declares a.name) :
    ∃ m c, s.ClassAt e m c ∧
      (s.classAttributes c).find? (fun b => b.name == a.name) = some a ∧
      ∀ k d, s.ClassAt e k d → s.Declares d a.name → m ≤ k := by
  classical
  have htext := hs.isText_candidates he
  rw [attributesOf_eq he] at ha
  have haText := htext a ((sublist_distinctAttributes [] (s.candidates e)).subset ha)
  have hfind := ((mem_distinctAttributes_iff htext).mp ha).2
  have hnone : e.attributes.find? (fun b => b.name == a.name) = none :=
    List.find?_eq_none.mpr fun b hb hbeq => hown ⟨b, hb, (haText.beq_iff b.name).mp hbeq⟩
  rw [candidates_eq, List.find?_append, hnone, Option.none_or, List.find?_flatMap] at hfind
  obtain ⟨before, c, after, hclasses, hc, hbefore⟩ := List.findSome?_eq_some_iff.mp hfind
  have hmem : c ∈ s.classesOf e := hclasses ▸ List.mem_append_right before List.mem_cons_self
  have hat : ∃ m, s.ClassAt e m c := (mem_classesOf_iff hs he c).mp hmem
  refine ⟨Nat.find hat, c, Nat.find_spec hat, hc, ?_⟩
  rintro k d hd ⟨b, hb, hname⟩
  have hfirst : d ∉ before := by
    intro hd
    have hmiss := List.find?_eq_none.mp (hbefore d hd) b hb
    exact hmiss ((haText.beq_iff b.name).mpr hname)
  have hsorted := classesOf_pairwise hs he
  have hdmem : d ∈ s.classesOf e := (mem_classesOf_iff hs he d).mpr ⟨k, hd⟩
  rw [hclasses] at hsorted hdmem
  have hlater : ∀ d ∈ after, ∀ n, s.ClassAt e n d → ∃ m ≤ n, s.ClassAt e m c :=
    (List.pairwise_cons.mp (List.pairwise_append.mp hsorted).2.1).1
  rcases List.mem_append.mp hdmem with hdmem | hdmem
  · exact absurd hdmem hfirst
  · rcases List.mem_cons.mp hdmem with rfl | hdmem
    · exact Nat.find_min' hat hd
    · obtain ⟨m, hm, hcm⟩ := hlater d hdmem k hd
      exact Nat.le_trans (Nat.find_min' hat hcm) hm

/-- **The attributes of an element** are its resolution, on any class graph. -/
theorem isResolution_attributesOf (hs : s.IsTextual) (he : s.element? name = some e) :
    s.IsResolution e (s.attributesOf name) where
  distinct := by
    rw [attributesOf_eq he]
    exact pairwise_distinctAttributes (hs.isText_candidates he) []
  declares_iff := declares_iff_mem_attributesOf hs he
  own_first := own_first_attributesOf hs he
  nearest _ ha hown := nearest_attributesOf hs he ha hown

/-- Whatever is looked up on the way to the attributes of an element can be. -/
theorem canResolve_of_isTextual (hs : s.IsTextual) (he : s.element? name = some e) :
    s.canResolve e = true := by
  rw [canResolve, Bool.and_eq_true, List.all_eq_true, List.all_eq_true]
  refine ⟨fun c hc => ?_, fun a ha => (hs.isText_candidates he a ha).isName⟩
  obtain ⟨n, hn⟩ := (mem_classesOf_iff hs he c).mp hc
  exact (hs.isText_of_classAt he hn).isName

/-- **Resolution is exact on any class graph.** For every element that is defined, resolution by its
name goes through. Its answer has no name twice and has just the names that the element or a class
at some distance declares; the element's own attributes come first, in order and in their first
definitions, and any other is as a class at the least distance defines it among those that define it
at all. -/
theorem isResolution_resolve {s : Schema Json} (hs : s.IsTextual) (name : Text)
    {e : ElementSpec Json} (he : s.element? (.text name) = some e) :
    s.resolve (.text name) = .ok (s.attributesOf (.text name)) ∧
      s.IsResolution e (s.attributesOf (.text name)) := by
  refine ⟨?_, isResolution_attributesOf hs he⟩
  rw [resolve, he, Option.map_some, Option.getD_some, canResolve_of_isTextual hs he]
  rfl

/-- Two classes that inherit from each other, and the nearer one from itself, from a class that
nothing declares and twice from the other. Both define `shared`. -/
def entangled : Schema Json where
  id := .null
  name := .null
  elements := [(.string "e", ⟨.string "e", none, [.string "near"], [],
    [⟨.string "own", false, none, none, none, none, none⟩], none, .children []⟩)]
  attributeClasses :=
    [(.string "far", [⟨.string "shared", true, none, none, none, none, none⟩,
       ⟨.string "own", true, none, none, none, none, none⟩,
       ⟨.string "rare", true, none, none, none, none, none⟩]),
     (.string "near", [⟨.string "shared", false, none, none, none, none, none⟩])]
  inheritance :=
    [(.string "near", [.string "near", .string "missing", .string "far", .string "far"]),
     (.string "far", [.string "near"])]
  elementClasses := []

theorem entangled_isTextual : entangled.IsTextual := by
  have htext : ∀ t : String, Label.IsText (Json.string t) := fun t => ⟨Text.ofString t, rfl⟩
  refine ⟨?_, ?_, ?_, ?_⟩
  · simp [entangled, htext]
  · simp [entangled, htext]
  · simp [entangled, declaredClasses, Table.find?, htext]
  · simp [entangled, htext]

/-- The required definition of `shared` is further away, and gives way; so does that of `own`. -/
theorem isResolution_entangled :
    entangled.IsTextual ∧
      (∃ e, entangled.element? (.string "e") = some e ∧
        entangled.resolve (.string "e") = .ok (entangled.attributesOf (.string "e")) ∧
          entangled.IsResolution e (entangled.attributesOf (.string "e"))) ∧
      (entangled.attributesOf (.string "e")).map (fun a => (a.name.text?, a.isRequired)) =
        [(some (Text.ofString "own"), false), (some (Text.ofString "shared"), false),
          (some (Text.ofString "rare"), true)] :=
  ⟨entangled_isTextual,
    ⟨_, rfl, isResolution_resolve entangled_isTextual (Text.ofString "e") rfl⟩, by cbv⟩

end Schema

end MarkupGrammar
