import MarkupGrammar.Proofs.Corpus.Dictionary
import MarkupGrammar.Proofs.Corpus.Outcome
import MarkupGrammar.Proofs.Json.Name

/-!
# The members of model classes

The members of a class stand in no entry of a corpus. Each element lists the classes that it is in,
and while elements are read the lists of members grow, all of them at the same time. This module
says what they are in the end. The classes are those that are declared, before any element is read,
and an element that names another one declares nothing. The members of a class are the names of the
elements in their order, each as often as the element lists the class.

Identifiers need not be texts. They are compared as names, where `1` and `true` are one, so that a
class can be declared under one value and listed under another.

## Main results

* `Corpus.AreDeclared.foldl` — the classes that there are before elements are read
* `Corpus.exists_of_foldlM_addElement` — what is left when all elements have been read
* `Corpus.membership_of_ingest` — the members of the classes of a corpus
-/

namespace MarkupGrammar

theorem Table.isSome_find?_iff {Key Value : Type} [BEq Key] {t : Table Key Value} {key : Key} :
    (t.find? key).isSome = true ↔ ∃ e ∈ t, (e.1 == key) = true := by
  induction t with
  | nil => simp [find?]
  | cons e t ih =>
    obtain ⟨k, v⟩ := e
    rw [find?]
    by_cases hk : (k == key) = true <;> simp [hk, ih]

namespace Corpus

/-! ### Declared classes -/

/-- A table of classes without members: one for each of some names, and for no other. -/
structure AreDeclared (names : List Json) (classes : Table Json (List Json)) : Prop where
  areNames : ∀ e ∈ classes, e.1.isName = true
  covers : ∀ c, (∃ e ∈ classes, (e.1 == c) = true) ↔ ∃ n ∈ names, (n == c) = true
  empty : ∀ e ∈ classes, e.2 = []

theorem AreDeclared.nil : AreDeclared [] [] where
  areNames := fun _ he => nomatch he
  covers := fun _ => by simp
  empty := fun _ he => nomatch he

/-- A class that is declared once more is left as it is, and a new one comes last. -/
theorem AreDeclared.withModelClass {names : List Json} {index : CorpusIndex Json}
    (h : AreDeclared names index.modelClasses) {n : Json} (hn : n.isName = true) :
    AreDeclared (names ++ [n]) (index.withModelClass n).modelClasses := by
  rw [CorpusIndex.withModelClass]
  split
  · next members hfind =>
    obtain ⟨k, hmem, hk⟩ := Table.exists_mem_beq_of_find? hfind
    refine ⟨h.areNames, fun c => ?_, h.empty⟩
    rw [h.covers]
    constructor
    · rintro ⟨m, hm, hmc⟩
      exact ⟨m, List.mem_append_left _ hm, hmc⟩
    · rintro ⟨m, hm, hmc⟩
      rcases List.mem_append.mp hm with hm | hm
      · exact ⟨m, hm, hmc⟩
      · obtain rfl := List.mem_singleton.mp hm
        refine (h.covers c).mp ⟨(k, members), hmem, ?_⟩
        rw [← hmc]
        exact Json.beq_congr_of_isName (Json.isName_of_beq hn hk) hn
          (Json.isName_of_beq_right hn hmc) hk
  · refine ⟨?_, fun c => ?_, ?_⟩
    · exact List.forall_mem_append.mpr ⟨h.areNames, List.forall_mem_singleton.mpr hn⟩
    · simp only [List.mem_append, or_and_right, exists_or, List.mem_singleton, exists_eq_left,
        h.covers c]
    · exact List.forall_mem_append.mpr ⟨h.empty, List.forall_mem_singleton.mpr rfl⟩

/-- **The classes that are declared,** after all of them have been. -/
theorem AreDeclared.foldl {names : List Json} {index : CorpusIndex Json}
    (h : AreDeclared names index.modelClasses) {ns : List Json} (hns : ∀ n ∈ ns, n.isName = true) :
    AreDeclared (names ++ ns) (ns.foldl CorpusIndex.withModelClass index).modelClasses := by
  induction ns generalizing names index with
  | nil => rwa [List.append_nil]
  | cons n ns ih =>
    obtain ⟨hn, hns⟩ := List.forall_mem_cons.mp hns
    rw [List.append_cons]
    exact ih (h.withModelClass hn) hns

/-! ### Elements -/

theorem isName_of_nameKey {v key : Json} (h : nameKey v = .ok key) : key.isName = true := by
  rw [nameKey] at h
  split at h
  · next hname => exact Except.ok.inj h ▸ hname
  · cases h

/-- An element has the identifier of its entry and the classes that its entry lists, whether they
are declared or not. All of them are names. -/
theorem listed_elementOf {fields : List (Text × Json)} {e : Json × ElementDef Json}
    (h : elementOf (.object fields) = .ok e) :
    e.2.name = identOf (.object fields) ∧
      itemsOf (valueAt (.object fields) ["classes", "model"]) = .ok e.2.modelClasses ∧
      ∀ c ∈ e.2.modelClasses, c.isName = true := by
  rw [elementOf] at h
  obtain ⟨name, hname, h⟩ := exists_of_bind_eq_ok h
  obtain ⟨listed, hlisted, h⟩ := exists_of_bind_eq_ok h
  obtain ⟨keys, hkeys, h⟩ := exists_of_bind_eq_ok h
  obtain ⟨documentation, -, h⟩ := exists_of_bind_eq_ok h
  obtain ⟨attributeClasses, -, h⟩ := exists_of_bind_eq_ok h
  obtain ⟨attributes, -, h⟩ := exists_of_bind_eq_ok h
  obtain ⟨raw, -, h⟩ := exists_of_bind_eq_ok h
  obtain ⟨content, -, h⟩ := exists_of_bind_eq_ok h
  obtain rfl := Except.ok.inj h
  obtain rfl := mapM_nameKey_eq hkeys
  exact ⟨nameKey_eq hname, itemsOf_of_classRefs (exists_of_lift_eq_ok hlisted),
    forall_of_mapM_eq_ok isName_of_nameKey hkeys⟩

theorem find?_of_addElement {index index' : CorpusIndex Json} {entry : Json}
    (h : addElement index entry = .ok index') : index.elements.find? (identOf entry) = none := by
  rw [addElement] at h
  obtain ⟨name, hname, h⟩ := exists_of_bind_eq_ok h
  obtain rfl := nameKey_eq hname
  cases hfind : index.elements.find? (identOf entry) with
  | none => rfl
  | some e =>
    rw [hfind] at h
    cases h

/-- **What is left when all elements have been read.** No two have the same identifier, for the
second would have been refused. So they stand in the index one after the other, and each class has
got the members that they make it have. -/
theorem exists_of_foldlM_addElement {entries : List Json} {index index' : CorpusIndex Json}
    (h : entries.foldlM addElement index = .ok index') :
    ∃ es, entries.mapM elementOf = .ok es ∧ index'.elements = index.elements ++ es ∧
      index'.modelClasses
        = index.modelClasses.map fun e => (e.1, e.2 ++ CorpusIndex.membership es e.1) := by
  induction entries generalizing index with
  | nil =>
    obtain rfl := Except.ok.inj h
    exact ⟨[], rfl, by simp, by simp [CorpusIndex.membership]⟩
  | cons entry entries ih =>
    rw [List.foldlM_cons] at h
    obtain ⟨next, hnext, h⟩ := exists_of_bind_eq_ok h
    have hnew := find?_of_addElement hnext
    rw [addElement_eq _ _ hnew] at hnext
    obtain ⟨e, he, hnext⟩ := exists_of_bind_eq_ok hnext
    obtain rfl := Except.ok.inj hnext
    obtain ⟨es, hes, helements, hmodelClasses⟩ := ih h
    refine ⟨e :: es, mapM_cons_eq_ok_iff.mpr ⟨e, es, he, hes, rfl⟩, ?_, ?_⟩
    · rw [← name_elementOf he] at hnew
      rw [helements, CorpusIndex.withElement,
        Table.insert_of_new (Table.beq_eq_false_of_find?_eq_none hnew), List.append_assoc]
      rfl
    · rw [hmodelClasses, CorpusIndex.withElement, CorpusIndex.foldl_addMember, List.map_map]
      refine List.map_congr_left fun f _ => ?_
      simp [CorpusIndex.membership]

/-- The members of a class, by how often each element lists it. -/
theorem membership_eq_flatMap_replicate {es : Table Json (ElementDef Json)}
    (hes : ∀ e ∈ es, ∀ c ∈ e.2.modelClasses, c.isName = true) {k c : Json} (hk : k.isName = true)
    (hc : (k == c) = true) :
    CorpusIndex.membership es k
      = es.flatMap fun e => List.replicate (e.2.modelClasses.count c) e.1 := by
  have hcname := Json.isName_of_beq_right hk hc
  refine List.flatMap_congr fun e he => ?_
  have hsame : e.2.modelClasses.filter (k == ·) = e.2.modelClasses.filter (· == c) := by
    refine List.filter_congr fun d hd => ?_
    have hd := hes e he d hd
    rw [Json.beq_congr_of_isName hk hcname hd hc, Json.beq_comm_of_isName hcname hd]
  rw [hsame, List.map_const', List.count_eq_length_filter]

/-- Elements give members to the classes that are declared, and make no others. -/
theorem AreDeclared.isSome_find?_iff {names : List Json} {classes : Table Json (List Json)}
    (h : AreDeclared names classes) (es : Table Json (ElementDef Json)) (c : Json) :
    (Table.find? c (classes.map fun e =>
        (e.1, e.2 ++ CorpusIndex.membership es e.1))).isSome = true
      ↔ ∃ n ∈ names, (n == c) = true := by
  rw [Table.isSome_find?_iff, ← h.covers]
  simp only [List.mem_map, exists_exists_and_eq_and]

/-- The members that elements give a class. It had none before. -/
theorem AreDeclared.eq_of_find? {names : List Json} {classes : Table Json (List Json)}
    (h : AreDeclared names classes) {es : Table Json (ElementDef Json)}
    (hes : ∀ e ∈ es, ∀ c ∈ e.2.modelClasses, c.isName = true) {c : Json} {members : List Json}
    (hfind : Table.find? c (classes.map fun e =>
      (e.1, e.2 ++ CorpusIndex.membership es e.1)) = some members) :
    members = es.flatMap fun e => List.replicate (e.2.modelClasses.count c) e.1 := by
  obtain ⟨k, hmem, hk⟩ := Table.exists_mem_beq_of_find? hfind
  obtain ⟨⟨_, before⟩, hclass, heq⟩ := List.mem_map.mp hmem
  obtain ⟨rfl, rfl⟩ := Prod.mk.inj heq
  obtain rfl : before = [] := h.empty _ hclass
  rw [List.nil_append]
  exact membership_eq_flatMap_replicate hes (h.areNames _ hclass) hk

/-! ### Main result -/

/-- What is written into other collections leaves elements and classes as they are. -/
theorem keeps_foldlM {ρ : Type} {read : Json → Except ReadError ρ}
    {put : CorpusIndex Json → ρ → CorpusIndex Json}
    {add : CorpusIndex Json → Json → Except ReadError (CorpusIndex Json)}
    (hadd : ∀ index entry, add index entry = read entry >>= fun r => pure (put index r))
    (hput : ∀ index r, (put index r).elements = index.elements ∧
      (put index r).modelClasses = index.modelClasses) {entries : List Json}
    {index index' : CorpusIndex Json} (h : entries.foldlM add index = .ok index') :
    index'.elements = index.elements ∧ index'.modelClasses = index.modelClasses := by
  refine foldlM_keeps (p := fun i => i.elements = index.elements ∧
    i.modelClasses = index.modelClasses) (fun {i entry i'} hi h => ?_) ⟨rfl, rfl⟩ h
  rw [hadd] at h
  obtain ⟨r, -, h⟩ := exists_of_bind_eq_ok h
  obtain rfl := Except.ok.inj h
  exact ⟨(hput i r).1.trans hi.1, (hput i r).2.trans hi.2⟩

/-- The classes that the entries of a corpus declare. -/
theorem areDeclared_of_foldlM {entries : List Json} {index index' : CorpusIndex Json}
    (hindex : index.modelClasses = []) (h : entries.foldlM addModelClass index = .ok index') :
    AreDeclared (entries.map identOf) index'.modelClasses ∧ index'.elements = index.elements := by
  rw [foldlM_eq_mapM addModelClass_eq] at h
  obtain ⟨names, hnames, h⟩ := exists_of_bind_eq_ok h
  obtain rfl := Except.ok.inj h
  have hidents : names.map id = entries.map identOf := map_eq_of_mapM nameKey_eq hnames
  rw [← hidents, List.map_id]
  refine ⟨?_, ?_⟩
  · have hnil : AreDeclared [] index.modelClasses := hindex ▸ .nil
    exact hnil.foldl (forall_of_mapM_eq_ok isName_of_nameKey hnames)
  · refine List.foldlRecOn names CorpusIndex.withModelClass
      (motive := fun i => i.elements = index.elements) rfl fun i hi n _ => ?_
    rw [CorpusIndex.withModelClass]
    split <;> exact hi

/-- How a corpus that is read has come to its elements and its classes. -/
theorem exists_of_ingest {corpus : Json} {index : CorpusIndex Json}
    (h : ingest corpus = .ok index) :
    ∃ declared entries classes, entriesAt corpus ["classes", "models"] = .ok declared ∧
      entriesAt corpus ["elements"] = .ok entries ∧
      AreDeclared (declared.map identOf) classes ∧
      entries.mapM elementOf = .ok index.elements ∧
      index.modelClasses
        = classes.map fun e => (e.1, e.2 ++ CorpusIndex.membership index.elements e.1) := by
  unfold ingest at h
  cases corpus with
  | object fields =>
    obtain ⟨entries, hentries, h⟩ := exists_of_bind_eq_ok h
    obtain ⟨declared, hdeclared, h⟩ := exists_of_bind_eq_ok h
    obtain ⟨attributeClasses, -, h⟩ := exists_of_bind_eq_ok h
    obtain ⟨macros, -, h⟩ := exists_of_bind_eq_ok h
    obtain ⟨datatypes, -, h⟩ := exists_of_bind_eq_ok h
    obtain ⟨withMacros, hmacros, h⟩ := exists_of_bind_eq_ok h
    obtain ⟨withClasses, hclasses, h⟩ := exists_of_bind_eq_ok h
    obtain ⟨withAttributes, hattributes, h⟩ := exists_of_bind_eq_ok h
    obtain ⟨withDatatypes, hdatatypes, h⟩ := exists_of_bind_eq_ok h
    have hmacros := keeps_foldlM addMacro_eq (fun _ _ => ⟨rfl, rfl⟩) hmacros
    have hattributes := keeps_foldlM addAttributeClass_eq (fun _ _ => ⟨rfl, rfl⟩) hattributes
    have hdatatypes := keeps_foldlM addDatatype_eq (fun _ _ => ⟨rfl, rfl⟩) hdatatypes
    obtain ⟨hclasses, hnone⟩ := areDeclared_of_foldlM hmacros.2 hclasses
    obtain ⟨es, hes, helements, hmodelClasses⟩ := exists_of_foldlM_addElement h
    rw [hdatatypes.1, hattributes.1, hnone, hmacros.1, List.nil_append] at helements
    rw [hdatatypes.2, hattributes.2] at hmodelClasses
    exact ⟨declared, entries, _, hdeclared, hentries, hclasses, helements ▸ hes,
      helements ▸ hmodelClasses⟩
  | _ => cases h

/-- A corpus declares a class when an entry among its model classes has it for an identifier. -/
def Declares (corpus c : Json) : Prop :=
  ∃ declared, entriesAt corpus ["classes", "models"] = .ok declared ∧
    ∃ entry ∈ declared, (identOf entry == c) = true

/-- **The members of the classes of a corpus.** The index has the classes that are declared, each
once, and no other. The members of a class are the names of the elements, in the order of the
corpus, each as often as the element lists the class. The elements are those of the corpus, each
under the identifier of its entry and with all the classes that its entry lists. -/
theorem membership_of_ingest {corpus : Json} {index : CorpusIndex Json}
    (h : ingest corpus = .ok index) :
    index.modelClasses.Distinct ∧
    (∀ c, (index.modelClasses.find? c).isSome = true ↔ Declares corpus c) ∧
    (∀ c members, index.modelClasses.find? c = some members →
      members = index.elements.flatMap fun e =>
        List.replicate (e.2.modelClasses.count c) e.2.name) ∧
    ∃ entries, entriesAt corpus ["elements"] = .ok entries ∧
      List.Forall₂ (fun entry e => e.1 = identOf entry ∧ e.2.name = identOf entry ∧
        itemsOf (valueAt entry ["classes", "model"]) = .ok e.2.modelClasses)
        entries index.elements := by
  obtain ⟨declared, entries, classes, hdeclared, hentries, hclasses, helements, hmodelClasses⟩ :=
    exists_of_ingest h
  have hlisted : ∀ entry ∈ entries, ∀ e, elementOf entry = .ok e →
      e.1 = identOf entry ∧ e.2.name = identOf entry ∧
        itemsOf (valueAt entry ["classes", "model"]) = .ok e.2.modelClasses ∧
        ∀ c ∈ e.2.modelClasses, c.isName = true := by
    intro entry hentry e he
    obtain ⟨fields, rfl⟩ := exists_object_of_entriesAt hentries entry hentry
    exact ⟨name_elementOf he, listed_elementOf he⟩
  have hnames : ∀ e ∈ index.elements,
      e.1 = e.2.name ∧ ∀ c ∈ e.2.modelClasses, c.isName = true := by
    intro e he
    obtain ⟨entry, hentry, he⟩ := exists_of_mem_mapM helements e he
    obtain ⟨hkey, hname, -, hclasses⟩ := hlisted entry hentry e he
    exact ⟨hkey.trans hname.symm, hclasses⟩
  refine ⟨(ingest_isDictionary h).modelClasses, fun c => ?_, fun c members hfind => ?_,
    entries, hentries, ?_⟩
  · rw [hmodelClasses, hclasses.isSome_find?_iff, Declares]
    simp only [hdeclared, Except.ok.injEq, exists_eq_left', List.mem_map,
      exists_exists_and_eq_and]
  · rw [hmodelClasses] at hfind
    rw [hclasses.eq_of_find? (fun e he => (hnames e he).2) hfind]
    exact List.flatMap_congr fun e he => by rw [(hnames e he).1]
  · have hread := (List.forall₂_and_left _ _).mpr
      ⟨fun _ hentry => hentry, forall₂_of_mapM helements⟩
    refine hread.imp fun entry e he => ?_
    obtain ⟨hkey, hname, hclasses, -⟩ := hlisted entry he.1 e he.2
    exact ⟨hkey, hname, hclasses⟩

/-- A corpus that declares one class twice and another not at all. A page break is listed in the
first class twice, and in the other. -/
def milestones : Json :=
  .ofFields
    [("elements", .array
      [.ofFields
        [("ident", .string "pb"), ("classes", .ofFields
          [("model", .array [.string "model.milestone", .string "model.global",
            .string "model.milestone"])])],
       .ofFields
        [("ident", .string "lb"),
         ("classes", .ofFields [("model", .array [.string "model.milestone"])])]]),
     ("classes", .ofFields
       [("models", .array [.ofFields [("ident", .string "model.milestone")],
          .ofFields [("ident", .string "model.milestone")]])])]

/-- The page break is a member twice, before the line break, and no other class is there. -/
theorem membership_of_ingest_milestones :
    ∃ index, ingest milestones = .ok index ∧
      index.membersOf (.string "model.milestone") = [.string "pb", .string "pb", .string "lb"] ∧
      ¬ Declares milestones (.string "model.global") := by
  have hingest : ingest milestones = .ok
      ⟨none, none,
        [(.string "pb", ⟨.string "pb", none, [], [.string "model.milestone",
            .string "model.global", .string "model.milestone"], [], none⟩),
         (.string "lb", ⟨.string "lb", none, [], [.string "model.milestone"], [], none⟩)],
        [], [(.string "model.milestone", [.string "pb", .string "pb", .string "lb"])], [], []⟩ :=
    rfl
  obtain ⟨-, hdeclared, -⟩ := membership_of_ingest hingest
  refine ⟨_, hingest, rfl, fun h => ?_⟩
  have hfound := (hdeclared (.string "model.global")).mpr h
  revert hfound
  decide

end Corpus

end MarkupGrammar
