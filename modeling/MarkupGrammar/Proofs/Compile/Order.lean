import MarkupGrammar.Proofs.Compile.Rearrangement
import MarkupGrammar.Proofs.Corpus.Rearrangement

/-!
# Compiling a corpus in another order

The collections of a corpus can be listed in any order. Macros and classes are looked up by their
names, so nothing of it is left in a schema but what a class makes of the order of the elements: its
members stand in it, and so do the parts of the choice that a reference to the class becomes. What
is admitted and what is required is the same.

## Main results

* `CorpusIndex.IsRearranged.agrees_compileElement` — what an element is compiled to
* `CorpusIndex.IsRearranged.resolve_eq` — the attributes that are found for it
* `exists_schema_of_isRearranged` — schemas of a corpus in another order
-/

namespace MarkupGrammar

/-! ### Elements -/

/-- Definitions of an element that agree in all but the order in which classes list their members:
the models, if there are any, are compiled from the first expansion of the content and from the
second, and these differ in nothing else. -/
structure ElementSpec.AgreesUpToMembers (parts parts' : List (Expansion Json))
    (e e' : ElementSpec Json) : Prop where
  name : e'.name = e.name
  documentation : e'.documentation = e.documentation
  attributeClasses : e'.attributeClasses = e.attributeClasses
  modelClasses : e'.modelClasses = e.modelClasses
  attributes : e'.attributes = e.attributes
  shape : e'.shape = e.shape
  model : e.model? = Expansion.compile parts
  model' : e'.model? = Expansion.compile parts'
  parts : Expansion.AreRearranged Label.AreReordered parts parts'
  models : Option.Rel ContentModel.IsRearranged e.model? e'.model?
  children : e'.children.Perm e.children
  requiredChildren :
    e'.model?.map ContentModel.requiredChildren = e.model?.map ContentModel.requiredChildren

namespace CorpusIndex

theorem model?_compileElement (index : CorpusIndex Json) (d : ElementDef Json) :
    (index.compileElement d).model? = Expansion.compile (index.expandContent [] d.content) := by
  rw [compileElement, ElementSpec.model?, compileContent]
  cases Expansion.compile (index.expandContent [] d.content) <;> rfl

/-- Children are the names in the expansion of the content. -/
theorem children_eq_eraseDups_names (index : CorpusIndex Json) (d : ElementDef Json) :
    (index.compileElement d).children
      = (Expansion.namesOfAll (index.expandContent [] d.content)).eraseDups := by
  rw [children_compileElement, ← Expansion.names_compile, compileContent]
  cases Expansion.compile (index.expandContent [] d.content) <;> rfl

theorem element?_toSchema (index : CorpusIndex Json) (id name key : Json) :
    (index.toSchema id name).element? key
      = (index.elements.find? key).map index.compileElement :=
  Table.find?_map index.compileElement index.elements key

namespace IsRearranged

variable {index index' : CorpusIndex Json} (h : index.IsRearranged index')

include h

/-- The content of an element expands to the same but for the order of members. -/
theorem areRearranged_expandContent (content : Option (List (Particle Json))) :
    Expansion.AreRearranged Label.AreReordered (index.expandContent [] content)
      (index'.expandContent [] content) :=
  areRearranged_expandAll h.membersOf (h.macros.filter _) (h.macros_perm.filter _) _

/-- **An element is compiled to the same but for the order of members.** -/
theorem agrees_compileElement (d : ElementDef Json) :
    (index.compileElement d).AgreesUpToMembers (index.expandContent [] d.content)
      (index'.expandContent [] d.content) (index'.compileElement d) := by
  have hparts := h.areRearranged_expandContent d.content
  have hmodels : Option.Rel ContentModel.IsRearranged (index.compileElement d).model?
      (index'.compileElement d).model? := by
    rw [model?_compileElement, model?_compileElement]
    exact Expansion.isRearranged_compile _ hparts
  refine ⟨rfl, rfl, rfl, rfl, rfl, rfl, model?_compileElement index d,
    model?_compileElement index' d, hparts, hmodels, ?_, ?_⟩
  · rw [children_eq_eraseDups_names, children_eq_eraseDups_names]
    exact (Expansion.textsMoved_namesOfAll _ hparts).eraseDups_perm
  · generalize (index.compileElement d).model? = m, (index'.compileElement d).model? = m'
      at hmodels ⊢
    cases hmodels with
    | none => rfl
    | some hm =>
      simp only [Option.map_some, ContentModel.requiredChildren,
        ContentModel.demands_eq_of_isRearranged _ hm]

/-- Where classes list their members in the same order, an element is compiled to the same. -/
theorem compileElement_eq (hmembers : index'.membersOf = index.membersOf) (d : ElementDef Json) :
    index'.compileElement d = index.compileElement d := by
  have hparts : Expansion.AreRearranged (· = ·) (index.expandContent [] d.content)
      (index'.expandContent [] d.content) :=
    areRearranged_expandAll (fun c => congrFun hmembers.symm c) (h.macros.filter _)
      (h.macros_perm.filter _) _
  rw [compileElement, compileElement, compileContent, compileContent,
    Expansion.eq_of_areRearranged _ hparts]

theorem isUsable_eq : index'.isUsable = index.isUsable := by
  rw [isUsable, isUsable, h.elements_perm.all_eq]
  refine congrArg (List.all index.elements) (funext fun e => ?_)
  exact Expansion.areUsable_eq_of_areRearranged _ (h.areRearranged_expandContent e.2.content)

/-! ### Schemas -/

variable (id name : Json)

/-- Classes of attributes do not depend on the order of anything. -/
theorem sameClasses_toSchema :
    (index.toSchema id name).SameClasses (index'.toSchema id name) where
  attributeClasses := h.attributeClasses.map _
  attributeClasses_perm := h.attributeClasses_perm.map _
  inheritance := h.attributeClasses.map _
  inheritance_perm := h.attributeClasses_perm.map _
  elementClasses := h.elements.map _
  elementClasses_perm := h.elements_perm.map _

theorem canResolve_eq (d : ElementDef Json) :
    (index'.toSchema id name).canResolve (index'.compileElement d)
      = (index.toSchema id name).canResolve (index.compileElement d) :=
  (h.sameClasses_toSchema id name).canResolve_eq rfl rfl rfl

/-- The schema can be used when the other can. -/
theorem isUsable_toSchema :
    (index'.toSchema id name).isUsable = (index.toSchema id name).isUsable := by
  have husable : ∀ index : CorpusIndex Json, (index.toSchema id name).isUsable
      = index.elements.all fun e => (index.compileElement e.2).children.all Label.isName
          && (index.toSchema id name).canResolve (index.compileElement e.2) :=
    fun index => List.all_map
  rw [husable, husable, h.elements_perm.all_eq]
  refine congrArg (List.all index.elements) (funext fun e => ?_)
  simp only [(h.agrees_compileElement e.2).children.all_eq, h.canResolve_eq id name e.2]

/-- An index in another order can be built when the index can. -/
theorem exists_build {s : Schema Json} (hs : index.build id name = .ok s) :
    s = index.toSchema id name ∧ index'.build id name = .ok (index'.toSchema id name) := by
  rw [build] at hs ⊢
  split at hs
  · next husable =>
    refine ⟨(Except.ok.inj hs).symm, if_pos ?_⟩
    rw [h.isUsable_eq, h.isUsable_toSchema id name, husable]
  · cases hs

theorem resolve_eq (key : Json) :
    (index'.toSchema id name).resolve key = (index.toSchema id name).resolve key := by
  rw [Schema.resolve, Schema.resolve, Schema.attributesOf, Schema.attributesOf, element?_toSchema,
    element?_toSchema, h.elements.find?_perm h.elements_perm]
  cases index.elements.find? key with
  | none => rfl
  | some d =>
    have hcandidates : (index'.toSchema id name).candidates (index'.compileElement d)
        = (index.toSchema id name).candidates (index.compileElement d) :=
      (h.sameClasses_toSchema id name).candidates_eq rfl rfl rfl
    simp only [Option.map_some, Option.getD_some, h.canResolve_eq id name d, hcandidates]

end IsRearranged

end CorpusIndex

/-- What the content of an element of a corpus expands to. -/
def Corpus.expansionAt? (corpus key : Json) : Option (List (Expansion Json)) :=
  match ingest corpus with
  | .ok index => (index.elements.find? key).map fun d => index.expandContent [] d.content
  | .error _ => none

/-- Schemas of two corpora that agree in all but the order in which classes list their members. -/
structure Schema.AgreesUpToMembers (corpus corpus' : Json) (s s' : Schema Json) : Prop where
  keys : (s'.elements.map (·.1)).Perm (s.elements.map (·.1))
  element? : ∀ key, Option.Rel (fun e e' => ∃ parts parts',
    Corpus.expansionAt? corpus key = some parts ∧ Corpus.expansionAt? corpus' key = some parts' ∧
      ElementSpec.AgreesUpToMembers parts parts' e e') (s.element? key) (s'.element? key)
  resolve : ∀ key, s'.resolve key = s.resolve key

/-- **A corpus compiles in any order of its collections.** When the entries of each collection have
texts of their own for identifiers and a schema is compiled of the corpus, then one is of every
corpus that lists the same entries in another order, and it agrees with the first in all but the
order in which classes list their members. When the elements are listed as before, they are the
same. -/
theorem exists_schema_of_isRearranged {corpus corpus' : Json}
    (hids : Corpus.IsIdentified corpus) (h : Corpus.IsRearranged corpus corpus') {id name : Json}
    {s : Schema Json} (hs : (compileCorpus corpus id name).result = .ok s) :
    ∃ s', (compileCorpus corpus' id name).result = .ok s' ∧
      Schema.AgreesUpToMembers corpus corpus' s s' ∧
      (Corpus.entriesAt corpus' ["elements"] = Corpus.entriesAt corpus ["elements"] →
        s'.elements = s.elements) := by
  rw [result_compileCorpus] at hs
  obtain ⟨index, hindex, hbuild⟩ := exists_of_bind_eq_ok hs
  obtain ⟨index', hindex', hrearranged, hsame⟩ :=
    Corpus.exists_ingest_of_isRearranged hids h hindex
  obtain ⟨rfl, hbuild'⟩ := hrearranged.exists_build id name hbuild
  refine ⟨index'.toSchema id name, ?_, ⟨?_, fun key => ?_, hrearranged.resolve_eq id name⟩, ?_⟩
  · rw [result_compileCorpus, hindex']
    exact hbuild'
  · rw [CorpusIndex.toSchema, CorpusIndex.toSchema, List.map_map, List.map_map]
    exact hrearranged.elements_perm.map _
  · have hfind := hrearranged.elements.find?_perm hrearranged.elements_perm key
    rw [CorpusIndex.element?_toSchema, CorpusIndex.element?_toSchema, hfind]
    cases hd : index.elements.find? key with
    | none => exact .none
    | some d =>
      refine .some ⟨_, _, ?_, ?_, hrearranged.agrees_compileElement d⟩
      · simp only [Corpus.expansionAt?, hindex, hd, Option.map_some]
      · simp only [Corpus.expansionAt?, hindex', hfind, hd, Option.map_some]
  · intro helements
    obtain ⟨helements, hmembers⟩ := hsame helements
    rw [CorpusIndex.toSchema, CorpusIndex.toSchema, helements]
    exact List.map_congr_left fun e _ =>
      congrArg (Prod.mk e.1) (hrearranged.compileElement_eq hmembers e.2)

namespace Corpus

/-- A corpus of lists, whose parts are in a class that a macro refers to. -/
def listCorpus (elements models macros : List Json) : Json :=
  .ofFields
    [("elements", .array elements), ("macros", .array macros),
     ("classes", .ofFields
       [("models", .array models),
        ("attributes", .array
          [.ofFields
            [("ident", .string "att.global"),
             ("attributes", .array [.ofFields [("ident", .string "id")]])]])])]

theorem isRearranged_listCorpus {elements elements' models models' macros macros' : List Json}
    (helements : elements'.Perm elements) (hmodels : models'.Perm models)
    (hmacros : macros'.Perm macros) :
    IsRearranged (listCorpus elements models macros)
      (listCorpus elements' models' macros') := by
  refine ⟨⟨_, rfl⟩, fun path hpath => ?_⟩
  simp only [collections, List.mem_cons, List.not_mem_nil, or_false] at hpath
  rcases hpath with rfl | rfl | rfl | rfl | rfl
  · exact Or.inr ⟨elements, elements', rfl, rfl, helements⟩
  · exact Or.inr ⟨models, models', rfl, rfl, hmodels⟩
  · exact Or.inl rfl
  · exact Or.inr ⟨macros, macros', rfl, rfl, hmacros⟩
  · exact Or.inl rfl

/-- The elements of the corpus. -/
def listElements : List Json :=
  [.ofFields
    [("ident", .string "list"), ("classes", .ofFields [("atts", .array [.string "att.global"])]),
     ("content", .array
       [.ofFields [("type", .string "macroRef"), ("key", .string "macro.parts")],
        .ofFields [("type", .string "textNode")]])],
   .ofFields
    [("ident", .string "item"), ("classes", .ofFields [("model", .array [.string "model.part"])])],
   .ofFields
    [("ident", .string "head"), ("classes", .ofFields [("model", .array [.string "model.part"])])]]

/-- The classes of elements in the corpus. -/
def listModels : List Json :=
  [.ofFields [("ident", .string "model.part")], .ofFields [("ident", .string "model.note")]]

/-- The macros of the corpus. -/
def listMacros : List Json :=
  [.ofFields
    [("ident", .string "macro.parts"),
     ("content", .array [.ofFields [("type", .string "classRef"), ("key", .string "model.part")]])],
   .ofFields [("ident", .string "macro.note")]]

/-- What is read of the corpus. -/
def listIndex : CorpusIndex Json where
  title := none
  edition := none
  elements :=
    [(.string "list",
      ⟨.string "list", none, [.string "att.global"], [], [],
        some [⟨.macroRef, some (.string "macro.parts"), Bounds.once, []⟩,
          ⟨.textNode, none, Bounds.once, []⟩]⟩),
     (.string "item", ⟨.string "item", none, [], [.string "model.part"], [], none⟩),
     (.string "head", ⟨.string "head", none, [], [.string "model.part"], [], none⟩)]
  macros :=
    [(.string "macro.parts",
      ⟨.string "macro.parts", none,
        some [⟨.classRef, some (.string "model.part"), Bounds.once, []⟩]⟩),
     (.string "macro.note", ⟨.string "macro.note", none, none⟩)]
  modelClasses :=
    [(.string "model.part", [.string "item", .string "head"]), (.string "model.note", [])]
  attributeClasses :=
    [(.string "att.global",
      ⟨.string "att.global", [], [⟨.string "id", false, none, none, none, none, none⟩], none⟩)]
  datatypes := []

/-- The corpus of lists. -/
def lists : Json := listCorpus listElements listModels listMacros

/-- The same with elements, classes and macros listed the other way round. -/
def reversedLists : Json :=
  listCorpus listElements.reverse listModels.reverse listMacros.reverse

/-- The lists compile the other way round. -/
theorem exists_schema_reversedLists :
    IsIdentified lists ∧ IsRearranged lists reversedLists ∧
    ∃ s, (compileCorpus lists (.string "lists") (.string "Lists")).result = .ok s ∧
      (Schema.namesAt s "list" == some ([.string "item", .string "head"], [.string "id"])) = true ∧
      ∃ s', (compileCorpus reversedLists (.string "lists") (.string "Lists")).result = .ok s' ∧
        Schema.AgreesUpToMembers lists reversedLists s s' ∧
        (entriesAt reversedLists ["elements"] = entriesAt lists ["elements"] →
          s'.elements = s.elements) := by
  have hids : IsIdentified lists := by decide +kernel
  have hrearranged : IsRearranged lists reversedLists :=
    isRearranged_listCorpus (List.reverse_perm _) (List.reverse_perm _) (List.reverse_perm _)
  have hbuild : Schema.hasNames (listIndex.build (.string "lists") (.string "Lists")) "list"
      ["item", "head"] ["id"] = true := by
    cbv
  obtain ⟨s, hs, hshows⟩ := Schema.exists_of_hasNames hbuild
  have hresult : (compileCorpus lists (.string "lists") (.string "Lists")).result = .ok s := by
    rw [result_compileCorpus, show ingest lists = .ok listIndex from rfl]
    exact hs
  exact ⟨hids, hrearranged, s, hresult, hshows,
    exists_schema_of_isRearranged hids hrearranged hresult⟩

end Corpus

end MarkupGrammar
