import MarkupGrammar.Corpus.Index
import MarkupGrammar.Proofs.Grammar.Table
import MarkupGrammar.Proofs.Reading

/-!
# An index is a dictionary

A corpus may list a name as often as it likes. Its index does not: entries are written under their
names, a class is declared once, and an element that is there already stops the reading. So whatever
a corpus holds, each collection of its index has every name at most once.

## Main results

* `ingest_isDictionary` — what is read from a corpus is a dictionary
-/

namespace MarkupGrammar

/-- No collection of the index has a name twice. -/
structure CorpusIndex.IsDictionary {Name : Type} [Label Name] (index : CorpusIndex Name) :
    Prop where
  elements : index.elements.Distinct
  macros : index.macros.Distinct
  modelClasses : index.modelClasses.Distinct
  attributeClasses : index.attributeClasses.Distinct
  datatypes : index.datatypes.Distinct

namespace Corpus

variable {index index' : CorpusIndex Json} {entry : Json}

theorem addMacro_isDictionary (hi : index.IsDictionary) (h : addMacro index entry = .ok index') :
    index'.IsDictionary := by
  unfold addMacro at h
  obtain ⟨documentation, -, h⟩ := exists_of_bind_eq_ok h
  obtain ⟨raw, -, h⟩ := exists_of_bind_eq_ok h
  obtain ⟨content, -, h⟩ := exists_of_bind_eq_ok h
  obtain ⟨key, -, h⟩ := exists_of_bind_eq_ok h
  obtain rfl := Except.ok.inj h
  exact { hi with macros := hi.macros.insert _ _ }

/-- A class is declared when its name is not found, and then it is under no other key. -/
theorem addModelClass_isDictionary (hi : index.IsDictionary)
    (h : addModelClass index entry = .ok index') : index'.IsDictionary := by
  unfold addModelClass at h
  obtain ⟨key, -, h⟩ := exists_of_bind_eq_ok h
  cases hfind : index.modelClasses.find? key with
  | some members =>
    rw [hfind] at h
    obtain rfl := Except.ok.inj h
    exact hi
  | none =>
    rw [hfind] at h
    obtain rfl := Except.ok.inj h
    refine { hi with modelClasses := ?_ }
    refine List.pairwise_append.mpr ⟨hi.modelClasses, List.pairwise_singleton _ _, ?_⟩
    intro e he f hf
    obtain rfl := List.mem_singleton.mp hf
    exact Table.beq_eq_false_of_find?_eq_none hfind e he

theorem addAttributeClass_isDictionary (hi : index.IsDictionary)
    (h : addAttributeClass index entry = .ok index') : index'.IsDictionary := by
  unfold addAttributeClass at h
  obtain ⟨inherits, -, h⟩ := exists_of_bind_eq_ok h
  obtain ⟨attributes, -, h⟩ := exists_of_bind_eq_ok h
  obtain ⟨documentation, -, h⟩ := exists_of_bind_eq_ok h
  obtain ⟨key, -, h⟩ := exists_of_bind_eq_ok h
  obtain rfl := Except.ok.inj h
  exact { hi with attributeClasses := hi.attributeClasses.insert _ _ }

theorem addDatatype_isDictionary (hi : index.IsDictionary)
    (h : addDatatype index entry = .ok index') : index'.IsDictionary := by
  unfold addDatatype at h
  obtain ⟨documentation, -, h⟩ := exists_of_bind_eq_ok h
  obtain ⟨key, -, h⟩ := exists_of_bind_eq_ok h
  obtain rfl := Except.ok.inj h
  exact { hi with datatypes := hi.datatypes.insert _ _ }

theorem addMember_distinct {classes : Table Json (List Json)} (h : classes.Distinct)
    (name modelClass : Json) : (CorpusIndex.addMember name modelClass classes).Distinct :=
  List.pairwise_map.mpr h

theorem addElement_isDictionary (hi : index.IsDictionary)
    (h : addElement index entry = .ok index') : index'.IsDictionary := by
  unfold addElement at h
  obtain ⟨name, -, h⟩ := exists_of_bind_eq_ok h
  cases hfind : (index.elements.find? name).isSome with
  | true =>
    rw [hfind] at h
    exact nomatch h
  | false =>
    rw [hfind] at h
    obtain ⟨modelClasses, -, h⟩ := exists_of_bind_eq_ok h
    obtain ⟨members, hmembers, h⟩ := exists_of_bind_eq_ok h
    obtain ⟨documentation, -, h⟩ := exists_of_bind_eq_ok h
    obtain ⟨attributeClasses, -, h⟩ := exists_of_bind_eq_ok h
    obtain ⟨attributes, -, h⟩ := exists_of_bind_eq_ok h
    obtain ⟨raw, -, h⟩ := exists_of_bind_eq_ok h
    obtain ⟨content, -, h⟩ := exists_of_bind_eq_ok h
    obtain rfl := Except.ok.inj h
    have hdistinct : Table.Distinct members := by
      refine foldlM_keeps (fun {classes c classes'} hclasses hc => ?_) hi.modelClasses hmembers
      obtain ⟨key, -, hc⟩ := exists_of_bind_eq_ok hc
      obtain rfl := Except.ok.inj hc
      exact addMember_distinct hclasses name key
    exact { hi with
      elements := hi.elements.insert _ _
      modelClasses := hdistinct }

/-- **What is read from a corpus is a dictionary,** in each of its collections and however often the
corpus lists a name. -/
theorem ingest_isDictionary {corpus : Json} (h : ingest corpus = .ok index) :
    index.IsDictionary := by
  unfold ingest at h
  cases corpus with
  | object fields =>
    obtain ⟨elements, -, h⟩ := exists_of_bind_eq_ok h
    obtain ⟨modelClasses, -, h⟩ := exists_of_bind_eq_ok h
    obtain ⟨attributeClasses, -, h⟩ := exists_of_bind_eq_ok h
    obtain ⟨macros, -, h⟩ := exists_of_bind_eq_ok h
    obtain ⟨datatypes, -, h⟩ := exists_of_bind_eq_ok h
    obtain ⟨withMacros, hmacros, h⟩ := exists_of_bind_eq_ok h
    obtain ⟨withClasses, hclasses, h⟩ := exists_of_bind_eq_ok h
    obtain ⟨withAttributes, hattributes, h⟩ := exists_of_bind_eq_ok h
    obtain ⟨withDatatypes, hdatatypes, h⟩ := exists_of_bind_eq_ok h
    have hempty : ∀ title edition : Option Json,
        CorpusIndex.IsDictionary ⟨title, edition, [], [], [], [], []⟩ := fun _ _ =>
      ⟨.nil, .nil, .nil, .nil, .nil⟩
    refine foldlM_keeps addElement_isDictionary ?_ h
    refine foldlM_keeps addDatatype_isDictionary ?_ hdatatypes
    refine foldlM_keeps addAttributeClass_isDictionary ?_ hattributes
    refine foldlM_keeps addModelClass_isDictionary ?_ hclasses
    exact foldlM_keeps addMacro_isDictionary (hempty _ _) hmacros
  | _ => cases h

end Corpus

end MarkupGrammar
