import MarkupGrammar.Proofs.Corpus.Textual
import MarkupGrammar.Proofs.Grammar.Resolution
import MarkupGrammar.Proofs.Module.Lossless

/-!
# Corpora whose classes are named by texts

An entry of a corpus lists the attribute classes that it takes attributes from. The reading does not
look at what stands in that list, so an index may hold any value there; a schema has to look the
classes up, and fails on an array or an object. Where the lists hold texts, and all else is named by
texts too, nothing is left that cannot be looked up: a schema can be built of every index that is
read.

## Main results

* `ingest_hasTextualAttributes` — what is read of such a corpus names attributes and classes by texts
* `CorpusIndex.build_eq` — so a schema is built of it
-/

namespace MarkupGrammar

namespace Json

/-- Whether the attribute classes that an entry lists are named by texts. -/
def listsTextualClasses (entry : Json) : Bool :=
  match (entry.field? "classes").bind (field? "atts") with
  | some (.array classes) => classes.all fun c => c.text?.isSome
  | _ => true

/-- Whether a collection of a corpus lists attribute classes by texts in each of its entries. -/
def collectionListsTexts (corpus : Json) (path : List String) : Bool :=
  match path.foldl (fun (v : Json) key => (v.field? key).getD .null) corpus with
  | .array entries => entries.all listsTextualClasses
  | _ => true

/-- Whether a corpus lists attribute classes by texts. -/
def classesAreTexts (corpus : Json) : Bool :=
  corpus.collectionListsTexts ["elements"] && corpus.collectionListsTexts ["classes", "attributes"]

theorem eq_of_get_eq_ok {key : String} {v w : Json} (h : v.get key = .ok w) :
    w = (v.field? key).getD .null := by
  obtain ⟨fields, hfields, rfl⟩ := exists_of_map_eq_ok h
  cases v with
  | object fields' =>
    obtain rfl := Except.ok.inj hfields
    rfl
  | _ => exact nomatch hfields

end Json

/-! ### Lists in a corpus -/

namespace Corpus

/-- The items of a field are those of an array, or else they are texts. -/
theorem isText_or_eq_of_itemsOf {v : Json} {items : List Json} (h : itemsOf v = .ok items) :
    (∀ item ∈ items, Label.IsText item) ∨ v = .array items := by
  rw [itemsOf] at h
  split at h
  · obtain rfl := Except.ok.inj h
    exact Or.inl fun item hitem => nomatch hitem
  · cases v with
    | array items' => exact Or.inr (congrArg Json.array (Except.ok.inj h))
    | object fields =>
      obtain rfl := Except.ok.inj h
      refine Or.inl fun item hitem => ?_
      obtain ⟨⟨key, value⟩, -, rfl⟩ := List.mem_map.mp hitem
      exact ⟨key, rfl⟩
    | text t =>
      obtain rfl := Except.ok.inj h
      refine Or.inl fun item hitem => ?_
      obtain ⟨c, -, rfl⟩ := List.mem_map.mp hitem
      exact ⟨[c], rfl⟩
    | _ => exact nomatch h

/-- The classes of an entry that lists texts are texts. -/
theorem isText_classRefs {entry : Json} (hentry : entry.listsTextualClasses = true)
    {classes : List Json} (h : classRefs entry "atts" = .ok classes) :
    ∀ c ∈ classes, Label.IsText c := by
  rw [classRefs] at h
  obtain ⟨listed, hlisted, h⟩ := exists_of_bind_eq_ok h
  split at h
  · obtain rfl := Except.ok.inj h
    exact fun c hc => nomatch hc
  · next hvoid =>
    obtain ⟨raw, hraw, h⟩ := exists_of_bind_eq_ok h
    have hfound : entry.field? "classes" = some listed := by
      have heq := Json.eq_of_get_eq_ok hlisted
      cases hfield : entry.field? "classes" with
      | none =>
        rw [hfield] at heq
        exact absurd (heq ▸ rfl : listed.isVoid = true) hvoid
      | some classes => rw [heq, hfield]; rfl
    rcases isText_or_eq_of_itemsOf h with htext | harray
    · exact htext
    · have hatts : listed.field? "atts" = some (.array classes) := by
        have heq := Json.eq_of_get_eq_ok hraw
        cases hfield : listed.field? "atts" with
        | none =>
          rw [hfield, harray] at heq
          exact nomatch heq
        | some atts => rw [← harray, heq, hfield]; rfl
      rw [Json.listsTextualClasses, hfound, Option.bind_some, hatts] at hentry
      intro c hc
      obtain ⟨t, ht⟩ := Option.isSome_iff_exists.mp (List.all_eq_true.mp hentry c hc)
      cases c with
      | text t => exact ⟨t, rfl⟩
      | _ => exact nomatch ht

/-- The attribute of a definition in which names are texts has a text for its name. -/
theorem isText_readAttribute {context : Text} {definition : Json}
    (hdefinition : definition.namesAreTexts = true) {a : AttributeSpec Json}
    (h : readAttribute context definition = .ok a) : Label.IsText a.name := by
  rw [readAttribute] at h
  obtain ⟨name, hname, h⟩ := exists_of_bind_eq_ok h
  split at h
  · cases h
  · next hvoid =>
    obtain ⟨valueList, -, h⟩ := exists_of_bind_eq_ok h
    obtain ⟨listed, -, h⟩ := exists_of_bind_eq_ok h
    obtain ⟨datatype, -, h⟩ := exists_of_bind_eq_ok h
    obtain ⟨usage, -, h⟩ := exists_of_bind_eq_ok h
    obtain ⟨fallback, -, h⟩ := exists_of_bind_eq_ok h
    obtain ⟨documentation, -, h⟩ := exists_of_bind_eq_ok h
    obtain rfl := Except.ok.inj h
    refine Json.isText_of_isTextOrNull ?_ (Bool.eq_false_iff.mpr hvoid)
    rw [Json.eq_of_get_eq_ok (exists_of_lift_eq_ok hname)]
    exact Json.isTextOrNull_field hdefinition rfl

theorem isText_readAttributes {context : Text} {entry : Json} (hentry : entry.namesAreTexts = true)
    {attributes : List (AttributeSpec Json)} (h : readAttributes context entry = .ok attributes) :
    ∀ a ∈ attributes, Label.IsText a.name := by
  rw [readAttributes] at h
  obtain ⟨definitions, hdefinitions, h⟩ := exists_of_bind_eq_ok h
  obtain ⟨raw, hraw, hitems⟩ := exists_of_bind_eq_ok (exists_of_lift_eq_ok hdefinitions)
  have hnames : ∀ definition ∈ definitions, definition.namesAreTexts = true := by
    rcases isText_or_eq_of_itemsOf hitems with htext | harray
    · intro definition hdefinition
      obtain ⟨t, rfl⟩ := htext definition hdefinition
      rfl
    · have hfield := Json.namesAreTexts_field hentry "attributes"
      rw [← Json.eq_of_get_eq_ok hraw, harray] at hfield
      exact Json.forall_of_allNamesAreTexts hfield
  intro a ha
  obtain ⟨definition, hdefinition, ha⟩ := exists_of_mem_mapM h a ha
  exact isText_readAttribute (hnames definition hdefinition) ha

/-! ### The index -/

end Corpus

/-- What an index names by texts beside its elements: attributes, and the classes that elements and
other classes take attributes from. -/
structure CorpusIndex.HasTextualAttributes (index : CorpusIndex Json) : Prop where
  elements : ∀ e ∈ index.elements,
    (∀ c ∈ e.2.attributeClasses, Label.IsText c) ∧ ∀ a ∈ e.2.attributes, Label.IsText a.name
  attributeClasses : ∀ e ∈ index.attributeClasses,
    (∀ c ∈ e.2.inherits, Label.IsText c) ∧ ∀ a ∈ e.2.attributes, Label.IsText a.name

namespace Corpus

variable {index index' : CorpusIndex Json} {entry : Json}

theorem addMacro_hasTextualAttributes (hi : index.HasTextualAttributes)
    (h : addMacro index entry = .ok index') : index'.HasTextualAttributes := by
  unfold addMacro at h
  obtain ⟨documentation, -, h⟩ := exists_of_bind_eq_ok h
  obtain ⟨raw, -, h⟩ := exists_of_bind_eq_ok h
  obtain ⟨content, -, h⟩ := exists_of_bind_eq_ok h
  obtain ⟨key, -, h⟩ := exists_of_bind_eq_ok h
  obtain rfl := Except.ok.inj h
  exact { hi with }

theorem addModelClass_hasTextualAttributes (hi : index.HasTextualAttributes)
    (h : addModelClass index entry = .ok index') : index'.HasTextualAttributes := by
  unfold addModelClass at h
  obtain ⟨key, -, h⟩ := exists_of_bind_eq_ok h
  split at h
  · obtain rfl := Except.ok.inj h
    exact hi
  · obtain rfl := Except.ok.inj h
    exact { hi with }

theorem addDatatype_hasTextualAttributes (hi : index.HasTextualAttributes)
    (h : addDatatype index entry = .ok index') : index'.HasTextualAttributes := by
  unfold addDatatype at h
  obtain ⟨documentation, -, h⟩ := exists_of_bind_eq_ok h
  obtain ⟨key, -, h⟩ := exists_of_bind_eq_ok h
  obtain rfl := Except.ok.inj h
  exact { hi with }

/-- An entry of which the names are texts, and the attribute classes that it lists. -/
def HasTextualClasses (entry : Json) : Prop :=
  entry.namesAreTexts = true ∧ entry.listsTextualClasses = true

theorem addAttributeClass_hasTextualAttributes (hentry : HasTextualClasses entry)
    (hi : index.HasTextualAttributes) (h : addAttributeClass index entry = .ok index') :
    index'.HasTextualAttributes := by
  unfold addAttributeClass at h
  obtain ⟨inherits, hinherits, h⟩ := exists_of_bind_eq_ok h
  obtain ⟨attributes, hattributes, h⟩ := exists_of_bind_eq_ok h
  obtain ⟨documentation, -, h⟩ := exists_of_bind_eq_ok h
  obtain ⟨key, -, h⟩ := exists_of_bind_eq_ok h
  obtain rfl := Except.ok.inj h
  refine { hi with attributeClasses := fun e he => ?_ }
  rcases Table.mem_insert he with he | ⟨hvalue, -⟩
  · exact hi.attributeClasses e he
  · rw [hvalue]
    exact ⟨isText_classRefs hentry.2 (exists_of_lift_eq_ok hinherits),
      isText_readAttributes hentry.1 hattributes⟩

theorem addElement_hasTextualAttributes (hentry : HasTextualClasses entry)
    (hi : index.HasTextualAttributes) (h : addElement index entry = .ok index') :
    index'.HasTextualAttributes := by
  unfold addElement at h
  obtain ⟨name, -, h⟩ := exists_of_bind_eq_ok h
  cases hfind : (index.elements.find? name).isSome with
  | true =>
    rw [hfind] at h
    exact nomatch h
  | false =>
    rw [hfind] at h
    obtain ⟨modelClasses, -, h⟩ := exists_of_bind_eq_ok h
    obtain ⟨members, -, h⟩ := exists_of_bind_eq_ok h
    obtain ⟨documentation, -, h⟩ := exists_of_bind_eq_ok h
    obtain ⟨attributeClasses, hclasses, h⟩ := exists_of_bind_eq_ok h
    obtain ⟨attributes, hattributes, h⟩ := exists_of_bind_eq_ok h
    obtain ⟨raw, -, h⟩ := exists_of_bind_eq_ok h
    obtain ⟨content, -, h⟩ := exists_of_bind_eq_ok h
    obtain rfl := Except.ok.inj h
    refine { hi with elements := fun e he => ?_ }
    rcases Table.mem_insert he with he | ⟨hvalue, -⟩
    · exact hi.elements e he
    · rw [hvalue]
      exact ⟨isText_classRefs hentry.2 (exists_of_lift_eq_ok hclasses),
        isText_readAttributes hentry.1 hattributes⟩

theorem eq_of_checkEntries {label : String} {entries found : List Json}
    (h : checkEntries label entries = .ok found) : found = entries := by
  induction entries generalizing found with
  | nil => exact (Except.ok.inj h).symm
  | cons entry entries ih =>
    cases entry with
    | object fields =>
      rw [checkEntries] at h
      split at h
      · cases h
      · obtain ⟨rest, hrest, rfl⟩ := exists_of_map_eq_ok h
        rw [ih hrest]
    | _ => cases h

theorem hasTextualClasses_of_entriesAt {corpus : Json} (hcorpus : corpus.namesAreTexts = true)
    {path : List String} (hclasses : corpus.collectionListsTexts path = true) {found : List Json}
    (h : entriesAt corpus path = .ok found) : ∀ entry ∈ found, HasTextualClasses entry := by
  intro entry hentry
  refine ⟨(entries_of_entriesAt hcorpus h entry hentry).1, ?_⟩
  rw [entriesAt] at h
  rw [Json.collectionListsTexts] at hclasses
  split at h
  · obtain rfl := Except.ok.inj h
    exact absurd hentry List.not_mem_nil
  · next entries hentries =>
    obtain rfl := eq_of_checkEntries h
    rw [hentries] at hclasses
    exact List.all_eq_true.mp hclasses entry hentry
  · cases h

/-- **What is read of a corpus that lists classes by texts** names attributes and classes by
texts. -/
theorem ingest_hasTextualAttributes {corpus : Json} (hcorpus : corpus.namesAreTexts = true)
    (hclasses : corpus.classesAreTexts = true) (h : ingest corpus = .ok index) :
    index.HasTextualAttributes := by
  obtain ⟨helementClasses, hinheritance⟩ := Bool.and_eq_true_iff.mp hclasses
  unfold ingest at h
  cases corpus with
  | object fields =>
    obtain ⟨elements, helements, h⟩ := exists_of_bind_eq_ok h
    obtain ⟨modelClasses, -, h⟩ := exists_of_bind_eq_ok h
    obtain ⟨attributeClasses, hattributeClasses, h⟩ := exists_of_bind_eq_ok h
    obtain ⟨macros, -, h⟩ := exists_of_bind_eq_ok h
    obtain ⟨datatypes, -, h⟩ := exists_of_bind_eq_ok h
    obtain ⟨withMacros, hwithMacros, h⟩ := exists_of_bind_eq_ok h
    obtain ⟨withClasses, hwithClasses, h⟩ := exists_of_bind_eq_ok h
    obtain ⟨withAttributes, hwithAttributes, h⟩ := exists_of_bind_eq_ok h
    obtain ⟨withDatatypes, hwithDatatypes, h⟩ := exists_of_bind_eq_ok h
    have hempty : ∀ title edition : Option Json,
        CorpusIndex.HasTextualAttributes ⟨title, edition, [], [], [], [], []⟩ := fun _ _ =>
      ⟨nofun, nofun⟩
    refine foldlM_keeps_of_forall addElement_hasTextualAttributes
      (hasTextualClasses_of_entriesAt hcorpus helementClasses helements) ?_ h
    refine foldlM_keeps addDatatype_hasTextualAttributes ?_ hwithDatatypes
    refine foldlM_keeps_of_forall addAttributeClass_hasTextualAttributes
      (hasTextualClasses_of_entriesAt hcorpus hinheritance hattributeClasses) ?_ hwithAttributes
    refine foldlM_keeps addModelClass_hasTextualAttributes ?_ hwithClasses
    exact foldlM_keeps addMacro_hasTextualAttributes (hempty _ _) hwithMacros
  | _ => cases h

end Corpus

/-! ### The schema -/

namespace CorpusIndex

variable {index : CorpusIndex Json}

/-- A schema of such an index can be resolved. -/
theorem HasTextualAttributes.isTextual_toSchema (hi : index.HasTextualAttributes)
    (id name : Json) : (index.toSchema id name).IsTextual where
  own := by
    intro x hx
    obtain ⟨⟨key, d⟩, hmem, rfl⟩ := List.mem_map.mp hx
    exact (hi.elements _ hmem).2
  ofClass := by
    intro x hx
    obtain ⟨⟨key, c⟩, hmem, rfl⟩ := List.mem_map.mp hx
    exact (hi.attributeClasses _ hmem).2
  declared := by
    intro x hx
    obtain ⟨⟨key, d⟩, hmem, rfl⟩ := List.mem_map.mp hx
    rw [Schema.declaredClasses]
    split
    · next c cs hfind =>
      obtain ⟨k, hk⟩ := Table.exists_mem_of_find? hfind
      obtain ⟨⟨key', d'⟩, hmem', heq⟩ := List.mem_map.mp hk
      rw [← (Prod.mk.inj heq).2]
      exact (hi.elements _ hmem').1
    · exact (hi.elements _ hmem).1
  inherited := by
    intro x hx
    obtain ⟨⟨key, c⟩, hmem, rfl⟩ := List.mem_map.mp hx
    exact (hi.attributeClasses _ hmem).1

/-- **A schema is built** of every index whose names are texts. -/
theorem build_eq (hkept : index.IsKept) (hdictionary : index.IsDictionary)
    (hattributes : index.HasTextualAttributes) (id name : Json) :
    index.build id name = .ok (index.toSchema id name) := by
  have hs := hattributes.isTextual_toSchema id name
  have hindex : index.isUsable = true := by
    refine List.all_eq_true.mpr fun e he => ?_
    exact areUsable_expandAll (hkept.isTextual hdictionary) [] _ (hkept.elements e he).2.2.2.2
  have hschema : (index.toSchema id name).isUsable = true := by
    refine List.all_eq_true.mpr fun x hx => ?_
    have hdistinct : (index.toSchema id name).elements.Distinct :=
      List.pairwise_map.mpr hdictionary.elements
    obtain ⟨⟨key, d⟩, hmem, rfl⟩ := List.mem_map.mp hx
    have hfind : (index.toSchema id name).element? key = some (index.compileElement d) :=
      Table.find?_of_mem hdistinct (hkept.elements _ hmem).1 hx
    have hstorable := hkept.isStorable_compileElement hdictionary hmem
    refine Bool.and_eq_true_iff.mpr ⟨?_, Schema.canResolve_of_isTextual hs hfind⟩
    exact List.all_eq_true.mpr fun n hn => (hstorable.isWritable.isText_children n hn).isName
  rw [build, hindex, hschema]
  rfl

end CorpusIndex

end MarkupGrammar
