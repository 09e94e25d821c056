import MarkupGrammar.Proofs.Corpus.Textual
import MarkupGrammar.Proofs.Grammar.Rearrangement

/-!
# Reading a corpus entry by entry

A corpus is read into an index, and what an entry adds could depend on those before it: a macro may
be written over another, an element is refused when it is there already, and a class gets its
members one after the other. When the entries of each collection have texts of their own for
identifiers, nothing of this happens but the last. Each entry is read by itself
(`Corpus.readTables`), and the index follows from what is read (`Corpus.Tables.index`).

## Main results

* `Corpus.addElement_eq` — a new element is read by itself
* `CorpusIndex.foldl_withElement` — the members that elements make classes have
* `Corpus.ingest_eq` — entries that are told apart are read one by one
-/

namespace MarkupGrammar

namespace Corpus

/-! ### What is read of an entry -/

/-- The macro of an entry, under its name. -/
def macroOf (entry : Json) : Except ReadError (Json × MacroDef Json) := do
  let name := identOf entry
  let documentation ← lift entry.description
  let raw ← lift (entry.get "content")
  let content ← Particle.read (contextOf "macro" name) raw
  let key ← nameKey name
  return (key, ⟨name, documentation, content⟩)

/-- The attribute class of an entry, under its name. -/
def attributeClassOf (entry : Json) : Except ReadError (Json × AttributeClass Json) := do
  let name := identOf entry
  let inherits ← lift (classRefs entry "atts")
  let attributes ← readAttributes (contextOf "class" name) entry
  let documentation ← lift entry.description
  let key ← nameKey name
  return (key, ⟨name, inherits, attributes, documentation⟩)

/-- The datatype of an entry, under its name. -/
def datatypeEntryOf (entry : Json) : Except ReadError (Json × Option Text) := do
  let documentation ← lift entry.description
  let key ← nameKey (identOf entry)
  return (key, documentation)

/-- The element of an entry, under its name. -/
def elementOf (entry : Json) : Except ReadError (Json × ElementDef Json) := do
  let name ← nameKey (identOf entry)
  let modelClasses ← lift (classRefs entry "model")
  let modelClasses ← modelClasses.mapM nameKey
  let documentation ← lift entry.description
  let attributeClasses ← lift (classRefs entry "atts")
  let attributes ← readAttributes (contextOf "element" name) entry
  let raw ← lift (entry.get "content")
  let content ← Particle.read (contextOf "element" name) raw
  return (name, ⟨name, documentation, attributeClasses, modelClasses, attributes, content⟩)

end Corpus

namespace CorpusIndex

variable (index : CorpusIndex Json)

/-- The index with a macro. -/
def withMacro (e : Json × MacroDef Json) : CorpusIndex Json :=
  { index with macros := index.macros.insert e.1 e.2 }

/-- The index with a model class, unless it is declared. -/
def withModelClass (c : Json) : CorpusIndex Json :=
  match index.modelClasses.find? c with
  | some _ => index
  | none => { index with modelClasses := index.modelClasses ++ [(c, [])] }

/-- The index with an attribute class. -/
def withAttributeClass (e : Json × AttributeClass Json) : CorpusIndex Json :=
  { index with attributeClasses := index.attributeClasses.insert e.1 e.2 }

/-- The index with a datatype. -/
def withDatatype (e : Json × Option Text) : CorpusIndex Json :=
  { index with datatypes := index.datatypes.insert e.1 e.2 }

/-- The index with an element, which is a member of the classes it names. -/
def withElement (e : Json × ElementDef Json) : CorpusIndex Json :=
  { index with
    modelClasses := e.2.modelClasses.foldl (fun t c => addMember e.1 c t) index.modelClasses
    elements := index.elements.insert e.1 e.2 }

end CorpusIndex

namespace Corpus

variable (index : CorpusIndex Json) (entry : Json)

theorem addMacro_eq :
    addMacro index entry = macroOf entry >>= fun e => pure (index.withMacro e) := by
  simp only [addMacro, macroOf, bind_assoc, pure_bind]
  rfl

theorem addModelClass_eq :
    addModelClass index entry
      = nameKey (identOf entry) >>= fun c => pure (index.withModelClass c) := by
  rw [addModelClass]
  refine congrArg _ (funext fun c => ?_)
  rw [CorpusIndex.withModelClass]
  cases index.modelClasses.find? c <;> rfl

theorem addAttributeClass_eq :
    addAttributeClass index entry
      = attributeClassOf entry >>= fun e => pure (index.withAttributeClass e) := by
  simp only [addAttributeClass, attributeClassOf, bind_assoc, pure_bind]
  rfl

theorem addDatatype_eq :
    addDatatype index entry = datatypeEntryOf entry >>= fun e => pure (index.withDatatype e) := by
  simp only [addDatatype, datatypeEntryOf, bind_assoc, pure_bind]
  rfl

theorem mapM_nameKey_eq {names keys : List Json} (h : names.mapM nameKey = .ok keys) :
    keys = names := by
  induction names generalizing keys with
  | nil => exact (Except.ok.inj h).symm
  | cons name names ih =>
    obtain ⟨key, rest, hkey, hrest, rfl⟩ := mapM_cons_eq_ok_iff.mp h
    rw [nameKey_eq hkey, ih hrest]

/-- An element that is not there yet is read by itself. -/
theorem addElement_eq (hnew : index.elements.find? (identOf entry) = none) :
    addElement index entry = elementOf entry >>= fun e => pure (index.withElement e) := by
  rw [addElement, elementOf]
  cases hname : nameKey (identOf entry) with
  | error e => rfl
  | ok name =>
    obtain rfl := nameKey_eq hname
    simp only [ok_bind, hnew, Option.isSome_none, Bool.false_eq_true, if_false]
    cases lift (classRefs entry "model") with
    | error e => rfl
    | ok modelClasses =>
      have hmembers : modelClasses.foldlM
          (fun members c => do return CorpusIndex.addMember (identOf entry) (← nameKey c) members)
          index.modelClasses
          = modelClasses.mapM nameKey >>= fun keys => pure (keys.foldl
              (fun members c => CorpusIndex.addMember (identOf entry) c members)
              index.modelClasses) :=
        foldlM_eq_mapM (fun members c => rfl) modelClasses index.modelClasses
      simp only [ok_bind]
      rw [hmembers]
      cases hkeys : modelClasses.mapM nameKey with
      | error e => rfl
      | ok keys =>
        obtain rfl := mapM_nameKey_eq hkeys
        simp only [ok_bind, bind_assoc, pure_bind]
        rfl

end Corpus

/-! ### What is made of the entries -/

namespace CorpusIndex

/-- The members that elements make a class have, in the order of the elements. -/
def membership (es : Table Json (ElementDef Json)) (c : Json) : List Json :=
  es.flatMap fun e => (e.2.modelClasses.filter (c == ·)).map fun _ => e.1

theorem foldl_addMember (name : Json) (cs : List Json) (t : Table Json (List Json)) :
    cs.foldl (fun t c => addMember name c t) t
      = t.map fun e => (e.1, e.2 ++ (cs.filter (e.1 == ·)).map fun _ => name) := by
  induction cs generalizing t with
  | nil => simp
  | cons c cs ih =>
    rw [List.foldl_cons, ih, addMember, List.map_map]
    refine List.map_congr_left fun e _ => ?_
    rw [Function.comp_apply, List.filter_cons]
    cases hc : e.1 == c <;> simp [hc]

variable (index : CorpusIndex Json)

theorem foldl_withMacro (es : Table Json (MacroDef Json)) :
    es.foldl withMacro index
      = { index with macros := es.foldl (fun t e => t.insert e.1 e.2) index.macros } := by
  induction es generalizing index with
  | nil => rfl
  | cons e es ih => exact ih (index.withMacro e)

theorem foldl_withAttributeClass (es : Table Json (AttributeClass Json)) :
    es.foldl withAttributeClass index
      = { index with
          attributeClasses := es.foldl (fun t e => t.insert e.1 e.2) index.attributeClasses } := by
  induction es generalizing index with
  | nil => rfl
  | cons e es ih => exact ih (index.withAttributeClass e)

theorem foldl_withDatatype (es : Table Json (Option Text)) :
    es.foldl withDatatype index
      = { index with datatypes := es.foldl (fun t e => t.insert e.1 e.2) index.datatypes } := by
  induction es generalizing index with
  | nil => rfl
  | cons e es ih => exact ih (index.withDatatype e)

/-- Classes that are told apart are declared one after the other. -/
theorem foldl_withModelClass {cs : List Json}
    (h : Table.Distinct (index.modelClasses ++ cs.map fun c => (c, []))) :
    cs.foldl withModelClass index
      = { index with modelClasses := index.modelClasses ++ cs.map fun c => (c, []) } := by
  induction cs generalizing index with
  | nil => simp
  | cons c cs ih =>
    have hnone : index.modelClasses.find? c = none := by
      cases hfind : index.modelClasses.find? c with
      | none => rfl
      | some members =>
        obtain ⟨k, hmem, hk⟩ := Table.exists_mem_beq_of_find? hfind
        have hne := (List.pairwise_append.mp h).2.2 _ hmem (c, []) List.mem_cons_self
        cases hne.symm.trans hk
    have hstep : index.withModelClass c
        = { index with modelClasses := index.modelClasses ++ [(c, [])] } := by
      rw [withModelClass, hnone]
    rw [List.foldl_cons, hstep, ih]
    · simp
    · simpa using h

/-- Elements are members of the classes they name, each in its turn. -/
theorem foldl_withElement (es : Table Json (ElementDef Json)) :
    es.foldl withElement index
      = { index with
          elements := es.foldl (fun t e => t.insert e.1 e.2) index.elements
          modelClasses := index.modelClasses.map fun e => (e.1, e.2 ++ membership es e.1) } := by
  induction es generalizing index with
  | nil => simp [membership]
  | cons e es ih =>
    rw [List.foldl_cons, ih]
    simp only [withElement, foldl_addMember, List.map_map, List.foldl_cons]
    simp [membership]

end CorpusIndex

/-! ### Collections -/

namespace Corpus

/-- The paths to the collections of a corpus. -/
def collections : List (List String) :=
  [["elements"], ["classes", "models"], ["classes", "attributes"], ["macros"], ["datatypes"]]

/-- A corpus that tells the entries of each collection apart by texts. -/
def IsIdentified (corpus : Json) : Prop :=
  ∀ path ∈ collections, ∀ entries, entriesAt corpus path = .ok entries →
    Label.AreDistinctTexts (entries.map identOf)

instance (corpus : Json) : Decidable (IsIdentified corpus) :=
  decidable_of_iff
    (∀ path ∈ collections,
      ∀ entries ∈ (entriesAt corpus path).toOption, Label.AreDistinctTexts (entries.map identOf))
    (forall₂_congr fun path _ => forall_congr' fun entries => by
      cases entriesAt corpus path <;> simp [Except.toOption, eq_comm])

/-! ### Reading entry by entry -/

/-- What is read of the entries of a corpus, collection by collection. -/
structure Tables where
  elements : Table Json (ElementDef Json)
  modelClasses : List Json
  attributeClasses : Table Json (AttributeClass Json)
  macros : Table Json (MacroDef Json)
  datatypes : Table Json (Option Text)

/-- The index of what is read. -/
def Tables.index (t : Tables) (title edition : Option Json) : CorpusIndex Json where
  title := title
  edition := edition
  elements := t.elements
  macros := t.macros
  modelClasses := t.modelClasses.map fun c => (c, CorpusIndex.membership t.elements c)
  attributeClasses := t.attributeClasses
  datatypes := t.datatypes

/-- Everything in the tables has a text of its own for a name. -/
structure Tables.IsTextual (t : Tables) : Prop where
  elements : t.elements.IsTextual
  modelClasses : Label.AreDistinctTexts t.modelClasses
  attributeClasses : t.attributeClasses.IsTextual
  macros : t.macros.IsTextual
  datatypes : t.datatypes.IsTextual

/-- Reads the entries of a corpus, each by itself. -/
def readTables (corpus : Json) : Except ReadError Tables := do
  let elements ← entriesAt corpus ["elements"]
  let modelClasses ← entriesAt corpus ["classes", "models"]
  let attributeClasses ← entriesAt corpus ["classes", "attributes"]
  let macros ← entriesAt corpus ["macros"]
  let datatypes ← entriesAt corpus ["datatypes"]
  let macros ← macros.mapM macroOf
  let modelClasses ← modelClasses.mapM fun entry => nameKey (identOf entry)
  let attributeClasses ← attributeClasses.mapM attributeClassOf
  let datatypes ← datatypes.mapM datatypeEntryOf
  let elements ← elements.mapM elementOf
  return { elements, modelClasses, attributeClasses, macros, datatypes }

/-- What is read of the entries of one collection, each by itself. -/
def Reads {α : Type} (corpus : Json) (path : List String) (read : Json → Except ReadError α)
    (read' : List α) : Prop :=
  ∃ entries, entriesAt corpus path = .ok entries ∧ entries.mapM read = .ok read'

/-- What is read of a corpus is read of its collections. -/
structure Tables.AreReadOf (corpus : Json) (t : Tables) : Prop where
  elements : Reads corpus ["elements"] elementOf t.elements
  modelClasses :
    Reads corpus ["classes", "models"] (fun entry => nameKey (identOf entry)) t.modelClasses
  attributeClasses : Reads corpus ["classes", "attributes"] attributeClassOf t.attributeClasses
  macros : Reads corpus ["macros"] macroOf t.macros
  datatypes : Reads corpus ["datatypes"] datatypeEntryOf t.datatypes

theorem readTables_eq_ok_iff {corpus : Json} {t : Tables} :
    readTables corpus = .ok t ↔ t.AreReadOf corpus := by
  rw [readTables]
  constructor
  · intro h
    obtain ⟨elements, helements, h⟩ := exists_of_bind_eq_ok h
    obtain ⟨modelClasses, hmodelClasses, h⟩ := exists_of_bind_eq_ok h
    obtain ⟨attributeClasses, hattributeClasses, h⟩ := exists_of_bind_eq_ok h
    obtain ⟨macros, hmacros, h⟩ := exists_of_bind_eq_ok h
    obtain ⟨datatypes, hdatatypes, h⟩ := exists_of_bind_eq_ok h
    obtain ⟨ms, hms, h⟩ := exists_of_bind_eq_ok h
    obtain ⟨cs, hcs, h⟩ := exists_of_bind_eq_ok h
    obtain ⟨as, has, h⟩ := exists_of_bind_eq_ok h
    obtain ⟨ds, hds, h⟩ := exists_of_bind_eq_ok h
    obtain ⟨es, hes, h⟩ := exists_of_bind_eq_ok h
    obtain rfl := Except.ok.inj h
    exact ⟨⟨elements, helements, hes⟩, ⟨modelClasses, hmodelClasses, hcs⟩,
      ⟨attributeClasses, hattributeClasses, has⟩, ⟨macros, hmacros, hms⟩,
      ⟨datatypes, hdatatypes, hds⟩⟩
  · rintro ⟨⟨elements, helements, hes⟩, ⟨modelClasses, hmodelClasses, hcs⟩,
      ⟨attributeClasses, hattributeClasses, has⟩, ⟨macros, hmacros, hms⟩,
      ⟨datatypes, hdatatypes, hds⟩⟩
    rw [helements, ok_bind, hmodelClasses, ok_bind, hattributeClasses, ok_bind, hmacros, ok_bind,
      hdatatypes, ok_bind, hms, ok_bind, hcs, ok_bind, has, ok_bind, hds, ok_bind, hes, ok_bind]
    rfl

section

variable {entry : Json}

theorem name_macroOf {e : Json × MacroDef Json} (h : macroOf entry = .ok e) :
    e.1 = identOf entry := by
  rw [macroOf] at h
  obtain ⟨documentation, -, h⟩ := exists_of_bind_eq_ok h
  obtain ⟨raw, -, h⟩ := exists_of_bind_eq_ok h
  obtain ⟨content, -, h⟩ := exists_of_bind_eq_ok h
  obtain ⟨key, hkey, h⟩ := exists_of_bind_eq_ok h
  obtain rfl := Except.ok.inj h
  exact nameKey_eq hkey

theorem name_attributeClassOf {e : Json × AttributeClass Json}
    (h : attributeClassOf entry = .ok e) : e.1 = identOf entry := by
  rw [attributeClassOf] at h
  obtain ⟨inherits, -, h⟩ := exists_of_bind_eq_ok h
  obtain ⟨attributes, -, h⟩ := exists_of_bind_eq_ok h
  obtain ⟨documentation, -, h⟩ := exists_of_bind_eq_ok h
  obtain ⟨key, hkey, h⟩ := exists_of_bind_eq_ok h
  obtain rfl := Except.ok.inj h
  exact nameKey_eq hkey

theorem name_datatypeEntryOf {e : Json × Option Text} (h : datatypeEntryOf entry = .ok e) :
    e.1 = identOf entry := by
  rw [datatypeEntryOf] at h
  obtain ⟨documentation, -, h⟩ := exists_of_bind_eq_ok h
  obtain ⟨key, hkey, h⟩ := exists_of_bind_eq_ok h
  obtain rfl := Except.ok.inj h
  exact nameKey_eq hkey

theorem name_elementOf {e : Json × ElementDef Json} (h : elementOf entry = .ok e) :
    e.1 = identOf entry := by
  rw [elementOf] at h
  obtain ⟨name, hname, h⟩ := exists_of_bind_eq_ok h
  obtain ⟨listed, -, h⟩ := exists_of_bind_eq_ok h
  obtain ⟨modelClasses, -, h⟩ := exists_of_bind_eq_ok h
  obtain ⟨documentation, -, h⟩ := exists_of_bind_eq_ok h
  obtain ⟨attributeClasses, -, h⟩ := exists_of_bind_eq_ok h
  obtain ⟨attributes, -, h⟩ := exists_of_bind_eq_ok h
  obtain ⟨raw, -, h⟩ := exists_of_bind_eq_ok h
  obtain ⟨content, -, h⟩ := exists_of_bind_eq_ok h
  obtain rfl := Except.ok.inj h
  exact nameKey_eq hname

end

/-- Elements that are told apart are read by themselves. -/
theorem foldlM_addElement {entries : List Json}
    (h : (entries.map identOf).Pairwise fun a b => (a == b) = false) (index : CorpusIndex Json)
    (hnew : ∀ entry ∈ entries, index.elements.find? (identOf entry) = none) :
    entries.foldlM addElement index
      = entries.mapM elementOf >>= fun es => pure (es.foldl CorpusIndex.withElement index) := by
  induction entries generalizing index with
  | nil => rfl
  | cons entry entries ih =>
    obtain ⟨hhead, htail⟩ := List.pairwise_cons.mp h
    rw [List.foldlM_cons, List.mapM_cons, addElement_eq _ _ (hnew entry List.mem_cons_self),
      bind_assoc, bind_assoc]
    cases he : elementOf entry with
    | error _ => rfl
    | ok e =>
      rw [ok_bind, ok_bind, pure_bind, ih htail, bind_assoc]
      · rfl
      · intro other hother
        refine Table.find?_insert_eq_none (hnew other (List.mem_cons_of_mem entry hother)) ?_
        rw [name_elementOf he]
        exact hhead _ (List.mem_map_of_mem hother)

section

variable {corpus : Json} (hids : IsIdentified corpus)

include hids

/-- What is read of a collection whose entries are told apart has their names. -/
theorem isTextual_of_reads {path : List String} (hpath : path ∈ collections) {α : Type}
    {read : Json → Except ReadError (Json × α)}
    (hread : ∀ {entry e}, read entry = .ok e → e.1 = identOf entry) {t : Table Json α}
    (h : Reads corpus path read t) : t.IsTextual := by
  obtain ⟨entries, hentries, h⟩ := h
  rw [Table.IsTextual, map_eq_of_mapM hread h]
  exact hids path hpath entries hentries

theorem areDistinctTexts_of_reads {path : List String} (hpath : path ∈ collections)
    {names : List Json} (h : Reads corpus path (fun entry => nameKey (identOf entry)) names) :
    Label.AreDistinctTexts names := by
  obtain ⟨entries, hentries, h⟩ := h
  have hnames : names.map id = entries.map identOf := map_eq_of_mapM nameKey_eq h
  rw [← List.map_id names, hnames]
  exact hids path hpath entries hentries

theorem Tables.AreReadOf.isTextual {t : Tables} (h : t.AreReadOf corpus) : t.IsTextual where
  elements := isTextual_of_reads hids (by simp [collections]) name_elementOf h.elements
  modelClasses := areDistinctTexts_of_reads hids (by simp [collections]) h.modelClasses
  attributeClasses :=
    isTextual_of_reads hids (by simp [collections]) name_attributeClassOf h.attributeClasses
  macros := isTextual_of_reads hids (by simp [collections]) name_macroOf h.macros
  datatypes := isTextual_of_reads hids (by simp [collections]) name_datatypeEntryOf h.datatypes

end

/-- **Entries that are told apart are read one by one,** and the index follows. -/
theorem ingest_eq {fields : List (Text × Json)} (hids : IsIdentified (.object fields)) :
    ingest (.object fields) = readTables (.object fields) >>= fun t =>
      pure (t.index ((Json.field? "title" (.object fields)).bind Json.nameOrNone)
        ((Json.field? "edition" (.object fields)).bind Json.nameOrNone)) := by
  rw [ingest, readTables]
  cases helements : entriesAt (.object fields) ["elements"] with
  | error _ => rfl
  | ok elements =>
  cases hmodelClasses : entriesAt (.object fields) ["classes", "models"] with
  | error _ => rfl
  | ok modelClasses =>
  cases hattributeClasses : entriesAt (.object fields) ["classes", "attributes"] with
  | error _ => rfl
  | ok attributeClasses =>
  cases hmacros : entriesAt (.object fields) ["macros"] with
  | error _ => rfl
  | ok macros =>
  cases hdatatypes : entriesAt (.object fields) ["datatypes"] with
  | error _ => rfl
  | ok datatypes =>
  simp only [ok_bind]
  rw [foldlM_eq_mapM addMacro_eq]
  cases hms : macros.mapM macroOf with
  | error _ => rfl
  | ok ms =>
  rw [ok_bind, ok_bind, pure_bind, foldlM_eq_mapM addModelClass_eq]
  cases hcs : modelClasses.mapM fun entry => nameKey (identOf entry) with
  | error _ => rfl
  | ok cs =>
  rw [ok_bind, ok_bind, pure_bind, foldlM_eq_mapM addAttributeClass_eq]
  cases has : attributeClasses.mapM attributeClassOf with
  | error _ => rfl
  | ok as =>
  rw [ok_bind, ok_bind, pure_bind, foldlM_eq_mapM addDatatype_eq]
  cases hds : datatypes.mapM datatypeEntryOf with
  | error _ => rfl
  | ok ds =>
  have hmacros := isTextual_of_reads hids (by simp [collections]) name_macroOf ⟨_, hmacros, hms⟩
  have hmodelClasses :=
    areDistinctTexts_of_reads hids (by simp [collections]) ⟨_, hmodelClasses, hcs⟩
  have hattributeClasses :=
    isTextual_of_reads hids (by simp [collections]) name_attributeClassOf
      ⟨_, hattributeClasses, has⟩
  have hdatatypes :=
    isTextual_of_reads hids (by simp [collections]) name_datatypeEntryOf ⟨_, hdatatypes, hds⟩
  have hdeclared : Table.Distinct (cs.map fun c => (c, ([] : List Json))) :=
    List.pairwise_map.mpr hmodelClasses.distinct
  have hnames := (hids _ (by simp [collections]) elements helements).distinct
  simp only [ok_bind, pure_bind]
  rw [CorpusIndex.foldl_withMacro, CorpusIndex.foldl_withModelClass _ (by simpa using hdeclared),
    CorpusIndex.foldl_withAttributeClass, CorpusIndex.foldl_withDatatype,
    foldlM_addElement hnames _ fun _ _ => rfl]
  cases hes : elements.mapM elementOf with
  | error _ => rfl
  | ok es =>
  have helements :=
    isTextual_of_reads hids (by simp [collections]) name_elementOf ⟨_, helements, hes⟩
  rw [ok_bind, ok_bind, pure_bind, CorpusIndex.foldl_withElement]
  simp only [List.nil_append, Table.foldl_insert hmacros.distinct,
    Table.foldl_insert hattributeClasses.distinct, Table.foldl_insert hdatatypes.distinct,
    Table.foldl_insert helements.distinct, List.map_map]
  rfl

end Corpus

end MarkupGrammar
