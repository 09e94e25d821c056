import MarkupGrammar.Proofs.Compile.Reachable
import MarkupGrammar.Proofs.Corpus.Dictionary
import MarkupGrammar.Proofs.Module.Content

/-!
# Corpora whose names are texts

A corpus names things under the keys `ident` and `key`, at any depth. When there is a text under
these keys wherever there is anything, then the index that is read of the corpus has texts for the
names of its elements and classes, and its particles refer to what they name by texts
(`CorpusIndex.IsKept`). The reading itself sees to the rest: no description is the empty text, and
nothing that an attribute says is null.

## Main results

* `Particle.isTextual_read` — particles refer by texts
* `Corpus.isStorable_readAttribute` — an attribute says nothing that a module would lose
* `Corpus.ingest_isKept` — what the index of such a corpus is like
-/

namespace MarkupGrammar

/-! ### Names in a corpus -/

namespace Json

/-- Whether the value is a text, or null in place of one. -/
def isTextOrNull : Json → Bool
  | .text _ => true
  | .null => true
  | _ => false

/-- Whether a key is one under which a corpus names something. -/
def isNameKey (key : Text) : Bool := key = Text.ofString "ident" || key = Text.ofString "key"

mutual

/-- Whether all that a value names is named by texts, however deep in it. -/
def namesAreTexts : Json → Bool
  | .array items => allNamesAreTexts items
  | .object fields => fieldsNameTexts fields
  | _ => true

/-- Whether all that the values of a list name is named by texts. -/
def allNamesAreTexts : List Json → Bool
  | [] => true
  | v :: vs => namesAreTexts v && allNamesAreTexts vs

/-- Whether all that some fields name is named by texts. -/
def fieldsNameTexts : List (Text × Json) → Bool
  | [] => true
  | (key, v) :: fields =>
    (!isNameKey key || v.isTextOrNull) && namesAreTexts v && fieldsNameTexts fields

end

theorem namesAreTexts_of_lookup {fields : List (Text × Json)} (h : fieldsNameTexts fields = true)
    {key : Text} {v : Json} (hv : lookup key fields = some v) :
    v.namesAreTexts = true ∧ (isNameKey key = true → v.isTextOrNull = true) := by
  induction fields with
  | nil => exact nomatch hv
  | cons e fields ih =>
    obtain ⟨k, w⟩ := e
    simp only [fieldsNameTexts, Bool.and_eq_true, Bool.or_eq_true, Bool.not_eq_true'] at h
    rw [lookup] at hv
    by_cases hk : k = key
    · rw [if_pos hk] at hv
      obtain rfl := Option.some.inj hv
      subst hk
      exact ⟨h.1.2, fun hname => h.1.1.resolve_left (by simp [hname])⟩
    · rw [if_neg hk] at hv
      exact ih h.2 hv

theorem forall_of_allNamesAreTexts {vs : List Json} (h : allNamesAreTexts vs = true) :
    ∀ v ∈ vs, v.namesAreTexts = true := by
  induction vs with
  | nil => exact fun v hv => nomatch hv
  | cons w vs ih =>
    rw [allNamesAreTexts, Bool.and_eq_true] at h
    exact List.forall_mem_cons.mpr ⟨h.1, ih h.2⟩

/-- The field of a value whose names are texts; it is null when it is not there. -/
theorem namesAreTexts_field {v : Json} (h : v.namesAreTexts = true) (key : String) :
    ((v.field? key).getD .null).namesAreTexts = true := by
  cases v with
  | object fields =>
    rw [field?]
    cases hfield : lookup (Text.ofString key) fields with
    | none => rfl
    | some w => exact (namesAreTexts_of_lookup h hfield).1
  | _ => rfl

theorem isTextOrNull_field {v : Json} (h : v.namesAreTexts = true) {key : String}
    (hkey : isNameKey (Text.ofString key) = true) :
    ((v.field? key).getD .null).isTextOrNull = true := by
  cases v with
  | object fields =>
    rw [field?]
    cases hfield : lookup (Text.ofString key) fields with
    | none => rfl
    | some w => exact (namesAreTexts_of_lookup h hfield).2 hkey
  | _ => rfl

theorem isText_of_isTextOrNull {v : Json} (h : v.isTextOrNull = true) (hvoid : v.isVoid = false) :
    Label.IsText v := by
  cases v with
  | text t => exact ⟨t, rfl⟩
  | null => exact nomatch hvoid
  | _ => exact nomatch h

end Json

/-! ### Particles -/

namespace Particle

theorem isText_nameOrNone {v : Json} (h : v.isTextOrNull = true) :
    ∀ k ∈ v.nameOrNone, Label.IsText k := by
  cases v with
  | text t =>
    intro k hk
    obtain rfl := Option.some.inj hk
    exact ⟨t, rfl⟩
  | null => exact fun k hk => nomatch hk
  | _ => exact nomatch h

mutual

theorem isTextual_readContent (context : Text) (raw : Json) (hraw : raw.namesAreTexts = true)
    {ps : List (Particle Json)} (h : readContent context raw = .ok ps) : ∀ p ∈ ps, p.IsTextual := by
  cases raw with
  | array entries =>
    rw [readContent] at h
    exact isTextual_readAll context entries hraw h
  | _ => cases h

theorem isTextual_readAll (context : Text) (entries : List Json)
    (hentries : Json.allNamesAreTexts entries = true) {ps : List (Particle Json)}
    (h : readAll context entries = .ok ps) : ∀ p ∈ ps, p.IsTextual := by
  cases entries with
  | nil =>
    obtain rfl := Except.ok.inj h
    exact fun p hp => nomatch hp
  | cons entry entries =>
    rw [readAll] at h
    obtain ⟨q, hq, h⟩ := exists_of_bind_eq_ok h
    obtain ⟨qs, hqs, h⟩ := exists_of_bind_eq_ok h
    obtain rfl := Except.ok.inj h
    rw [Json.allNamesAreTexts, Bool.and_eq_true] at hentries
    intro p hp
    rcases List.mem_cons.mp hp with rfl | hp
    · exact isTextual_readOne context entry hentries.1 hq
    · exact isTextual_readAll context entries hentries.2 hqs p hp

theorem isTextual_readOne (context : Text) (entry : Json) (hentry : entry.namesAreTexts = true)
    {p : Particle Json} (h : readOne context entry = .ok p) : p.IsTextual := by
  cases entry with
  | object fields =>
    rw [readOne] at h
    simp only at h
    split at h
    · obtain rfl := Except.ok.inj h
      exact .intro (fun hkind => nomatch hkind) fun q hq => nomatch hq
    · obtain ⟨bounds, -, h⟩ := exists_of_bind_eq_ok h
      obtain ⟨content, hcontent, h⟩ := exists_of_bind_eq_ok h
      obtain rfl := Except.ok.inj h
      refine .intro (fun _ => isText_nameOrNone ?_)
        (isTextual_readField context fields hentry hcontent)
      exact Json.isTextOrNull_field hentry rfl
  | _ => cases h

theorem isTextual_readField (context : Text) (fields : List (Text × Json))
    (hfields : Json.fieldsNameTexts fields = true) {ps : List (Particle Json)}
    (h : readField context fields = .ok ps) : ∀ p ∈ ps, p.IsTextual := by
  cases fields with
  | nil =>
    obtain rfl := Except.ok.inj h
    exact fun p hp => nomatch hp
  | cons e fields =>
    obtain ⟨key, value⟩ := e
    simp only [Json.fieldsNameTexts, Bool.and_eq_true] at hfields
    by_cases hkey : key = Text.ofString "content"
    · cases value with
      | null =>
        rw [readField, if_pos hkey] at h
        obtain rfl := Except.ok.inj h
        exact fun p hp => nomatch hp
      | _ =>
        simp only [readField, if_pos hkey] at h
        exact isTextual_readContent context _ hfields.1.2 h
    · have hskip : readField context ((key, value) :: fields) = readField context fields := by
        cases value <;> simp only [readField, if_neg hkey]
      rw [hskip] at h
      exact isTextual_readField context fields hfields.2 h

end

theorem isTextual_read {context : Text} {raw : Json} (hraw : raw.namesAreTexts = true)
    {content : Option (List (Particle Json))} (h : read context raw = .ok content) :
    ∀ p ∈ content.getD [], p.IsTextual := by
  cases raw with
  | null =>
    obtain rfl := Except.ok.inj h
    exact fun p hp => nomatch hp
  | _ =>
    simp only [read] at h
    obtain ⟨ps, hps, rfl⟩ := exists_of_map_eq_ok h
    exact isTextual_readContent context _ hraw hps

end Particle

/-! ### Descriptions and attributes -/

theorem Text.collapse_ne_nil {t u : Text} (h : collapse t = some u) : u ≠ [] := by
  rw [collapse] at h
  split at h
  · exact nomatch h
  · next hne =>
    obtain rfl := Option.some.inj h
    exact hne

namespace Json

/-- A description is not empty. -/
theorem ne_nil_of_collapsedField {key : String} {entry : Json} {t : Text}
    (h : entry.collapsedField key = .ok (some t)) : t ≠ [] := by
  rw [collapsedField] at h
  obtain ⟨v, -, h⟩ := exists_of_bind_eq_ok h
  split at h
  · exact nomatch Except.ok.inj h
  · cases v with
    | text u => exact Text.collapse_ne_nil (Except.ok.inj h)
    | _ => exact nomatch h

theorem ne_nil_of_description {entry : Json} {t : Text} (h : entry.description = .ok (some t)) :
    t ≠ [] := by
  rw [description] at h
  obtain ⟨short, hshort, h⟩ := exists_of_bind_eq_ok h
  cases short with
  | some u =>
    obtain rfl := Option.some.inj (Except.ok.inj h)
    exact ne_nil_of_collapsedField hshort
  | none =>
    obtain ⟨v, -, h⟩ := exists_of_bind_eq_ok h
    simp only at h
    split at h
    · next u _ =>
      have hprose : u.firstProse = some t := Except.ok.inj h
      rw [Text.firstProse] at hprose
      split at hprose
      · simp at hprose
      · exact Text.collapse_ne_nil hprose
    · exact absurd (Except.ok.inj h).symm (Option.some_ne_none t)

theorem unlessVoid_ne_null (v : Json) : v.unlessVoid ≠ some .null := by
  intro h
  rw [unlessVoid] at h
  split at h
  · simp at h
  · next hvoid =>
    obtain rfl := Option.some.inj h
    exact hvoid rfl

end Json

namespace Corpus

theorem exists_of_lift_eq_ok {α : Type} {r : Except Fault α} {a : α} (h : lift r = .ok a) :
    r = .ok a := by
  cases r with
  | error f => exact nomatch h
  | ok b => exact congrArg Except.ok (Except.ok.inj h)

theorem datatypeOf_ne_null {definition : Json} {datatype : Option Json}
    (h : datatypeOf definition = .ok datatype) : datatype ≠ some .null := by
  rw [datatypeOf] at h
  obtain ⟨v, -, h⟩ := exists_of_bind_eq_ok h
  split at h
  · obtain rfl := Except.ok.inj h
    exact nofun
  · obtain ⟨reference, -, h⟩ := exists_of_bind_eq_ok h
    split at h
    · obtain rfl := Except.ok.inj h
      exact nofun
    · obtain ⟨key, -, h⟩ := exists_of_bind_eq_ok h
      split at h
      · next hkey =>
        obtain rfl := Except.ok.inj h
        rintro hnull
        obtain rfl := Option.some.inj hnull
        exact nomatch hkey
      · obtain ⟨name, -, h⟩ := exists_of_bind_eq_ok h
        obtain rfl := Except.ok.inj h
        exact name.unlessVoid_ne_null

theorem isStorable_readAttribute {context : Text} {definition : Json} {a : AttributeSpec Json}
    (h : readAttribute context definition = .ok a) : a.IsStorable := by
  rw [readAttribute] at h
  obtain ⟨name, -, h⟩ := exists_of_bind_eq_ok h
  split at h
  · exact nomatch h
  · obtain ⟨valueList, -, h⟩ := exists_of_bind_eq_ok h
    obtain ⟨listed, -, h⟩ := exists_of_bind_eq_ok h
    obtain ⟨datatype, hdatatype, h⟩ := exists_of_bind_eq_ok h
    obtain ⟨usage, -, h⟩ := exists_of_bind_eq_ok h
    obtain ⟨fallback, -, h⟩ := exists_of_bind_eq_ok h
    obtain ⟨documentation, -, h⟩ := exists_of_bind_eq_ok h
    obtain rfl := Except.ok.inj h
    refine ⟨fallback.unlessVoid_ne_null, datatypeOf_ne_null (exists_of_lift_eq_ok hdatatype), ?_⟩
    cases documentation <;> exact nofun

theorem isStorable_readAttributes {context : Text} {entry : Json}
    {attributes : List (AttributeSpec Json)} (h : readAttributes context entry = .ok attributes) :
    ∀ a ∈ attributes, a.IsStorable := by
  rw [readAttributes] at h
  obtain ⟨definitions, -, h⟩ := exists_of_bind_eq_ok h
  exact forall_of_mapM_eq_ok isStorable_readAttribute h

/-! ### Entries -/

/-- The entries of a collection whose names are texts have texts for identifiers. -/
theorem entries_of_checkEntries {label : String} {entries found : List Json}
    (hentries : Json.allNamesAreTexts entries = true) (h : checkEntries label entries = .ok found) :
    ∀ entry ∈ found, entry.namesAreTexts = true ∧ Label.IsText (identOf entry) := by
  induction entries generalizing found with
  | nil =>
    obtain rfl := Except.ok.inj h
    exact fun entry hentry => nomatch hentry
  | cons entry entries ih =>
    rw [Json.allNamesAreTexts, Bool.and_eq_true] at hentries
    cases entry with
    | object fields =>
      rw [checkEntries] at h
      split at h
      · exact nomatch h
      · next hident =>
        obtain ⟨rest, hrest, rfl⟩ := exists_of_map_eq_ok h
        intro e he
        rcases List.mem_cons.mp he with rfl | he
        · refine ⟨hentries.1, Json.isText_of_isTextOrNull ?_ (Bool.eq_false_iff.mpr hident)⟩
          exact Json.isTextOrNull_field hentries.1 rfl
        · exact ih hentries.2 hrest e he
    | _ => exact nomatch h

theorem entries_of_entriesAt {corpus : Json} (hcorpus : corpus.namesAreTexts = true)
    {path : List String} {found : List Json} (h : entriesAt corpus path = .ok found) :
    ∀ entry ∈ found, entry.namesAreTexts = true ∧ Label.IsText (identOf entry) := by
  have hpath : ∀ (path : List String) (v : Json), v.namesAreTexts = true →
      (path.foldl (fun (v : Json) key => (v.field? key).getD .null) v).namesAreTexts = true := by
    intro path
    induction path with
    | nil => exact fun v hv => hv
    | cons key path ih => exact fun v hv => ih _ (Json.namesAreTexts_field hv key)
  have hfound := hpath path corpus hcorpus
  rw [entriesAt] at h
  split at h
  · obtain rfl := Except.ok.inj h
    exact fun entry hentry => nomatch hentry
  · next entries hentries =>
    rw [hentries] at hfound
    exact entries_of_checkEntries hfound h
  · exact nomatch h

end Corpus

/-! ### The index -/

/-- What an index keeps of a corpus whose names are texts. -/
structure CorpusIndex.IsKept (index : CorpusIndex Json) : Prop where
  elements : ∀ e ∈ index.elements, Label.IsText e.1 ∧ e.2.name = e.1 ∧ e.2.documentation ≠ some [] ∧
    (∀ a ∈ e.2.attributes, a.IsStorable) ∧ ∀ p ∈ e.2.content.getD [], p.IsTextual
  macros : ∀ e ∈ index.macros, ∀ p ∈ e.2.content.getD [], p.IsTextual
  members : ∀ e ∈ index.modelClasses, ∀ n ∈ e.2, Label.IsText n
  attributeClasses : ∀ e ∈ index.attributeClasses,
    Label.IsText e.1 ∧ ∀ a ∈ e.2.attributes, a.IsStorable

namespace Corpus

variable {index index' : CorpusIndex Json} {entry : Json}

/-- An entry of which the names are texts, its own among them. -/
def IsNamed (entry : Json) : Prop := entry.namesAreTexts = true ∧ Label.IsText (identOf entry)

theorem IsNamed.isTextual_read (hentry : IsNamed entry) {key : String} {raw : Json}
    (hraw : lift (entry.get key) = .ok raw) {context : Text}
    {content : Option (List (Particle Json))} (h : Particle.read context raw = .ok content) :
    ∀ p ∈ content.getD [], p.IsTextual := by
  refine Particle.isTextual_read ?_ h
  obtain ⟨fields, hfields, rfl⟩ := exists_of_map_eq_ok (exists_of_lift_eq_ok hraw)
  have hfield := Json.namesAreTexts_field hentry.1 key
  cases entry with
  | object fields' =>
    obtain rfl := Except.ok.inj hfields
    exact hfield
  | _ => exact nomatch hfields

theorem addMacro_isKept (hentry : IsNamed entry) (hi : index.IsKept)
    (h : addMacro index entry = .ok index') : index'.IsKept := by
  unfold addMacro at h
  obtain ⟨documentation, -, h⟩ := exists_of_bind_eq_ok h
  obtain ⟨raw, hraw, h⟩ := exists_of_bind_eq_ok h
  obtain ⟨content, hcontent, h⟩ := exists_of_bind_eq_ok h
  obtain ⟨key, -, h⟩ := exists_of_bind_eq_ok h
  obtain rfl := Except.ok.inj h
  refine { hi with macros := fun e he => ?_ }
  rcases Table.mem_insert he with he | ⟨hvalue, -⟩
  · exact hi.macros e he
  · rw [hvalue]
    exact hentry.isTextual_read hraw hcontent

theorem nameKey_eq {v key : Json} (h : nameKey v = .ok key) : key = v := by
  rw [nameKey] at h
  split at h
  · exact (Except.ok.inj h).symm
  · exact nomatch h

theorem addModelClass_isKept (hi : index.IsKept) (h : addModelClass index entry = .ok index') :
    index'.IsKept := by
  unfold addModelClass at h
  obtain ⟨key, -, h⟩ := exists_of_bind_eq_ok h
  split at h
  · obtain rfl := Except.ok.inj h
    exact hi
  · obtain rfl := Except.ok.inj h
    refine { hi with members := fun e he => ?_ }
    rcases List.mem_append.mp he with he | he
    · exact hi.members e he
    · obtain rfl := List.mem_singleton.mp he
      exact fun n hn => nomatch hn

theorem addAttributeClass_isKept (hentry : IsNamed entry) (hi : index.IsKept)
    (h : addAttributeClass index entry = .ok index') : index'.IsKept := by
  unfold addAttributeClass at h
  obtain ⟨inherits, -, h⟩ := exists_of_bind_eq_ok h
  obtain ⟨attributes, hattributes, h⟩ := exists_of_bind_eq_ok h
  obtain ⟨documentation, -, h⟩ := exists_of_bind_eq_ok h
  obtain ⟨key, hkey, h⟩ := exists_of_bind_eq_ok h
  obtain rfl := nameKey_eq hkey
  obtain rfl := Except.ok.inj h
  refine { hi with attributeClasses := fun e he => ?_ }
  rcases Table.mem_insert he with he | ⟨hvalue, hname⟩
  · exact hi.attributeClasses e he
  · refine ⟨?_, hvalue ▸ isStorable_readAttributes hattributes⟩
    rcases hname with hname | ⟨v, hv⟩
    · rw [hname]
      exact hentry.2
    · exact (hi.attributeClasses _ hv).1

theorem addDatatype_isKept (hi : index.IsKept) (h : addDatatype index entry = .ok index') :
    index'.IsKept := by
  unfold addDatatype at h
  obtain ⟨documentation, -, h⟩ := exists_of_bind_eq_ok h
  obtain ⟨key, -, h⟩ := exists_of_bind_eq_ok h
  obtain rfl := Except.ok.inj h
  exact { hi with }

theorem isText_addMember {name modelClass : Json} (hname : Label.IsText name)
    {classes : Table Json (List Json)} (h : ∀ e ∈ classes, ∀ n ∈ e.2, Label.IsText n) :
    ∀ e ∈ CorpusIndex.addMember name modelClass classes, ∀ n ∈ e.2, Label.IsText n := by
  intro e he n hn
  obtain ⟨⟨k, members⟩, hmembers, rfl⟩ := List.mem_map.mp he
  simp only at hn
  split at hn
  · rcases List.mem_append.mp hn with hn | hn
    · exact h _ hmembers n hn
    · rw [List.mem_singleton.mp hn]
      exact hname
  · exact h _ hmembers n hn

theorem addElement_isKept (hentry : IsNamed entry) (hi : index.IsKept)
    (h : addElement index entry = .ok index') : index'.IsKept := by
  unfold addElement at h
  obtain ⟨name, hname, h⟩ := exists_of_bind_eq_ok h
  obtain rfl := nameKey_eq hname
  cases hfind : index.elements.find? (identOf entry) with
  | some d =>
    rw [hfind] at h
    exact nomatch h
  | none =>
    rw [hfind] at h
    obtain ⟨modelClasses, -, h⟩ := exists_of_bind_eq_ok h
    obtain ⟨members, hmembers, h⟩ := exists_of_bind_eq_ok h
    obtain ⟨documentation, hdocumentation, h⟩ := exists_of_bind_eq_ok h
    obtain ⟨attributeClasses, -, h⟩ := exists_of_bind_eq_ok h
    obtain ⟨attributes, hattributes, h⟩ := exists_of_bind_eq_ok h
    obtain ⟨raw, hraw, h⟩ := exists_of_bind_eq_ok h
    obtain ⟨content, hcontent, h⟩ := exists_of_bind_eq_ok h
    obtain rfl := Except.ok.inj h
    refine { hi with elements := fun e he => ?_, members := ?_ }
    · rw [Table.insert_of_new (Table.beq_eq_false_of_find?_eq_none hfind)] at he
      rcases List.mem_append.mp he with he | he
      · exact hi.elements e he
      · obtain rfl := List.mem_singleton.mp he
        refine ⟨hentry.2, rfl, ?_, isStorable_readAttributes hattributes,
          hentry.isTextual_read hraw hcontent⟩
        rintro hempty
        obtain rfl : documentation = some [] := hempty
        exact Json.ne_nil_of_description (exists_of_lift_eq_ok hdocumentation) rfl
    · refine foldlM_keeps (p := fun classes : Table Json (List Json) =>
        ∀ e ∈ classes, ∀ n ∈ e.2, Label.IsText n)
        (fun {classes c classes'} hclasses hc => ?_) hi.members hmembers
      obtain ⟨key, -, hc⟩ := exists_of_bind_eq_ok hc
      obtain rfl := Except.ok.inj hc
      exact isText_addMember hentry.2 hclasses

/-- **What an index keeps of a corpus whose names are texts.** -/
theorem ingest_isKept {corpus : Json} (hcorpus : corpus.namesAreTexts = true)
    (h : ingest corpus = .ok index) : index.IsKept := by
  unfold ingest at h
  cases corpus with
  | object fields =>
    obtain ⟨elements, helements, h⟩ := exists_of_bind_eq_ok h
    obtain ⟨modelClasses, -, h⟩ := exists_of_bind_eq_ok h
    obtain ⟨attributeClasses, hclasses, h⟩ := exists_of_bind_eq_ok h
    obtain ⟨macros, hmacros, h⟩ := exists_of_bind_eq_ok h
    obtain ⟨datatypes, -, h⟩ := exists_of_bind_eq_ok h
    obtain ⟨withMacros, hwithMacros, h⟩ := exists_of_bind_eq_ok h
    obtain ⟨withClasses, hwithClasses, h⟩ := exists_of_bind_eq_ok h
    obtain ⟨withAttributes, hwithAttributes, h⟩ := exists_of_bind_eq_ok h
    obtain ⟨withDatatypes, hwithDatatypes, h⟩ := exists_of_bind_eq_ok h
    have hempty : ∀ title edition : Option Json,
        CorpusIndex.IsKept ⟨title, edition, [], [], [], [], []⟩ := fun _ _ =>
      ⟨nofun, nofun, nofun, nofun⟩
    refine foldlM_keeps_of_forall addElement_isKept (entries_of_entriesAt hcorpus helements) ?_ h
    refine foldlM_keeps addDatatype_isKept ?_ hwithDatatypes
    refine foldlM_keeps_of_forall addAttributeClass_isKept
      (entries_of_entriesAt hcorpus hclasses) ?_ hwithAttributes
    refine foldlM_keeps addModelClass_isKept ?_ hwithClasses
    exact foldlM_keeps_of_forall addMacro_isKept (entries_of_entriesAt hcorpus hmacros)
      (hempty _ _) hwithMacros
  | _ => cases h

end Corpus

end MarkupGrammar
