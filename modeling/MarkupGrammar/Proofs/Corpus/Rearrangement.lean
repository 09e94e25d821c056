import MarkupGrammar.Proofs.Corpus.Classes
import MarkupGrammar.Proofs.Corpus.Tables

/-!
# Collections in another order

When each entry of a corpus is read by itself, it does not matter in which order the collections
list their entries: what is read is the same, in that order. Tables by name hold the same then, and
only the members of a class show the order of the elements.

## Main results

* `Corpus.exists_readTables_of_isRearranged` — entries can be read in any order
* `Corpus.exists_ingest_of_isRearranged` — the index of a corpus in another order
-/

namespace MarkupGrammar

namespace Corpus

/-! ### Corpora in another order -/

/-- What a path of keys leads to. -/
def valueAt (corpus : Json) (path : List String) : Json :=
  path.foldl (fun v key => (v.field? key).getD .null) corpus

/-- The same value, or a list of the same entries in another order. -/
def SameEntries (v v' : Json) : Prop :=
  v' = v ∨ ∃ entries entries', v = .array entries ∧ v' = .array entries' ∧ entries'.Perm entries

/-- The second corpus lists the entries of each collection of the first, in any order. -/
structure IsRearranged (corpus corpus' : Json) : Prop where
  isObject : ∃ fields, corpus' = .object fields
  sameEntries : ∀ path ∈ collections, SameEntries (valueAt corpus path) (valueAt corpus' path)

/-- Whether a value is an entry that can be read. -/
def isEntry : Json → Bool
  | .object fields => !((Json.lookup (Text.ofString "ident") fields).getD .null).isVoid
  | _ => false

theorem checkEntries_eq_ok_iff {label : String} {entries : List Json} :
    checkEntries label entries = .ok entries ↔ ∀ entry ∈ entries, isEntry entry = true := by
  induction entries with
  | nil => exact ⟨fun _ entry hentry => (nomatch hentry), fun _ => rfl⟩
  | cons entry entries ih =>
    rw [List.forall_mem_cons, ← ih]
    cases entry with
    | object fields =>
      rw [checkEntries, isEntry]
      cases hvoid : ((Json.lookup (Text.ofString "ident") fields).getD .null).isVoid with
      | true => simp
      | false =>
        rw [if_neg (by simp)]
        constructor
        · intro h
          obtain ⟨rest, hrest, heq⟩ := exists_of_map_eq_ok h
          obtain rfl := (List.cons.inj heq).2
          exact ⟨rfl, hrest⟩
        · rintro ⟨-, h⟩
          rw [h]
          rfl
    | _ => simp [checkEntries, isEntry]

/-- The entries at a path are found in any order. -/
theorem exists_entriesAt_of_sameEntries {corpus corpus' : Json} {path : List String}
    (h : SameEntries (valueAt corpus path) (valueAt corpus' path)) {entries : List Json}
    (hentries : entriesAt corpus path = .ok entries) :
    ∃ entries', entriesAt corpus' path = .ok entries' ∧ entries'.Perm entries := by
  rw [entriesAt] at hentries ⊢
  rw [← valueAt] at hentries ⊢
  rcases h with heq | ⟨listed, listed', hlisted, hlisted', hperm⟩
  · rw [heq]
    exact ⟨entries, hentries, .refl _⟩
  · rw [hlisted] at hentries
    rw [hlisted']
    simp only at hentries ⊢
    obtain rfl := eq_of_checkEntries hentries
    refine ⟨listed', checkEntries_eq_ok_iff.mpr fun entry hentry => ?_, hperm⟩
    exact checkEntries_eq_ok_iff.mp hentries entry (hperm.mem_iff.mp hentry)

theorem SameEntries.symm {v v' : Json} (h : SameEntries v v') : SameEntries v' v := by
  rcases h with heq | ⟨entries, entries', hv, hv', hperm⟩
  · exact Or.inl heq.symm
  · exact Or.inr ⟨entries', entries, hv', hv, hperm.symm⟩

theorem IsRearranged.exists_entriesAt {corpus corpus' : Json} (h : IsRearranged corpus corpus')
    {path : List String} (hpath : path ∈ collections) {entries : List Json}
    (hentries : entriesAt corpus path = .ok entries) :
    ∃ entries', entriesAt corpus' path = .ok entries' ∧ entries'.Perm entries :=
  exists_entriesAt_of_sameEntries (h.sameEntries path hpath) hentries

theorem IsIdentified.of_isRearranged {corpus corpus' : Json} (hids : IsIdentified corpus)
    (h : IsRearranged corpus corpus') : IsIdentified corpus' := by
  intro path hpath entries' hentries'
  obtain ⟨entries, hentries, hperm⟩ :=
    exists_entriesAt_of_sameEntries (h.sameEntries path hpath).symm hentries'
  exact (hids path hpath entries hentries).perm (hperm.symm.map _)

/-- What is read of the entries, in another order. -/
structure Tables.IsRearranged (t t' : Tables) : Prop where
  elements : t'.elements.Perm t.elements
  modelClasses : t'.modelClasses.Perm t.modelClasses
  attributeClasses : t'.attributeClasses.Perm t.attributeClasses
  macros : t'.macros.Perm t.macros
  datatypes : t'.datatypes.Perm t.datatypes

/-- What is read of a collection is read of it in any order. -/
theorem Reads.exists_of_isRearranged {α : Type} {corpus corpus' : Json} {path : List String}
    {read : Json → Except ReadError α} {t : List α} (ht : Reads corpus path read t)
    (h : IsRearranged corpus corpus') (hpath : path ∈ collections) :
    ∃ t', Reads corpus' path read t' ∧ t'.Perm t := by
  obtain ⟨entries, hentries, ht⟩ := ht
  obtain ⟨entries', hentries', hperm⟩ := h.exists_entriesAt hpath hentries
  obtain ⟨t', ht', hperm'⟩ := exists_mapM_of_perm hperm ht
  exact ⟨t', ⟨entries', hentries', ht'⟩, hperm'⟩

/-- Of the same entries the same is read. -/
theorem Reads.eq_of_entriesAt_eq {α : Type} {corpus corpus' : Json} {path : List String}
    {read : Json → Except ReadError α} {t t' : List α} (ht : Reads corpus path read t)
    (ht' : Reads corpus' path read t') (h : entriesAt corpus' path = entriesAt corpus path) :
    t' = t := by
  obtain ⟨entries, hentries, ht⟩ := ht
  obtain ⟨entries', hentries', ht'⟩ := ht'
  rw [hentries', hentries] at h
  obtain rfl := Except.ok.inj h
  exact Except.ok.inj (ht'.symm.trans ht)

/-- **Entries can be read in any order.** Elements that are listed as before are read as before. -/
theorem exists_readTables_of_isRearranged {corpus corpus' : Json} (h : IsRearranged corpus corpus')
    {t : Tables} (ht : readTables corpus = .ok t) :
    ∃ t', readTables corpus' = .ok t' ∧ t.IsRearranged t' ∧
      (entriesAt corpus' ["elements"] = entriesAt corpus ["elements"] →
        t'.elements = t.elements) := by
  obtain ⟨helements, hmodelClasses, hattributeClasses, hmacros, hdatatypes⟩ :=
    readTables_eq_ok_iff.mp ht
  obtain ⟨es, hes, pes⟩ := helements.exists_of_isRearranged h (by simp [collections])
  obtain ⟨cs, hcs, pcs⟩ := hmodelClasses.exists_of_isRearranged h (by simp [collections])
  obtain ⟨as, has, pas⟩ := hattributeClasses.exists_of_isRearranged h (by simp [collections])
  obtain ⟨ms, hms, pms⟩ := hmacros.exists_of_isRearranged h (by simp [collections])
  obtain ⟨ds, hds, pds⟩ := hdatatypes.exists_of_isRearranged h (by simp [collections])
  exact ⟨⟨es, cs, as, ms, ds⟩, readTables_eq_ok_iff.mpr ⟨hes, hcs, has, hms, hds⟩,
    ⟨pes, pcs, pas, pms, pds⟩, helements.eq_of_entriesAt_eq hes⟩

section

variable {t : Tables} (ht : t.IsTextual) (title edition : Option Json) {c : Json}

include ht

theorem Tables.IsTextual.isTextual_modelClasses :
    (t.index title edition).modelClasses.IsTextual := by
  rw [Tables.index, Table.IsTextual, List.map_map]
  exact (List.map_id t.modelClasses).symm ▸ ht.modelClasses

/-- The members of a class that is declared are the elements that name it. -/
theorem Tables.IsTextual.membersOf_index (hc : c ∈ t.modelClasses) :
    (t.index title edition).membersOf c = CorpusIndex.membership t.elements c := by
  have hmem : (c, CorpusIndex.membership t.elements c) ∈ (t.index title edition).modelClasses :=
    List.mem_map_of_mem hc
  rw [CorpusIndex.membersOf,
    (ht.isTextual_modelClasses title edition).find?_eq_some_iff.mpr hmem, Option.getD_some]

theorem Tables.IsTextual.membersOf_index_of_not_mem (hc : c ∉ t.modelClasses) :
    (t.index title edition).membersOf c = [] := by
  rw [CorpusIndex.membersOf]
  cases hfind : (t.index title edition).modelClasses.find? c with
  | none => rfl
  | some members =>
    have hmem := (ht.isTextual_modelClasses title edition).find?_eq_some_iff.mp hfind
    obtain ⟨d, hd, heq⟩ := List.mem_map.mp hmem
    obtain rfl := (Prod.mk.inj heq).1
    exact absurd hd hc

end

/-- The members of a class in another order of the elements. -/
theorem areReordered_membership {es es' : Table Json (ElementDef Json)} (hes : es.IsTextual)
    (hperm : es'.Perm es) (c : Json) :
    Label.AreReordered (CorpusIndex.membership es c) (CorpusIndex.membership es' c) := by
  refine ⟨hperm.flatMap_right _, fun n hn => ?_⟩
  obtain ⟨e, he, hn⟩ := List.mem_flatMap.mp hn
  obtain ⟨-, -, rfl⟩ := List.mem_map.mp hn
  exact hes.keys e he

end Corpus

/-! ### Indices in another order -/

/-- An index with the entries of another in any order. Everything in it has a text of its own for a
name, and only the order of the elements shows: their classes list them in it. -/
structure CorpusIndex.IsRearranged (index index' : CorpusIndex Json) : Prop where
  elements : index.elements.IsTextual
  elements_perm : index'.elements.Perm index.elements
  macros : index.macros.IsTextual
  macros_perm : index'.macros.Perm index.macros
  attributeClasses : index.attributeClasses.IsTextual
  attributeClasses_perm : index'.attributeClasses.Perm index.attributeClasses
  membersOf : ∀ c, Label.AreReordered (index.membersOf c) (index'.membersOf c)

namespace Corpus

/-- **The index of a corpus whose collections are in another order.** Where the elements are listed
as before, they and the members of every class are as before. -/
theorem exists_ingest_of_isRearranged {corpus corpus' : Json} (hids : IsIdentified corpus)
    (h : IsRearranged corpus corpus') {index : CorpusIndex Json}
    (hindex : ingest corpus = .ok index) :
    ∃ index', ingest corpus' = .ok index' ∧ index.IsRearranged index' ∧
      (entriesAt corpus' ["elements"] = entriesAt corpus ["elements"] →
        index'.elements = index.elements ∧ index'.membersOf = index.membersOf) := by
  obtain ⟨fields', rfl⟩ := h.isObject
  cases corpus with
  | object fields =>
    rw [ingest_eq hids] at hindex
    obtain ⟨t, ht, hindex⟩ := exists_of_bind_eq_ok hindex
    obtain rfl := Except.ok.inj hindex
    obtain ⟨t', ht', hperm, hsame⟩ := exists_readTables_of_isRearranged h ht
    have htext := (readTables_eq_ok_iff.mp ht).isTextual hids
    have htext' := (readTables_eq_ok_iff.mp ht').isTextual (hids.of_isRearranged h)
    refine ⟨_, by rw [ingest_eq (hids.of_isRearranged h), ht']; rfl, ?_, fun helements => ?_⟩
    · refine ⟨htext.elements, hperm.elements, htext.macros, hperm.macros, htext.attributeClasses,
        hperm.attributeClasses, fun c => ?_⟩
      by_cases hc : c ∈ t.modelClasses
      · rw [htext.membersOf_index _ _ hc,
          htext'.membersOf_index _ _ (hperm.modelClasses.mem_iff.mpr hc)]
        exact areReordered_membership htext.elements hperm.elements c
      · rw [htext.membersOf_index_of_not_mem _ _ hc,
          htext'.membersOf_index_of_not_mem _ _ (mt hperm.modelClasses.mem_iff.mp hc)]
        exact ⟨.refl _, nofun⟩
    · refine ⟨hsame helements, funext fun c => ?_⟩
      by_cases hc : c ∈ t.modelClasses
      · rw [htext.membersOf_index _ _ hc,
          htext'.membersOf_index _ _ (hperm.modelClasses.mem_iff.mpr hc), hsame helements]
      · rw [htext.membersOf_index_of_not_mem _ _ hc,
          htext'.membersOf_index_of_not_mem _ _ (mt hperm.modelClasses.mem_iff.mp hc)]
  | _ => exact nomatch hindex

end Corpus

end MarkupGrammar
