import MarkupGrammar.Library.Registry
import MarkupGrammar.Proofs.Json.Name
import MarkupGrammar.Proofs.Library.Action
import MarkupGrammar.Proofs.Module.Lossless

/-!
# What a registry keeps

A registry changes in one way only: a schema is registered, under its own identifier and with a
number that no schema has had before. So its keys stay names, each of them the identifier of the
schema under it, and no two of them the same.

A schema that is asked for is the one that is registered, or it is supplied and registered now. What
is compiled has the identifier that was asked for. What is read from a module has the identifier
that the module says, which nobody compares with the one asked for.

## Main results

* `Registry.IsConsistent.add` — registering keeps a registry consistent
* `Registry.find?_add` — what is found after a schema has been registered
* `Registry.cases_of_perform_findOrAdd` — all that can come of asking for a schema
* `Registry.get_eq`, `Registry.importGrammar_eq` — both ways of asking are of this kind
* `Registry.cases_of_perform_provide` — what is provided when a schema is not registered
-/

namespace MarkupGrammar

namespace Registry

variable {r : Registry}

/-! ### Registering -/

/-- The entry that a schema gets when it is registered. -/
def entryFor (r : Registry) (s : Schema Json) : RegisteredSchema := ⟨r.registered, s⟩

/-- The registry with one more schema. -/
def add (r : Registry) (s : Schema Json) : Registry :=
  { r with
    schemas := r.schemas.insert s.id (r.entryFor s)
    registered := r.registered + 1 }

/-- The record that is made of a schema being registered. -/
def noteOf (s : Schema Json) : LogRecord :=
  .sentence .debug (Text.ofString "Registered schema " ++ s.id.plain
    ++ Text.ofString (" (" ++ toString s.elements.length ++ " elements)"))

/-- A schema whose identifier is a name is registered, and any other is refused. -/
theorem perform_register (r : Registry) (s : Schema Json) (w : World) :
    (r.register s).perform w =
      if s.id.isName = true then
        (.ok (r.entryFor s, r.add s), { w with log := w.log ++ [noteOf s] })
      else (.error (.ofFault .wrongKind), w) := by
  rw [register]
  cases s.id.isName <;> rfl

/-- A registry in order. Every key is a name, is the identifier of the schema under it, and is there
once, and the numbers of schemas have been given out. -/
structure IsConsistent (r : Registry) : Prop where
  names : ∀ e ∈ r.schemas, e.1.isName = true
  ids : ∀ e ∈ r.schemas, e.2.schema.id.isName = true ∧ (e.1 == e.2.schema.id) = true
  distinct : r.schemas.Distinct
  numbers : ∀ e ∈ r.schemas, e.2.number < r.registered

theorem isConsistent_start (corpusPath compiledDir : Path) :
    (start corpusPath compiledDir).IsConsistent where
  names _ he := nomatch he
  ids _ he := nomatch he
  distinct := List.Pairwise.nil
  numbers _ he := nomatch he

/-- **Registering keeps a registry consistent.** -/
theorem IsConsistent.add (h : r.IsConsistent) {s : Schema Json} (hs : s.id.isName = true) :
    (r.add s).IsConsistent where
  names := Table.forall_mem_insert h.names hs fun e he _ => h.names e he
  ids := Table.forall_mem_insert h.ids ⟨hs, Json.beq_self_of_isName hs⟩ fun _ _ hkey => ⟨hs, hkey⟩
  distinct := h.distinct.insert _ _
  numbers := Table.forall_mem_insert (fun e he => Nat.lt_succ_of_lt (h.numbers e he))
    (Nat.lt_succ_self _) fun _ _ _ => Nat.lt_succ_self _

/-- **What is found after a schema has been registered.** -/
theorem find?_add (h : r.IsConsistent) {s : Schema Json} (hs : s.id.isName = true) {id : Json}
    (hid : id.isName = true) :
    (r.add s).schemas.find? id
      = if s.id == id then some (r.entryFor s) else r.schemas.find? id :=
  Table.find?_insert_of_areNames h.names hs hid _

theorem find?_add_self (h : r.IsConsistent) {s : Schema Json} (hs : s.id.isName = true) :
    (r.add s).schemas.find? s.id = some (r.entryFor s) := by
  rw [find?_add h hs hs, if_pos (Json.beq_self_of_isName hs)]

/-- What is found under an identifier has it. -/
theorem IsConsistent.beq_of_find? (h : r.IsConsistent) {id : Json} (hid : id.isName = true)
    {e : RegisteredSchema} (he : r.schemas.find? id = some e) :
    e.schema.id.isName = true ∧ (e.schema.id == id) = true := by
  obtain ⟨k, hmem, hk⟩ := Table.exists_mem_beq_of_find? he
  obtain ⟨hname, hsame⟩ := h.ids _ hmem
  refine ⟨hname, ?_⟩
  rw [← Json.beq_congr_of_isName (h.names _ hmem) hname hid hsame]
  exact hk

/-! ### Schemas that are compiled -/

theorem id_of_compileCorpus {corpus id name : Json} {s : Schema Json}
    (h : (compileCorpus corpus id name).result = .ok s) : s.id = id := by
  rw [result_compileCorpus] at h
  cases hindex : Corpus.ingest corpus with
  | error e =>
    rw [hindex] at h
    cases h
  | ok index =>
    rw [hindex] at h
    replace h : index.build id name = .ok s := h
    rw [CorpusIndex.build] at h
    split at h
    · rw [← Except.ok.inj h]
      rfl
    · cases h

/-- What is compiled has the identifier that it is compiled for. -/
theorem id_of_perform_compile {id name : Json} {s : Schema Json} {w w' : World}
    (h : (r.compile id name).perform w = (.ok s, w')) : s.id = id := by
  rw [compile] at h
  obtain ⟨e, -, he⟩ | ⟨corpus, w₁, -, h⟩ := Action.cases_of_perform_bind h
  · exact nomatch he
  obtain ⟨e, -, he⟩ | ⟨s', w₂, hs', h⟩ := Action.cases_of_perform_bind h
  · exact nomatch he
  obtain ⟨e, -, he⟩ | ⟨_, w₃, -, h⟩ := Action.cases_of_perform_bind h
  · exact nomatch he
  obtain ⟨e, -, he⟩ | ⟨_, w₄, -, h⟩ := Action.cases_of_perform_bind h
  · exact nomatch he
  obtain rfl : s' = s := Except.ok.inj (Prod.mk.inj h).1
  rw [Action.perform_ofLogged] at hs'
  cases hresult : (compileCorpus corpus id name).result with
  | error e =>
    rw [hresult] at hs'
    exact nomatch (Prod.mk.inj hs').1
  | ok s =>
    rw [hresult] at hs'
    obtain rfl := Except.ok.inj (Prod.mk.inj hs').1
    exact id_of_compileCorpus hresult

/-! ### Asking for a schema -/

/-- The schema that is registered under an identifier, and else one that is made and registered
now. -/
def findOrAdd (r : Registry) (id : Json) (make : Action (Schema Json)) :
    Action (RegisteredSchema × Registry) :=
  match r.schemas.find? id with
  | some entry => return (entry, r)
  | none => make >>= r.register

theorem perform_findOrAdd_of_find? {id : Json} {entry : RegisteredSchema}
    (h : r.schemas.find? id = some entry) (make : Action (Schema Json)) (w : World) :
    (r.findOrAdd id make).perform w = (.ok (entry, r), w) := by
  rw [findOrAdd, h]
  rfl

/-- **All that can come of asking for a schema.** It fails; or it gives the schema that is
registered, and nothing changes; or a schema is made and registered. -/
theorem cases_of_perform_findOrAdd {id : Json} {make : Action (Schema Json)} {w w' : World}
    {result : Except AccessError (RegisteredSchema × Registry)}
    (h : (r.findOrAdd id make).perform w = (result, w')) :
    (∃ e, result = .error e) ∨
      (∃ entry, r.schemas.find? id = some entry ∧ result = .ok (entry, r) ∧ w' = w) ∨
      r.schemas.find? id = none ∧ ∃ s w₁, make.perform w = (.ok s, w₁) ∧ s.id.isName = true ∧
        result = .ok (r.entryFor s, r.add s) ∧ w' = { w₁ with log := w₁.log ++ [noteOf s] } := by
  cases hfind : r.schemas.find? id with
  | some entry =>
    rw [perform_findOrAdd_of_find? hfind] at h
    obtain ⟨rfl, rfl⟩ := Prod.mk.inj h
    exact Or.inr (Or.inl ⟨entry, rfl, rfl, rfl⟩)
  | none =>
    rw [findOrAdd, hfind] at h
    obtain ⟨e, -, rfl⟩ | ⟨s, w₁, hs, h⟩ := Action.cases_of_perform_bind h
    · exact Or.inl ⟨e, rfl⟩
    rw [perform_register] at h
    split at h
    · next hid =>
      obtain ⟨rfl, rfl⟩ := Prod.mk.inj h
      exact Or.inr (Or.inr ⟨rfl, s, w₁, hs, hid, rfl, rfl⟩)
    · obtain ⟨rfl, rfl⟩ := Prod.mk.inj h
      exact Or.inl ⟨_, rfl⟩

/-! ### Schemas of module files -/

/-- The schema that a module file holds. -/
def moduleIn (path : Path) (files : FileTree) : Except AccessError (Schema Json) :=
  match files.read path with
  | .error problem => .error (.file problem path)
  | .ok content =>
    match Json.parse content with
    | .error e => .error (.ofFault (.ofJson e))
    | .ok v => (Module.load v).mapError .read

/-- Reading a module gives what its file holds, and adds to the log only. -/
theorem perform_readModule (path : Path) (w : World) :
    ∃ log, (readModule path).perform w = (moduleIn path w.files, { w with log }) := by
  rw [readModule, Action.perform_bind_of_ok (Action.perform_inform _ w), ModuleFile.read, moduleIn]
  have hread := Action.perform_readFile path
    { w with log := w.log ++ [.sentence .info
      (Text.ofString "Reading compiled schema " ++ path.toText)] }
  cases hcontent : w.files.read path with
  | error problem =>
    rw [hcontent] at hread
    exact ⟨_, Action.perform_bind_of_error hread _⟩
  | ok content =>
    rw [hcontent] at hread
    rw [Action.perform_bind_of_ok hread]
    cases hparse : Json.parse content with
    | error e =>
      simp only [hparse]
      exact ⟨_, rfl⟩
    | ok v =>
      simp only [hparse]
      cases Module.load v <;> exact ⟨_, rfl⟩

/-! ### Schemas that are built in -/

/-- A schema that is built in and not registered: read from its module, if there is one, and else
compiled. -/
def supply (r : Registry) (id name : Json) : Action (Schema Json) := do
  if ← Action.has (r.modulePath id) then readModule (r.modulePath id) else r.compile id name

/-- A schema that is not registered, if it is built in. -/
def provide (r : Registry) (id : Json) : Action (Schema Json) :=
  match builtin.find? id with
  | none => throw (.unknownSchema id)
  | some name => r.supply id name

/-- What can be looked up is found, or else provided and registered. -/
theorem get_eq (r : Registry) (id : Json) :
    r.get id =
      if id.isName = true then r.findOrAdd id (r.provide id) else throw (.ofFault .wrongKind) := by
  rw [get, findOrAdd, provide]
  cases id.isName with
  | false => rfl
  | true =>
    cases r.schemas.find? id with
    | some entry => rfl
    | none =>
      cases builtin.find? id with
      | none => rfl
      | some name =>
        simp only [supply, bind_assoc]
        refine bind_congr fun isThere => ?_
        cases isThere <;> rfl

/-- A schema that is provided is built in. It has the identifier that was asked for, or else it is
the one in the module file that is there. -/
theorem cases_of_perform_provide {id : Json} {s : Schema Json} {w w' : World}
    (h : (r.provide id).perform w = (.ok s, w')) :
    (builtin.find? id).isSome = true ∧
      (s.id = id ∨
        w.files.has (r.modulePath id) = .ok true ∧ moduleIn (r.modulePath id) w.files = .ok s ∧
          w'.files = w.files) := by
  rw [provide] at h
  cases hbuiltin : builtin.find? id with
  | none =>
    rw [hbuiltin] at h
    exact nomatch (Prod.mk.inj h).1
  | some name =>
    rw [hbuiltin] at h
    replace h : (r.supply id name).perform w = (.ok s, w') := h
    rw [supply] at h
    obtain ⟨e, -, he⟩ | ⟨isThere, w₁, hthere, h⟩ := Action.cases_of_perform_bind h
    · exact nomatch he
    rw [Action.perform_has] at hthere
    obtain ⟨hresult, rfl⟩ := Prod.mk.inj hthere
    cases isThere with
    | false => exact ⟨rfl, Or.inl (id_of_perform_compile h)⟩
    | true =>
      obtain ⟨log, hread⟩ := perform_readModule (r.modulePath id) w
      obtain ⟨hmodule, rfl⟩ := Prod.mk.inj (hread.symm.trans h)
      exact ⟨rfl, Or.inr ⟨ok_of_mapError hresult, hmodule, rfl⟩⟩

/-! ### Grammars that are imported -/

/-- The identifier under which a grammar is imported. -/
def customId (name : Json) : Json := .text (Text.ofString "custom_" ++ name.plain)

theorem isName_customId (name : Json) : (customId name).isName = true := rfl

/-- The schema of a grammar. -/
def readGrammar (grammar name : Json) : Action (Schema Json) := do
  match grammar with
  | .text t =>
    match parseRng t with
    | .error e => throw (.grammar e)
    | .ok specs =>
      let s := Schema.ofRng (customId name) name specs
      Action.inform (Text.ofString "Imported RELAX NG schema " ++ name.plain
        ++ Text.ofString (": " ++ toString s.elements.length ++ " elements"))
      return s
  | _ => throw (.ofFault .noFields)

/-- A name that was imported is found, and else its grammar is read and registered. -/
theorem importGrammar_eq (r : Registry) (grammar name : Json) :
    r.importGrammar grammar name = r.findOrAdd (customId name) (readGrammar grammar name) := by
  unfold importGrammar findOrAdd readGrammar
  simp only [customId]
  cases r.schemas.find? (.text (Text.ofString "custom_" ++ name.plain)) with
  | some entry => rfl
  | none =>
    cases grammar with
    | text t =>
      cases hparse : parseRng t with
      | error e => simp only [hparse]; rfl
      | ok specs => simp only [hparse]; rfl
    | _ => rfl

/-- The schema of a grammar has the identifier for its name. -/
theorem id_of_perform_readGrammar {grammar name : Json} {s : Schema Json} {w w' : World}
    (h : (readGrammar grammar name).perform w = (.ok s, w')) : s.id = customId name := by
  unfold readGrammar at h
  cases grammar with
  | text t =>
    cases hparse : parseRng t with
    | error e =>
      simp only [hparse] at h
      exact nomatch (Prod.mk.inj h).1
    | ok specs =>
      simp only [hparse] at h
      rw [← Except.ok.inj (Prod.mk.inj h).1]
      rfl
  | _ => exact nomatch (Prod.mk.inj h).1

/-! ### What a registry is after it has been asked -/

/-- What can come of asking a registry: nothing, a schema that it has, or a schema that is added. -/
inductive Outcome (r : Registry) : Except AccessError (RegisteredSchema × Registry) → Prop
  | failed (e : AccessError) : Outcome r (.error e)
  | found {id : Json} {entry : RegisteredSchema} (h : r.schemas.find? id = some entry) :
      Outcome r (.ok (entry, r))
  | added {s : Schema Json} (h : s.id.isName = true) : Outcome r (.ok (r.entryFor s, r.add s))

theorem outcome_register (r : Registry) (s : Schema Json) (w : World) :
    r.Outcome ((r.register s).perform w).1 := by
  rw [perform_register]
  split
  · next h => exact .added h
  · exact .failed _

theorem outcome_findOrAdd (r : Registry) (id : Json) (make : Action (Schema Json)) (w : World) :
    r.Outcome ((r.findOrAdd id make).perform w).1 := by
  cases h : (r.findOrAdd id make).perform w with
  | mk result w' =>
    obtain ⟨e, rfl⟩ | ⟨entry, hfind, rfl, -⟩ | ⟨-, s, -, -, hs, rfl, -⟩ :=
      cases_of_perform_findOrAdd h
    · exact .failed e
    · exact .found hfind
    · exact .added hs

theorem outcome_get (r : Registry) (id : Json) (w : World) :
    r.Outcome ((r.get id).perform w).1 := by
  rw [get_eq]
  split
  · exact r.outcome_findOrAdd _ _ w
  · exact .failed _

theorem outcome_importGrammar (r : Registry) (grammar name : Json) (w : World) :
    r.Outcome ((r.importGrammar grammar name).perform w).1 := by
  rw [importGrammar_eq]
  exact r.outcome_findOrAdd _ _ w

/-! ### The list of schemas -/

theorem IsConsistent.isLoaded_of_mem (h : r.IsConsistent) {e : Json × RegisteredSchema}
    (he : e ∈ r.schemas) : r.isLoaded e.2.schema.id = true := by
  rw [isLoaded, Option.isSome_iff_ne_none]
  intro hnone
  have hne := Table.beq_eq_false_of_find?_eq_none hnone e he
  rw [(h.ids e he).2] at hne
  exact nomatch hne

/-- **A listed schema is shown as loaded exactly if it is.** -/
theorem IsConsistent.isLoaded_of_mem_list (h : r.IsConsistent) {l : SchemaListing}
    (hl : l ∈ r.list) : l.isLoaded = r.isLoaded l.id := by
  rw [list, List.mem_append] at hl
  rcases hl with hl | hl
  · obtain ⟨⟨id, name⟩, -, rfl⟩ := List.mem_map.mp hl
    rfl
  · obtain ⟨e, he, rfl⟩ := List.mem_map.mp hl
    exact (h.isLoaded_of_mem (List.mem_filter.mp he).1).symm

/-- **No identifier is listed twice.** -/
theorem IsConsistent.pairwise_list (h : r.IsConsistent) :
    r.list.Pairwise fun l m => (l.id == m.id) = false := by
  rw [list, List.pairwise_append]
  refine ⟨List.pairwise_map.mpr (List.pairwise_singleton _ _), List.pairwise_map.mpr ?_, ?_⟩
  · refine (h.distinct.filter _).imp_of_mem fun {a b} ha hb hne => ?_
    have ha := (List.mem_filter.mp ha).1
    have hb := (List.mem_filter.mp hb).1
    obtain ⟨haname, hasame⟩ := h.ids a ha
    obtain ⟨hbname, hbsame⟩ := h.ids b hb
    rw [Json.beq_congr_of_isName (h.names a ha) haname (h.names b hb) hasame,
      Json.beq_comm_of_isName haname (h.names b hb),
      Json.beq_congr_of_isName (h.names b hb) hbname haname hbsame,
      Json.beq_comm_of_isName hbname haname] at hne
    exact hne
  · intro l hl m hm
    obtain ⟨e, he, rfl⟩ := List.mem_map.mp hl
    obtain ⟨f, hf, rfl⟩ := List.mem_map.mp hm
    have hnone : builtin.find? f.2.schema.id = none :=
      Option.isNone_iff_eq_none.mp (List.mem_filter.mp hf).2
    exact Table.beq_eq_false_of_find?_eq_none hnone e he

theorem areNames_builtin : ∀ e ∈ builtin, e.1.isName = true :=
  List.forall_mem_singleton.mpr rfl

/-- What is built in is listed. -/
theorem exists_mem_list_of_builtin {id : Json} (h : (builtin.find? id).isSome = true) :
    ∃ l ∈ r.list, (l.id == id) = true := by
  obtain ⟨name, hname⟩ := Option.isSome_iff_exists.mp h
  obtain ⟨k, hk, hsame⟩ := Table.exists_mem_beq_of_find? hname
  exact ⟨⟨k, name, r.isLoaded k⟩, List.mem_append_left _ (List.mem_map.mpr ⟨_, hk, rfl⟩), hsame⟩

/-- **What is listed** is what is built in and what is registered. -/
theorem IsConsistent.exists_mem_list_iff (h : r.IsConsistent) {id : Json} (hid : id.isName = true) :
    (∃ l ∈ r.list, (l.id == id) = true) ↔
      (builtin.find? id).isSome = true ∨ r.isLoaded id = true := by
  constructor
  · rintro ⟨l, hl, hsame⟩
    rw [list, List.mem_append] at hl
    rcases hl with hl | hl
    · obtain ⟨e, he, rfl⟩ := List.mem_map.mp hl
      refine Or.inl (Option.isSome_iff_ne_none.mpr fun hnone => ?_)
      rw [Table.beq_eq_false_of_find?_eq_none hnone e he] at hsame
      cases hsame
    · obtain ⟨e, he, rfl⟩ := List.mem_map.mp hl
      have he := (List.mem_filter.mp he).1
      have hloaded := h.isLoaded_of_mem he
      rw [isLoaded, Table.find?_congr_of_areNames h.names (h.ids e he).1 hid hsame] at hloaded
      exact Or.inr hloaded
  · rintro (hbuiltin | hloaded)
    · exact exists_mem_list_of_builtin hbuiltin
    · obtain ⟨e, he⟩ := Option.isSome_iff_exists.mp hloaded
      obtain ⟨hname, hsame⟩ := h.beq_of_find? hid he
      cases hbuiltin : builtin.find? e.schema.id with
      | some name =>
        rw [Table.find?_congr_of_areNames areNames_builtin hname hid hsame] at hbuiltin
        exact exists_mem_list_of_builtin (Option.isSome_iff_exists.mpr ⟨name, hbuiltin⟩)
      | none =>
        obtain ⟨k, hk⟩ := Table.exists_mem_of_find? he
        refine ⟨⟨e.schema.id, e.schema.name, true⟩, List.mem_append_right _ ?_, hsame⟩
        exact List.mem_map.mpr ⟨(k, e), List.mem_filter.mpr ⟨hk, by simp [hbuiltin]⟩, rfl⟩

end Registry

end MarkupGrammar
