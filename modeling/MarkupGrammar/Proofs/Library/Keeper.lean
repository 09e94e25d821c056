import MarkupGrammar.Proofs.Library.Registry

/-!
# A registry in use

A keeper has a registry and changes it in place, in a world of files and pages that changes under
its hands: between two calls anything may happen to the files. What a call does is what the
registry's own actions do, and one that fails leaves the registry as it was, because a schema is
registered by the last step that can be taken back.

What holds of a keeper after any turns is proved from what one turn does to its registry: nothing,
or it registers one schema.

## Main results

* `Keeper.perform_give`, `Keeper.perform_loadBuiltin`, `Keeper.perform_importGrammar` — a keeper does
  what its registry says
* `Keeper.registry_turn` — what one turn does to the registry
* `Keeper.find?_after` — what stays registered
* `Keeper.consistent_run` — the registry is in order after any turns
* `Keeper.returned_run` — what is returned, and for how long
-/

namespace MarkupGrammar

/-- A registry in use, and the world that it is used in. -/
structure Keeper where
  registry : Registry
  world : World

namespace Keeper

/-- What a keeper does on a call. It may fail, and what it has done by then stays. -/
abbrev Work (Value : Type) := ExceptT AccessError (StateM Keeper) Value

variable {Value Other : Type}

/-- Does the work. -/
def Work.perform (work : Work Value) (k : Keeper) : Except AccessError Value × Keeper :=
  (ExceptT.run work).run k

/-- An action in the world of the keeper. -/
def within (a : Action Value) : Work Value := do
  let (result, world) := a.perform (← get).world
  modify fun k => { k with world }
  match result with
  | .ok v => return v
  | .error e => throw e

/-- Registers a schema: enters it under its identifier, and then makes a record of it. -/
def register (s : Schema Json) : Work RegisteredSchema := do
  if !s.id.isName then throw (.ofFault .wrongKind)
  let entry := (← get).registry.entryFor s
  modify fun k => { k with registry := k.registry.add s }
  within (Action.record (Registry.noteOf s))
  return entry

/-- Gives the schema that is registered under an identifier, or makes one and registers it. -/
def findOrAdd (id : Json) (make : Action (Schema Json)) : Work RegisteredSchema := do
  match (← get).registry.schemas.find? id with
  | some entry => return entry
  | none =>
    let s ← within make
    register s

/-- Gives a schema that is built in, and loads it unless it is registered. -/
def loadBuiltin (id : Json) : Work RegisteredSchema := do
  if !id.isName then throw (.ofFault .wrongKind)
  findOrAdd id ((← get).registry.provide id)

/-- Gives the schema that is registered, or else the one that is built in. -/
def give (id : Json) : Work RegisteredSchema := do
  if !id.isName then throw (.ofFault .wrongKind)
  match (← get).registry.schemas.find? id with
  | some entry => return entry
  | none =>
    if (Registry.builtin.find? id).isSome then loadBuiltin id else throw (.unknownSchema id)

/-- Imports a grammar, unless one has been imported under that name. -/
def importGrammar (grammar name : Json) : Work RegisteredSchema :=
  findOrAdd (Registry.customId name) (Registry.readGrammar grammar name)

/-! ### A keeper does what its registry says -/

/-- What comes of leaving a call to an action of the registry: the registry that it results in is
kept, and if it fails the one that was there. -/
def settle (k : Keeper) (a : Action (RegisteredSchema × Registry)) :
    Except AccessError RegisteredSchema × Keeper :=
  match a.perform k.world with
  | (.ok (entry, registry), world) => (.ok entry, ⟨registry, world⟩)
  | (.error e, world) => (.error e, ⟨k.registry, world⟩)

theorem perform_bind_of_ok {a : Work Value} {v : Value} {k k' : Keeper}
    (h : a.perform k = (.ok v, k')) (f : Value → Work Other) :
    (a >>= f).perform k = (f v).perform k' :=
  run_bind_of_ok h f

theorem perform_bind_of_error {a : Work Value} {e : AccessError} {k k' : Keeper}
    (h : a.perform k = (.error e, k')) (f : Value → Work Other) :
    (a >>= f).perform k = (.error e, k') :=
  run_bind_of_error h f

theorem perform_get (k : Keeper) : (get : Work Keeper).perform k = (.ok k, k) := rfl

theorem perform_within (a : Action Value) (k : Keeper) :
    (within a).perform k = ((a.perform k.world).1, { k with world := (a.perform k.world).2 }) := by
  rw [within, perform_bind_of_ok (perform_get k)]
  obtain ⟨result, world⟩ := a.perform k.world
  cases result <;> rfl

/-- A schema is registered as the registry registers it. -/
theorem perform_register (s : Schema Json) (k : Keeper) :
    (register s).perform k = k.settle (k.registry.register s) := by
  rw [settle, Registry.perform_register, register]
  cases s.id.isName <;> rfl

theorem perform_findOrAdd (id : Json) (make : Action (Schema Json)) (k : Keeper) :
    (findOrAdd id make).perform k = k.settle (k.registry.findOrAdd id make) := by
  rw [findOrAdd, perform_bind_of_ok (perform_get k), settle, Registry.findOrAdd]
  cases k.registry.schemas.find? id with
  | some entry => rfl
  | none =>
    have hmake := perform_within make k
    cases hresult : make.perform k.world with
    | mk result world =>
      rw [hresult] at hmake
      cases result with
      | error e =>
        rw [Action.perform_bind_of_error hresult]
        exact perform_bind_of_error hmake _
      | ok s =>
        rw [Action.perform_bind_of_ok hresult]
        exact (perform_bind_of_ok hmake _).trans (perform_register s _)

/-- A schema that is built in is given as the registry gives it. -/
theorem perform_loadBuiltin (id : Json) (k : Keeper) :
    (loadBuiltin id).perform k = k.settle (k.registry.get id) := by
  rw [loadBuiltin, Registry.get_eq]
  cases id.isName with
  | false => rfl
  | true => exact (perform_bind_of_ok (perform_get k) _).trans (perform_findOrAdd id _ k)

/-- A schema that is asked for is given as the registry gives it. -/
theorem perform_give (id : Json) (k : Keeper) :
    (give id).perform k = k.settle (k.registry.get id) := by
  cases hname : id.isName with
  | false =>
    rw [give, Registry.get_eq, hname]
    rfl
  | true =>
    rw [give, hname]
    refine (perform_bind_of_ok (perform_get k) _).trans ?_
    cases hfind : k.registry.schemas.find? id with
    | some entry =>
      rw [Registry.get_eq, if_pos hname, settle, Registry.perform_findOrAdd_of_find? hfind]
      rfl
    | none =>
      cases hbuiltin : Registry.builtin.find? id with
      | some name => exact perform_loadBuiltin id k
      | none =>
        rw [Registry.get_eq, if_pos hname, Registry.findOrAdd, hfind, Registry.provide, hbuiltin]
        rfl

/-- A grammar is imported as the registry imports it. -/
theorem perform_importGrammar (grammar name : Json) (k : Keeper) :
    (importGrammar grammar name).perform k
      = k.settle (k.registry.importGrammar grammar name) := by
  rw [importGrammar, perform_findOrAdd, Registry.importGrammar_eq]

/-! ### Requests -/

/-- A request for a schema. -/
inductive Request where
  | register (s : Schema Json)
  | loadBuiltin (id : Json)
  | give (id : Json)
  | importGrammar (grammar name : Json)

/-- Answers a request. -/
def answer : Request → Work RegisteredSchema
  | .register s => register s
  | .loadBuiltin id => loadBuiltin id
  | .give id => give id
  | .importGrammar grammar name => importGrammar grammar name

/-- What a registry does on a request. -/
def Request.action (r : Registry) : Request → Action (RegisteredSchema × Registry)
  | .register s => r.register s
  | .loadBuiltin id => r.get id
  | .give id => r.get id
  | .importGrammar grammar name => r.importGrammar grammar name

/-- **A keeper does what its registry does.** -/
theorem perform_answer (q : Request) (k : Keeper) :
    (answer q).perform k = k.settle (q.action k.registry) := by
  cases q with
  | register s => exact perform_register s k
  | loadBuiltin id => exact perform_loadBuiltin id k
  | give id => exact perform_give id k
  | importGrammar grammar name => exact perform_importGrammar grammar name k

theorem Request.outcome_action (q : Request) (r : Registry) (w : World) :
    r.Outcome ((q.action r).perform w).1 := by
  cases q with
  | register s => exact r.outcome_register s w
  | loadBuiltin id => exact r.outcome_get id w
  | give id => exact r.outcome_get id w
  | importGrammar grammar name => exact r.outcome_importGrammar grammar name w

/-- **A request that fails leaves the registry as it was.** -/
theorem registry_of_error {q : Request} {k k' : Keeper} {e : AccessError}
    (h : (answer q).perform k = (.error e, k')) : k'.registry = k.registry := by
  rw [perform_answer, settle] at h
  split at h
  · exact nomatch (Prod.mk.inj h).1
  · rw [← (Prod.mk.inj h).2]

/-- **A request that succeeds** gives a schema that is registered, and the registry is as it was; or
a schema is registered by it. -/
theorem registry_of_ok {q : Request} {k k' : Keeper} {entry : RegisteredSchema}
    (h : (answer q).perform k = (.ok entry, k')) :
    (∃ id, k.registry.schemas.find? id = some entry) ∧ k'.registry = k.registry ∨
      ∃ s, s.id.isName = true ∧ entry = k.registry.entryFor s ∧
        k'.registry = k.registry.add s := by
  rw [perform_answer, settle] at h
  have houtcome := q.outcome_action k.registry k.world
  cases hresult : (q.action k.registry).perform k.world with
  | mk result w =>
    rw [hresult] at h houtcome
    cases houtcome with
    | failed e => exact nomatch (Prod.mk.inj h).1
    | found hfind =>
      obtain ⟨hentry, rfl⟩ := Prod.mk.inj h
      obtain rfl := Except.ok.inj hentry
      exact Or.inl ⟨⟨_, hfind⟩, rfl⟩
    | added hid =>
      obtain ⟨hentry, rfl⟩ := Prod.mk.inj h
      obtain rfl := Except.ok.inj hentry
      exact Or.inr ⟨_, hid, rfl, rfl⟩

/-- What comes of finding a schema or making one, when it succeeds. -/
theorem cases_of_findOrAdd {id : Json} {make : Action (Schema Json)} {k k' : Keeper}
    {entry : RegisteredSchema}
    (h : k.settle (k.registry.findOrAdd id make) = (.ok entry, k')) :
    (k.registry.schemas.find? id = some entry ∧ k' = k) ∨
      k.registry.schemas.find? id = none ∧ ∃ s w, make.perform k.world = (.ok s, w) ∧
        s.id.isName = true ∧ entry = k.registry.entryFor s ∧
        k' = ⟨k.registry.add s, { w with log := w.log ++ [Registry.noteOf s] }⟩ := by
  rw [settle] at h
  cases hresult : (k.registry.findOrAdd id make).perform k.world with
  | mk result w =>
    rw [hresult] at h
    obtain ⟨e, rfl⟩ | ⟨found, hfind, rfl, rfl⟩ | ⟨hfind, s, w₁, hmake, hid, rfl, rfl⟩ :=
      Registry.cases_of_perform_findOrAdd hresult
    · exact nomatch (Prod.mk.inj h).1
    · obtain ⟨hentry, rfl⟩ := Prod.mk.inj h
      obtain rfl := Except.ok.inj hentry
      exact Or.inl ⟨hfind, rfl⟩
    · obtain ⟨hentry, rfl⟩ := Prod.mk.inj h
      obtain rfl := Except.ok.inj hentry
      exact Or.inr ⟨hfind, s, w₁, hmake, hid, rfl, rfl⟩

/-- Finding a schema changes nothing. -/
theorem settle_findOrAdd_of_find? {id : Json} {k : Keeper} {entry : RegisteredSchema}
    (h : k.registry.schemas.find? id = some entry) (make : Action (Schema Json)) :
    k.settle (k.registry.findOrAdd id make) = (.ok entry, k) := by
  rw [settle, Registry.perform_findOrAdd_of_find? h]

/-! ### Turns -/

/-- What happens to a keeper: a request is made, the schemas are listed, or something becomes of the
files and pages. -/
inductive Turn where
  | ask (q : Request)
  | list
  | change (f : World → World)

/-- The keeper after a turn. -/
def turn (k : Keeper) : Turn → Keeper
  | .ask q => ((answer q).perform k).2
  | .list => k
  | .change f => { k with world := f k.world }

/-- The keeper after some turns. -/
def after (k : Keeper) (turns : List Turn) : Keeper := turns.foldl turn k

/-- A keeper that has no schemas. -/
def start (corpusPath compiledDir : Path) (w : World) : Keeper :=
  ⟨Registry.start corpusPath compiledDir, w⟩

/-- **What one turn does to the registry**: nothing, or it registers a schema. -/
theorem registry_turn (k : Keeper) (t : Turn) :
    (k.turn t).registry = k.registry ∨
      ∃ s, s.id.isName = true ∧ (k.turn t).registry = k.registry.add s := by
  cases t with
  | ask q =>
    rw [turn]
    cases h : (answer q).perform k with
    | mk result k' =>
      cases result with
      | error e => exact Or.inl (registry_of_error h)
      | ok entry =>
        obtain ⟨-, hsame⟩ | ⟨s, hs, -, hadd⟩ := registry_of_ok h
        · exact Or.inl hsame
        · exact Or.inr ⟨s, hs, hadd⟩
  | list => exact Or.inl rfl
  | change f => exact Or.inl rfl

theorem isConsistent_turn {k : Keeper} (h : k.registry.IsConsistent) (t : Turn) :
    (k.turn t).registry.IsConsistent := by
  obtain hsame | ⟨s, hs, hadd⟩ := k.registry_turn t
  · exact hsame ▸ h
  · exact hadd ▸ h.add hs

/-- **The registry stays in order.** -/
theorem isConsistent_after {k : Keeper} (h : k.registry.IsConsistent) (turns : List Turn) :
    (k.after turns).registry.IsConsistent := by
  induction turns generalizing k with
  | nil => exact h
  | cons t turns ih => exact ih (isConsistent_turn h t)

/-- **What is registered once stays registered.** -/
theorem isLoaded_after {k : Keeper} (h : k.registry.IsConsistent) {id : Json}
    (hid : id.isName = true) (hloaded : k.registry.isLoaded id = true) (turns : List Turn) :
    (k.after turns).registry.isLoaded id = true := by
  induction turns generalizing k with
  | nil => exact hloaded
  | cons t turns ih =>
    refine ih (isConsistent_turn h t) ?_
    obtain hsame | ⟨s, hs, hadd⟩ := k.registry_turn t
    · rw [hsame, hloaded]
    · rw [hadd, Registry.isLoaded, Registry.find?_add h hs hid]
      split
      · rfl
      · exact hloaded

/-- The schemas that a turn registers: their numbers have not been given out before. -/
def newSchemas (k : Keeper) (t : Turn) : List (Schema Json) :=
  ((k.turn t).registry.schemas.filter fun (_, e) => k.registry.registered ≤ e.number).map
    fun (_, e) => e.schema

/-- The schemas that turns register. -/
def newSchemasIn (k : Keeper) : List Turn → List (Schema Json)
  | [] => []
  | t :: turns => k.newSchemas t ++ (k.turn t).newSchemasIn turns

/-- What a turn registers is what the registry gets. -/
theorem mem_newSchemas_iff {k : Keeper} (h : k.registry.IsConsistent) {t : Turn}
    {s : Schema Json} :
    s ∈ k.newSchemas t ↔ s.id.isName = true ∧ (k.turn t).registry = k.registry.add s := by
  have hold : ∀ e ∈ k.registry.schemas, ¬ k.registry.registered ≤ e.2.number := fun e he =>
    Nat.not_le.mpr (h.numbers e he)
  constructor
  · intro hmem
    obtain ⟨⟨key, e⟩, he, rfl⟩ := List.mem_map.mp hmem
    obtain ⟨he, hnumber⟩ := List.mem_filter.mp he
    rw [decide_eq_true_eq] at hnumber
    obtain hsame | ⟨s, hs, hadd⟩ := k.registry_turn t
    · rw [hsame] at he
      exact absurd hnumber (hold _ he)
    · have hentry : ∀ e ∈ (k.registry.add s).schemas,
          k.registry.registered ≤ e.2.number → e.2.schema = s :=
        Table.forall_mem_insert (fun e he hnumber => absurd hnumber (hold e he)) (fun _ => rfl)
          fun _ _ _ _ => rfl
      rw [hadd] at he
      obtain rfl := hentry _ he hnumber
      exact ⟨hs, hadd⟩
  · rintro ⟨hs, hadd⟩
    obtain ⟨key, hkey⟩ := Table.exists_mem_of_find? (Registry.find?_add_self h hs)
    refine List.mem_map.mpr ⟨(key, k.registry.entryFor s), List.mem_filter.mpr ⟨hadd ▸ hkey, ?_⟩,
      rfl⟩
    exact decide_eq_true (Nat.le_refl _)

/-- **What is registered stays the same** until a schema with the same identifier is registered. -/
theorem find?_after {k : Keeper} (h : k.registry.IsConsistent) {id : Json} (hid : id.isName = true)
    {entry : RegisteredSchema} (hfind : k.registry.schemas.find? id = some entry)
    {turns : List Turn} (hnew : ∀ s ∈ k.newSchemasIn turns, (s.id == id) = false) :
    (k.after turns).registry.schemas.find? id = some entry := by
  induction turns generalizing k with
  | nil => exact hfind
  | cons t turns ih =>
    obtain ⟨hnow, hlater⟩ := List.forall_mem_append.mp hnew
    refine ih (isConsistent_turn h t) ?_ hlater
    obtain hsame | ⟨s, hs, hadd⟩ := k.registry_turn t
    · rw [hsame, hfind]
    · -- what this turn registers has another identifier
      rw [hadd, Registry.find?_add h hs hid, hnow s ((mem_newSchemas_iff h).mpr ⟨hs, hadd⟩)]
      exact hfind

/-! ### Any run -/

theorem isConsistent_run (corpusPath compiledDir : Path) (w : World) (turns : List Turn) :
    ((start corpusPath compiledDir w).after turns).registry.IsConsistent :=
  isConsistent_after (Registry.isConsistent_start _ _) turns

/-- A grammar that has been imported is registered under the identifier for its name. -/
theorem isLoaded_of_importGrammar {k k' : Keeper} (hk : k.registry.IsConsistent)
    {grammar name : Json} {entry : RegisteredSchema}
    (h : (answer (.importGrammar grammar name)).perform k = (.ok entry, k')) :
    k'.registry.isLoaded (Registry.customId name) = true := by
  have hname := Registry.isName_customId name
  rw [perform_answer, Request.action, Registry.importGrammar_eq] at h
  obtain ⟨hfind, rfl⟩ | ⟨-, s, w, hmake, hs, rfl, rfl⟩ := cases_of_findOrAdd h
  · rw [Registry.isLoaded, hfind]
    rfl
  · have hid := Registry.id_of_perform_readGrammar hmake
    rw [Registry.isLoaded, ← hid, Registry.find?_add_self hk hs]
    rfl

/-- **The registry stays consistent over any run.** After any requests, listings and changes of the
files, every key is the identifier of its schema and no other's. A request that fails then leaves
the registry as it is. A grammar that is imported then is never replaced by another of that name:
whatever grammar is given, the schema that is registered under the name's identifier comes back, and
nothing is read or logged. The list has what is built in and what is registered, each once, and says
of each whether it is registered. -/
theorem consistent_run (corpusPath compiledDir : Path) (w : World) (turns : List Turn) :
    let k := (start corpusPath compiledDir w).after turns
    ((∀ e ∈ k.registry.schemas, (e.1 == e.2.schema.id) = true) ∧ k.registry.schemas.Distinct) ∧
    (∀ q e k', (answer q).perform k = (.error e, k') → k'.registry = k.registry) ∧
    (∀ grammar name entry k',
      (answer (.importGrammar grammar name)).perform k = (.ok entry, k') →
        ∀ later grammar', ∃ entry',
          (k'.after later).registry.schemas.find? (Registry.customId name) = some entry' ∧
          (answer (.importGrammar grammar' name)).perform (k'.after later)
            = (.ok entry', k'.after later)) ∧
    k.registry.list.Pairwise (fun l m => (l.id == m.id) = false) ∧
    (∀ id : Json, id.isName = true → ((∃ l ∈ k.registry.list, (l.id == id) = true) ↔
      (Registry.builtin.find? id).isSome = true ∨ k.registry.isLoaded id = true)) ∧
    ∀ l ∈ k.registry.list, l.isLoaded = k.registry.isLoaded l.id := by
  intro k
  have hk : k.registry.IsConsistent := isConsistent_run corpusPath compiledDir w turns
  refine ⟨⟨fun e he => (hk.ids e he).2, hk.distinct⟩, fun q e k' h => registry_of_error h, ?_,
    hk.pairwise_list, fun id hid => hk.exists_mem_list_iff hid,
    fun l hl => hk.isLoaded_of_mem_list hl⟩
  intro grammar name entry k' h later grammar'
  have hk' : k'.registry.IsConsistent := by
    have hturn := isConsistent_turn hk (.ask (.importGrammar grammar name))
    rw [turn, h] at hturn
    exact hturn
  have hloaded := isLoaded_after hk' (Registry.isName_customId name)
    (isLoaded_of_importGrammar hk h) later
  obtain ⟨entry', hfind⟩ := Option.isSome_iff_exists.mp hloaded
  refine ⟨entry', hfind, ?_⟩
  rw [perform_answer, Request.action, Registry.importGrammar_eq, settle_findOrAdd_of_find? hfind]

/-- Whether a request succeeds, with a schema and a keeper of which something holds. -/
def gives (k : Keeper) (q : Request) (p : RegisteredSchema → Keeper → Bool) : Bool :=
  match (answer q).perform k with
  | (.error _, _) => false
  | (.ok entry, k') => p entry k'

theorem exists_of_gives (k : Keeper) (q : Request) {p : RegisteredSchema → Keeper → Bool}
    (h : k.gives q p = true) :
    ∃ entry k', (answer q).perform k = (.ok entry, k') ∧ p entry k' = true := by
  rw [gives] at h
  split at h
  · cases h
  · next entry k' hperform => exact ⟨entry, k', hperform, h⟩

/-- A grammar with one element. -/
def memoGrammar : Text :=
  Text.ofString "<element xmlns=\"http://relaxng.org/ns/structure/1.0\" name=\"memo\">"
    ++ Text.ofString "<attribute name=\"to\"/><text/></element>"

/-- A grammar is imported, an unknown schema is asked for, and a text that is no grammar is imported
under the name of the first: the schema of the first comes back. -/
theorem consistent_run_memo :
    ∃ entry k' k'' error,
      (answer (.importGrammar (.text memoGrammar) (.string "memo"))).perform
        (start ⟨[], []⟩ ⟨[], []⟩ ⟨.empty, [], []⟩) = (.ok entry, k') ∧
      (answer (.give (.string "tei_lite"))).perform k' = (.error error, k'') ∧
      k''.registry = k'.registry ∧
      ∃ entry', (k'.after [.ask (.give (.string "tei_lite"))]).registry.schemas.find?
          (.string "custom_memo") = some entry' ∧
        (answer (.importGrammar (.string "<not parsed/>") (.string "memo"))).perform
            (k'.after [.ask (.give (.string "tei_lite"))])
          = (.ok entry', k'.after [.ask (.give (.string "tei_lite"))]) := by
  obtain ⟨entry, k', himport, hshows⟩ :=
    exists_of_gives (start ⟨[], []⟩ ⟨[], []⟩ ⟨.empty, [], []⟩)
      (.importGrammar (.text memoGrammar) (.string "memo"))
      (p := fun _ k' => !gives k' (.give (.string "tei_lite")) fun _ _ => true)
      (by decide +kernel)
  obtain ⟨-, -, hagain, -⟩ := consistent_run ⟨[], []⟩ ⟨[], []⟩ ⟨.empty, [], []⟩ []
  obtain ⟨-, hfailed, -⟩ := consistent_run ⟨[], []⟩ ⟨[], []⟩ ⟨.empty, [], []⟩
    [.ask (.importGrammar (.text memoGrammar) (.string "memo"))]
  have hk' : (start ⟨[], []⟩ ⟨[], []⟩ ⟨.empty, [], []⟩).after
      [.ask (.importGrammar (.text memoGrammar) (.string "memo"))] = k' :=
    congrArg Prod.snd himport
  rw [hk'] at hfailed
  cases hask : (answer (.give (.string "tei_lite"))).perform k' with
  | mk result k'' =>
    cases result with
    | ok found =>
      rw [gives, hask] at hshows
      exact nomatch hshows
    | error error =>
      exact ⟨entry, k', k'', error, himport, hask, hfailed _ _ _ hask,
        hagain _ _ _ _ himport _ _⟩

/-! ### What is returned -/

/-- Where a schema that is built in and not registered has a module file, and what the file holds
has another identifier. -/
structure Mislabels (k : Keeper) (id : Json) (s : Schema Json) : Prop where
  find?_eq : k.registry.schemas.find? id = none
  builtin : (Registry.builtin.find? id).isSome = true
  has_eq : k.world.files.has (k.registry.modulePath id) = .ok true
  moduleIn_eq : Registry.moduleIn (k.registry.modulePath id) k.world.files = .ok s
  ne : (s.id == id) = false

/-- What is returned when a schema is asked for: it is registered under its own identifier, which is
the one that was asked for, or else a module file is there that says otherwise. -/
theorem registers_of_give {k k' : Keeper} (hk : k.registry.IsConsistent) {id : Json}
    {entry : RegisteredSchema} (h : k.settle (k.registry.get id) = (.ok entry, k')) :
    entry.schema.id.isName = true ∧ k'.registry.schemas.find? entry.schema.id = some entry ∧
    ((entry.schema.id == id) = true ∧ k'.registry.schemas.find? id = some entry ∨
      k.Mislabels id entry.schema ∧ k'.registry.schemas.find? id = none ∧
        k'.world.files = k.world.files) := by
  rw [Registry.get_eq] at h
  split at h
  · next hid =>
    obtain ⟨hfind, rfl⟩ | ⟨hnone, s, w, hmake, hs, rfl, rfl⟩ := cases_of_findOrAdd h
    · obtain ⟨hname, hsame⟩ := hk.beq_of_find? hid hfind
      refine ⟨hname, ?_, Or.inl ⟨hsame, hfind⟩⟩
      rw [Table.find?_congr_of_areNames hk.names hname hid hsame, hfind]
    · refine ⟨hs, Registry.find?_add_self hk hs, ?_⟩
      change (s.id == id) = true ∧ (k.registry.add s).schemas.find? id = _ ∨
        k.Mislabels id s ∧ (k.registry.add s).schemas.find? id = none ∧ w.files = _
      rw [Registry.find?_add hk hs hid, hnone]
      obtain ⟨hbuiltin, rfl | ⟨hhas, hmodule, hfiles⟩⟩ := Registry.cases_of_perform_provide hmake
      · rw [Json.beq_self_of_isName hid]
        exact Or.inl ⟨rfl, rfl⟩
      · cases hsame : s.id == id with
        | true => exact Or.inl ⟨rfl, rfl⟩
        | false => exact Or.inr ⟨⟨hnone, hbuiltin, hhas, hmodule, hsame⟩, rfl, hfiles⟩
  · exact nomatch (Prod.mk.inj h).1

/-- **A schema that is returned** is registered under its own identifier, and comes back without a
look at the files for as long as no other schema with this identifier is registered. It has the
identifier that was asked for, unless it was read from a module file that says otherwise; then what
was asked for is not registered, and will be read again. -/
theorem returned_run (corpusPath compiledDir : Path) (w : World) (turns : List Turn) :
    let k := (start corpusPath compiledDir w).after turns
    ∀ q id, (q = .give id ∨ q = .loadBuiltin id) → ∀ entry k',
      (answer q).perform k = (.ok entry, k') →
        k'.registry.schemas.find? entry.schema.id = some entry ∧
        (∀ later id', (id' == entry.schema.id) = true →
          (∀ s ∈ k'.newSchemasIn later, (s.id == entry.schema.id) = false) →
            (answer (.give id')).perform (k'.after later) = (.ok entry, k'.after later)) ∧
        ((entry.schema.id == id) = true ∧ k'.registry.schemas.find? id = some entry ∨
          k.Mislabels id entry.schema ∧ k'.registry.schemas.find? id = none ∧
            k'.world.files = k.world.files) := by
  intro k q id hq entry k' h
  have hk : k.registry.IsConsistent := isConsistent_run corpusPath compiledDir w turns
  have hk' : k'.registry.IsConsistent := by
    have hturn := isConsistent_turn hk (.ask q)
    rw [turn, h] at hturn
    exact hturn
  have hget : q.action k.registry = k.registry.get id := by
    rcases hq with rfl | rfl <;> rfl
  rw [perform_answer, hget] at h
  obtain ⟨hname, hfind, hasked⟩ := registers_of_give hk h
  refine ⟨hfind, fun later id' hsame hnew => ?_, hasked⟩
  have hid' := Json.isName_of_beq hname hsame
  have hlater := find?_after hk' hname hfind hnew
  rw [← Table.find?_congr_of_areNames (isConsistent_after hk' later).names hid' hname hsame]
    at hlater
  rw [perform_answer, Request.action, Registry.get_eq, if_pos hid',
    settle_findOrAdd_of_find? hlater]

/-- A keeper that has a module file for the schema that is built in. -/
def withModule (content : Text) : Keeper :=
  start (Path.ofText (Text.ofString "corpus.json")) (Path.ofText (Text.ofString "compiled"))
    { files :=
        { files := [([Text.ofString "tei_all.json", Text.ofString "compiled"], content)]
          directories := [[Text.ofString "compiled"]] }
      pages := []
      log := [] }

/-- The text of a module without elements. -/
def emptyModule (id : String) : Text :=
  Text.ofString "\x7b\"formatVersion\": 1, \"id\": \"" ++ Text.ofString id
    ++ Text.ofString "\", \"name\": \"Empty\"\x7d"

/-- A module file with the identifier that is asked for is read once. Then the schema is there, also
when all files are gone. -/
theorem returned_run_module :
    ∃ entry k',
      (answer (.give (.string "tei_all"))).perform (withModule (emptyModule "tei_all"))
        = (.ok entry, k') ∧ (entry.schema.id == .string "tei_all") = true ∧
      (answer (.give (.string "tei_all"))).perform
          (k'.after [.change fun w => { w with files := .empty }, .list])
        = (.ok entry, k'.after [.change fun w => { w with files := .empty }, .list]) := by
  obtain ⟨entry, k', h, hshows⟩ :=
    exists_of_gives (withModule (emptyModule "tei_all")) (.give (.string "tei_all"))
      (p := fun entry k' => (.string "tei_all" == entry.schema.id) &&
        entry.schema.id == .string "tei_all" &&
        (k'.newSchemasIn [.change fun w => { w with files := .empty }, .list]).isEmpty)
      (by decide +kernel)
  simp only [Bool.and_eq_true, List.isEmpty_iff] at hshows
  obtain ⟨⟨hsame, hid⟩, hnew⟩ := hshows
  obtain ⟨-, hlater, -⟩ := returned_run _ _ _ [] _ _ (Or.inl rfl) entry k' h
  exact ⟨entry, k', h, hid, hlater _ _ hsame (by rw [hnew]; exact nofun)⟩

/-- A module file for one identifier that holds a schema with another: the schema that comes back has
the other identifier, what was asked for is not registered, and asking again reads the file again
and gives a schema with a number of its own. -/
theorem rereads_mislabelled :
    ∃ e k' e' k'',
      (answer (.give (.string "tei_all"))).perform (withModule (emptyModule "mini")) = (.ok e, k') ∧
      (answer (.give (.string "tei_all"))).perform k' = (.ok e', k'') ∧
        (e.schema.id == .string "tei_all") = false ∧
        k'.registry.schemas.find? (.string "tei_all") = none ∧ e.number ≠ e'.number ∧
        k'.world.log.length < k''.world.log.length := by
  obtain ⟨e, k', hfirst, hshows⟩ :=
    exists_of_gives (withModule (emptyModule "mini")) (.give (.string "tei_all"))
      (p := fun e k' => gives k' (.give (.string "tei_all")) fun e' k'' =>
        !(e.schema.id == .string "tei_all") &&
        (k'.registry.schemas.find? (.string "tei_all")).isNone && e.number != e'.number &&
        decide (k'.world.log.length < k''.world.log.length))
      (by decide +kernel)
  obtain ⟨e', k'', hsecond, hshows⟩ := exists_of_gives _ _ hshows
  simp only [Bool.and_eq_true, Bool.not_eq_true', Option.isNone_iff_eq_none, bne_iff_ne,
    decide_eq_true_eq] at hshows
  exact ⟨e, k', e', k'', hfirst, hsecond, hshows.1.1.1, hshows.1.1.2, hshows.1.2, hshows.2⟩

end Keeper

end MarkupGrammar
