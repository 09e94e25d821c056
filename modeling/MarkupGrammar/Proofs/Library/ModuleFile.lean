import Mathlib
import MarkupGrammar.Proofs.Json.RoundTrip
import MarkupGrammar.Proofs.Library.CorpusFile
import MarkupGrammar.Proofs.Library.Registry

/-!
# What a failed compilation leaves

A schema that is built in and has no module is compiled, and its module is written to be read the
next time. The file is made before there is anything to write, and it is written in pieces. So there
are three ways for the compilation to end. It fails before the file is made, and every file is as it
was. Or the module is written as a whole, the schema is returned, and reading the file gives it
again. Or the module cannot be written, or only up to a piece that has no encoding; then a beginning
of it is left in the file, which is read as nothing, and from then on asking for the schema fails
for the sake of that file, whatever the corpus says by then.

## Main definitions

* `ModuleFile.saved` — what saving a schema leaves in the file, and how it ends

## Main results

* `ModuleFile.cases_of_perform_save` — how far saving a schema has come
* `ModuleFile.exists_parse_eq_error` — what is left by a save that has failed cannot be read
* `ModuleFile.load_of_saved` — what has been saved is read back
* `Registry.files_of_get` — what the first request for a schema leaves
-/

namespace MarkupGrammar

/-- That a tree has come about from another one without a file under a path: it is the other one, or
it has the same files, and none can be written there. -/
def FileTree.Spares (before : FileTree) (p : Path) (after : FileTree) : Prop :=
  after = before ∨
    after.files = before.files ∧ ∀ content, ∃ problem, after.write p content = .error problem

namespace ModuleFile

/-! ### What can be encoded -/

/-- The pieces that can be encoded are all of them, and no surrogate stands in any; or they are a
proper beginning. -/
theorem cases_encodable (pieces : List Text) :
    (encodable pieces).2 = true ∧ pieces.flatten = (encodable pieces).1 ∧
        (∀ c ∈ pieces.flatten, c.isSurrogate = false) ∨
      (encodable pieces).2 = false ∧ ∃ u, u ≠ [] ∧ pieces.flatten = (encodable pieces).1 ++ u := by
  induction pieces with
  | nil => exact Or.inl ⟨rfl, rfl, nofun⟩
  | cons piece pieces ih =>
    cases hpiece : piece.any CodePoint.isSurrogate with
    | true =>
      obtain ⟨c, hc, -⟩ := List.any_eq_true.mp hpiece
      refine Or.inr ?_
      simp only [encodable, hpiece, if_true]
      refine ⟨trivial, (piece :: pieces).flatten, fun hnil => ?_, rfl⟩
      rw [List.flatten_cons, List.append_eq_nil_iff] at hnil
      exact List.not_mem_nil (hnil.1 ▸ hc)
    | false =>
      simp only [encodable, hpiece, Bool.false_eq_true, if_false, List.flatten_cons]
      obtain ⟨hall, heq, hplain⟩ | ⟨hall, u, hu, heq⟩ := ih
      · refine Or.inl ⟨hall, by rw [heq], List.forall_mem_append.mpr ⟨fun c hc => ?_, hplain⟩⟩
        exact Bool.eq_false_iff.mpr (List.any_eq_false.mp hpiece c hc)
      · exact Or.inr ⟨hall, u, hu, by rw [heq, List.append_assoc]⟩

/-! ### Saving -/

variable {s : Schema Json} {path : Path} {layout : Json.Layout}

/-- What saving a schema leaves in the file once it is made, and how it ends. -/
def saved (layout : Json.Layout) (s : Schema Json) : Text × Except Fault Unit :=
  match s.dump with
  | .error fault => ([], .error fault)
  | .ok v =>
    let (content, isAll) := encodable (Json.pieces layout v)
    (content, if isAll then .ok () else .error .unencodable)

/-- What saving a schema does once its file has been made. -/
def fill (s : Schema Json) (path : Path) (layout : Json.Layout) : Action Unit := do
  let v ← Action.ofFault s.dump
  let (content, isAll) := encodable (Json.pieces layout v)
  Action.writeFile path content
  if !isAll then throw (.ofFault .unencodable)

theorem save_eq (s : Schema Json) (path : Path) (layout : Json.Layout) :
    save s path layout =
      (Action.makeDirectories path.parent >>= fun _ => Action.writeFile path [] >>= fun _ =>
        fill s path layout) :=
  rfl

theorem perform_fill {files : FileTree} {location : Location} (h : files.LeadsTo path location)
    (w : World) :
    (fill s path layout).perform { w with files := files.put location [] } =
      ((saved layout s).2.mapError .ofFault,
        { w with files := files.put location (saved layout s).1 }) := by
  have hdumped := Action.perform_ofFault s.dump { w with files := files.put location [] }
  rw [fill, saved]
  cases hdump : s.dump with
  | error fault =>
    rw [hdump] at hdumped
    exact Action.perform_bind_of_error hdumped _
  | ok v =>
    rw [hdump] at hdumped
    refine (Action.perform_bind_of_ok hdumped _).trans ?_
    have hwritten := Action.perform_writeFile path (encodable (Json.pieces layout v)).1
      { w with files := files.put location [] }
    -- the text takes the place of the empty one that the file was made with
    simp only [FileTree.write_of_leadsTo (h.put []), FileTree.put_put] at hwritten
    refine (Action.perform_bind_of_ok hwritten _).trans ?_
    cases hall : (encodable (Json.pieces layout v)).2 <;> simp only [hall] <;> rfl

/-- **How far saving a schema has come**: there can be no file, or the file has been made. -/
theorem cases_of_perform_save {w w' : World} {result : Except AccessError Unit}
    (h : (save s path layout).perform w = (result, w')) :
    (∀ files location, w.files.makeDirectories path.parent = .ok files →
        ¬ files.LeadsTo path location) ∧
        (∃ e, result = .error e) ∧ w.files.Spares path w'.files ∨
      ∃ files location, w.files.makeDirectories path.parent = .ok files ∧
        files.LeadsTo path location ∧
        w' = { w with files := files.put location (saved layout s).1 } ∧
        result = (saved layout s).2.mapError .ofFault := by
  have hmade := Action.perform_makeDirectories path.parent w
  rw [save_eq] at h
  cases hfiles : w.files.makeDirectories path.parent with
  | error problem =>
    rw [hfiles] at hmade
    rw [Action.perform_bind_of_error hmade] at h
    obtain ⟨rfl, rfl⟩ := Prod.mk.inj h
    exact Or.inl ⟨nofun, ⟨_, rfl⟩, Or.inl rfl⟩
  | ok files =>
  rw [hfiles] at hmade
  rw [Action.perform_bind_of_ok hmade] at h
  have hopened := Action.perform_writeFile path [] { w with files }
  cases hwrite : files.write path [] with
  | error problem =>
    -- directories may have been made, but no file, and none can be
    simp only [hwrite] at hopened
    rw [Action.perform_bind_of_error hopened] at h
    obtain ⟨rfl, rfl⟩ := Prod.mk.inj h
    refine Or.inl ⟨fun files' location heq hleads => ?_, ⟨_, rfl⟩, Or.inr
      ⟨FileTree.files_of_makeDirectories hfiles, fun content =>
        ⟨problem, FileTree.write_eq_error hwrite content⟩⟩⟩
    obtain rfl := Except.ok.inj heq
    rw [FileTree.write_of_leadsTo hleads] at hwrite
    exact nomatch hwrite
  | ok opened =>
    obtain ⟨location, hleads, rfl⟩ := FileTree.exists_of_write hwrite
    simp only [hwrite] at hopened
    rw [Action.perform_bind_of_ok hopened, perform_fill hleads] at h
    obtain ⟨rfl, rfl⟩ := Prod.mk.inj h
    exact Or.inr ⟨files, location, rfl, hleads, rfl, rfl⟩

/-- A module is an object. -/
theorem exists_fields_of_dump {v : Json} (h : s.dump = .ok v) : ∃ fields, v = .object fields := by
  rw [Schema.dump] at h
  obtain ⟨elements, -, h⟩ := exists_of_bind_eq_ok h
  exact ⟨_, (Except.ok.inj h).symm⟩

/-- **What is left by a save that has failed cannot be read.** -/
theorem exists_parse_eq_error {fault : Fault} (h : (saved layout s).2 = .error fault) :
    ∃ e, Json.parse (saved layout s).1 = .error e := by
  rw [saved] at h ⊢
  cases hdump : s.dump with
  | error fault => exact ⟨.malformed, rfl⟩
  | ok v =>
    rw [hdump] at h
    simp only at h ⊢
    obtain ⟨fields, rfl⟩ := exists_fields_of_dump hdump
    obtain ⟨hall, -⟩ | ⟨-, u, hu, heq⟩ := cases_encodable (Json.pieces layout (.object fields))
    · rw [hall] at h
      exact nomatch h
    · exact Json.exists_parse_eq_error heq hu

/-- What has been saved is the text of the module, and can be encoded. -/
theorem exists_dump_of_saved (h : (saved layout s).2 = .ok ()) :
    ∃ v, s.dump = .ok v ∧ (saved layout s).1 = Json.print layout v ∧
      ∀ c ∈ Json.print layout v, c.isSurrogate = false := by
  rw [saved] at h ⊢
  cases hdump : s.dump with
  | error fault =>
    rw [hdump] at h
    exact nomatch h
  | ok v =>
    rw [hdump] at h
    simp only at h ⊢
    obtain ⟨-, heq, hplain⟩ | ⟨hall, -⟩ := cases_encodable (Json.pieces layout v)
    · exact ⟨v, rfl, heq.symm, hplain⟩
    · rw [hall] at h
      exact nomatch h

/-- **What has been saved is read back,** if the schema is one that a module keeps and the module's
values are legible. -/
theorem load_of_saved (h : (saved layout s).2 = .ok ()) (hs : s.IsStorable)
    (hlegible : ∀ v, s.dump = .ok v → v.isLegible Json.deepest = true) :
    ∃ v, Json.parse (saved layout s).1 = .ok v ∧ Module.load v = .ok s := by
  obtain ⟨v, hdump, htext, hplain⟩ := exists_dump_of_saved h
  obtain ⟨v', hdump', hload⟩ := Schema.exists_dump_load hs
  obtain rfl := Except.ok.inj (hdump.symm.trans hdump')
  exact ⟨v, htext ▸ Json.parse_print (hlegible v hdump) hplain, hload⟩

end ModuleFile

namespace Registry

variable {r : Registry} {id name : Json} {w w' : World}

/-! ### Compiling -/

/-- When compiling makes a file: there is a corpus, a schema is compiled from it, and its module has
a place once the directory has been made. -/
structure Makes (r : Registry) (id name : Json) (w : World) (corpus : Json) (s : Schema Json)
    (files : FileTree) (location : Location) : Prop where
  corpusIn_eq : CorpusFile.corpusIn r.corpusPath w.files = .ok corpus
  compiled : (compileCorpus corpus id name).result = .ok s
  made : w.files.makeDirectories (r.modulePath id).parent = .ok files
  leadsTo : files.LeadsTo (r.modulePath id) location

/-- **How far compiling has come**: it makes no file and fails, or it makes the module's file. -/
theorem cases_of_perform_compile {result : Except AccessError (Schema Json)}
    (h : (r.compile id name).perform w = (result, w')) :
    (∀ corpus s files location, ¬ r.Makes id name w corpus s files location) ∧
        (∃ e, result = .error e) ∧ w.files.Spares (r.modulePath id) w'.files ∨
      ∃ corpus s files location, r.Makes id name w corpus s files location ∧
        w'.files = files.put location (ModuleFile.saved .oneLine s).1 ∧
        result = ((ModuleFile.saved .oneLine s).2.mapError .ofFault).map fun _ => s := by
  rw [compile] at h
  obtain ⟨e, hload, rfl⟩ | ⟨corpus, w₁, hload, h⟩ := Action.cases_of_perform_bind h
  · rw [CorpusFile.perform_load] at hload
    obtain ⟨hcorpus, rfl⟩ := Prod.mk.inj hload
    refine Or.inl ⟨fun corpus s files location hmakes => ?_, ⟨e, rfl⟩, Or.inl rfl⟩
    rw [hmakes.corpusIn_eq] at hcorpus
    cases hcorpus
  rw [CorpusFile.perform_load] at hload
  obtain ⟨hcorpus, rfl⟩ := Prod.mk.inj hload
  have hcorpora : ∀ {corpus' s files location}, r.Makes id name w corpus' s files location →
      corpus = corpus' := fun hmakes => Except.ok.inj (hcorpus.symm.trans hmakes.corpusIn_eq)
  obtain ⟨e, hcompile, rfl⟩ | ⟨s, w₂, hcompile, h⟩ := Action.cases_of_perform_bind h
  · rw [Action.perform_ofLogged] at hcompile
    obtain ⟨hresult, rfl⟩ := Prod.mk.inj hcompile
    refine Or.inl ⟨fun corpus' s files location hmakes => ?_, ⟨e, rfl⟩, Or.inl rfl⟩
    obtain rfl := hcorpora hmakes
    rw [hmakes.compiled] at hresult
    cases hresult
  rw [Action.perform_ofLogged] at hcompile
  obtain ⟨hs, rfl⟩ := Prod.mk.inj hcompile
  replace hs := ok_of_mapError hs
  obtain ⟨e, hsave, rfl⟩ | ⟨_, w₃, hsave, h⟩ := Action.cases_of_perform_bind h
  · obtain ⟨hnone, -, hspares⟩ | ⟨files, location, hmade, hleads, rfl, hended⟩ :=
      ModuleFile.cases_of_perform_save hsave
    · exact Or.inl ⟨fun corpus' s files location hmakes =>
        hnone files location hmakes.made hmakes.leadsTo, ⟨e, rfl⟩, hspares⟩
    · refine Or.inr ⟨corpus, s, files, location, ⟨hcorpus, hs, hmade, hleads⟩, rfl, ?_⟩
      rw [← hended]
      rfl
  · obtain ⟨-, ⟨e, he⟩, -⟩ | ⟨files, location, hmade, hleads, rfl, hended⟩ :=
      ModuleFile.cases_of_perform_save hsave
    · cases he
    · rw [Action.perform_bind_of_ok (Action.perform_inform _ _)] at h
      obtain ⟨rfl, rfl⟩ := Prod.mk.inj h
      refine Or.inr ⟨corpus, s, files, location, ⟨hcorpus, hs, hmade, hleads⟩, rfl, ?_⟩
      rw [← hended]
      rfl

/-! ### The first request and later ones -/

/-- The identifier of a schema that is built in is a name. -/
theorem isName_of_builtin (h : builtin.find? id = some name) : id.isName = true := by
  obtain ⟨k, hk, hsame⟩ := Table.exists_mem_beq_of_find? h
  obtain ⟨rfl, -⟩ := Prod.mk.inj (List.mem_singleton.mp hk)
  cases id with
  | array _ | object _ => exact nomatch hsame
  | _ => rfl

/-- A schema that is built in, not registered and without a module is compiled and registered. -/
theorem perform_get_of_missing (hid : id.isName = true) (hfind : r.schemas.find? id = none)
    (hbuiltin : builtin.find? id = some name)
    (hmissing : w.files.has (r.modulePath id) = .ok false) :
    (r.get id).perform w = (r.compile id name >>= r.register).perform w := by
  have hhas := Action.perform_has (r.modulePath id) w
  rw [hmissing] at hhas
  have hsupply : (r.supply id name).perform w = (r.compile id name).perform w :=
    Action.perform_bind_of_ok hhas _
  rw [get_eq, if_pos hid, findOrAdd, hfind, provide, hbuiltin]
  simp only
  cases hcompile : (r.compile id name).perform w with
  | mk result w₁ =>
    rw [hcompile] at hsupply
    cases result with
    | error e => rw [Action.perform_bind_of_error hsupply, Action.perform_bind_of_error hcompile]
    | ok s => rw [Action.perform_bind_of_ok hsupply, Action.perform_bind_of_ok hcompile]

/-- A module file that cannot be read is what asking for the schema fails for. -/
theorem perform_get_of_unreadable (hid : id.isName = true) (hfind : r.schemas.find? id = none)
    (hbuiltin : builtin.find? id = some name) {content : Text} {e : JsonError}
    (hread : w.files.read (r.modulePath id) = .ok content)
    (hparse : Json.parse content = .error e) :
    ∃ log, (r.get id).perform w = (.error (.ofFault (.ofJson e)), { w with log }) := by
  have hhas := Action.perform_has (r.modulePath id) w
  rw [FileTree.has_of_read hread] at hhas
  obtain ⟨log, hmodule⟩ := perform_readModule (r.modulePath id) w
  have hsupply : (r.supply id name).perform w = _ :=
    (Action.perform_bind_of_ok hhas _).trans hmodule
  rw [moduleIn, hread] at hsupply
  simp only [hparse] at hsupply
  refine ⟨log, ?_⟩
  rw [get_eq, if_pos hid, findOrAdd, hfind, provide, hbuiltin]
  exact Action.perform_bind_of_error hsupply _

/-- The identifier of a schema that is built in. -/
def teiAll : Json := .string "tei_all"

/-- A registry without schemas, over a corpus file and a directory for modules. -/
def library : Registry :=
  start (Path.ofText (Text.ofString "corpus.json")) (Path.ofText (Text.ofString "compiled"))

/-- A world with a corpus file and no others. -/
def corpusWorld (content : Text) : World :=
  ⟨⟨[([Text.ofString "corpus.json"], content)], []⟩, [], []⟩

/-- A corpus with one element. -/
def oneElement : Text := Text.ofString "\x7b\"elements\":[\x7b\"ident\":\"p\"\x7d]\x7d"

/-- The same corpus with half of a surrogate pair for a description. -/
def halfPair : Text :=
  Text.ofString "\x7b\"elements\":[\x7b\"ident\":\"p\",\"shortDesc\":\"\\ud83d\"\x7d]\x7d"

/-- Whether a request for the schema ends with something. -/
def endsWith (w : World) (p : Option RegisteredSchema → World → Bool) : Bool :=
  match (library.get teiAll).perform w with
  | (.error _, w') => p none w'
  | (.ok (entry, _), w') => p (some entry) w'

theorem exists_of_endsWith_none {w : World} {p : World → Bool}
    (h : endsWith w (fun entry w' => entry.isNone && p w') = true) :
    ∃ e w', (library.get teiAll).perform w = (.error e, w') ∧ p w' = true := by
  rw [endsWith] at h
  split at h
  · next e w' hget => exact ⟨e, w', hget, h⟩
  · exact nomatch h

theorem exists_of_endsWith_some {w : World} {p : RegisteredSchema → World → Bool}
    (h : endsWith w (fun entry w' => entry.any (p · w')) = true) :
    ∃ entry r' w', (library.get teiAll).perform w = (.ok (entry, r'), w') ∧ p entry w' = true := by
  rw [endsWith] at h
  split at h
  · exact nomatch h
  · next entry r' w' hget => exact ⟨entry, r', w', hget, h⟩

/-- Whether a schema has a legible module. -/
def dumpsLegibly (s : Schema Json) : Bool :=
  match s.dump with
  | .error _ => false
  | .ok v => v.isLegible Json.deepest

/-- Whether the names in the corpus are texts. -/
def isTextual (w : World) : Bool :=
  match CorpusFile.corpusIn library.corpusPath w.files with
  | .error _ => false
  | .ok corpus => corpus.namesAreTexts

/-- What comes of half of a pair: the request fails, the file for the module is there and can be
written, and with the corpus put right the request fails again. -/
theorem endsWith_halfPair :
    endsWith (corpusWorld halfPair) (fun entry w' => entry.isNone &&
      ((w'.files.has (library.modulePath teiAll)).toOption.getD false &&
        (w'.files.write (library.modulePath teiAll) []).isOk &&
        endsWith { w' with files := w'.files.put [Text.ofString "corpus.json"] oneElement }
          fun entry' _ => entry'.isNone && true)) = true := by
  cbv

/-- With no pair it succeeds, and the schema has a legible module. -/
theorem endsWith_oneElement :
    endsWith (corpusWorld oneElement)
      (fun entry _ => entry.any fun e => dumpsLegibly e.schema) = true := by
  cbv

theorem isTextual_oneElement : isTextual (corpusWorld oneElement) = true := by
  cbv

end Registry

end MarkupGrammar
