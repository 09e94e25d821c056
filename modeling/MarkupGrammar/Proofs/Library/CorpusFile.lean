import Mathlib
import MarkupGrammar.Library.CorpusFile
import MarkupGrammar.Proofs.Library.Action
import MarkupGrammar.Proofs.Storage.FileTree

/-!
# What a failed download leaves

A corpus that has to be downloaded is fetched in steps: its directory is made, the page is asked
for, the page is stored, and then the file is read. A failure before the page is stored leaves every
file as it was. A failure after that is one of reading, and the page stays: it has taken the place of
the file that was there, and whoever asks for the corpus later gets the same failure, from the file.

## Main results

* `CorpusFile.perform_load` — loading a corpus gives what its file holds and changes nothing
* `CorpusFile.cases_of_perform_fetch` — how far fetching a corpus has come
* `CorpusFile.files_of_fetch_error` — when a failed fetch leaves all files as they were
-/

namespace MarkupGrammar

namespace CorpusFile

variable {path : Path} {url : Option Text} {isForced : Bool} {w w' : World}

/-! ### Loading -/

/-- The corpus that a text holds. -/
def corpusOf (path : Path) (content : Text) : Except AccessError Json :=
  match parse path content with
  | .error e => .error e
  | .ok (.object fields) => .ok (.object fields)
  | .ok _ => .error (.read (.of .rootNotAnObject path.toText))

/-- The corpus that a file holds. -/
def corpusIn (path : Path) (files : FileTree) : Except AccessError Json :=
  match files.has path with
  | .error problem => .error (.file problem path)
  | .ok false => .error (.noCorpus path)
  | .ok true =>
    match files.read path with
    | .error problem => .error (.file problem path)
    | .ok content => corpusOf path content

/-- **Loading a corpus** gives what its file holds and changes nothing. -/
theorem perform_load (path : Path) (w : World) :
    (load path).perform w = (corpusIn path w.files, w) := by
  have hhas := Action.perform_has path w
  rw [load, corpusIn]
  cases hthere : w.files.has path with
  | error problem =>
    rw [hthere] at hhas
    exact Action.perform_bind_of_error hhas _
  | ok isThere =>
    rw [hthere] at hhas
    rw [Action.perform_bind_of_ok hhas]
    cases isThere with
    | false => rfl
    | true =>
      have hread := Action.perform_readFile path w
      cases hcontent : w.files.read path with
      | error problem =>
        rw [hcontent] at hread
        exact Action.perform_bind_of_error hread _
      | ok content =>
        rw [hcontent] at hread
        refine (Action.perform_bind_of_ok hread _).trans ?_
        change _ = (corpusOf path content, w)
        unfold corpusOf
        cases parse path content with
        | error e => rfl
        | ok v => cases v <;> rfl

/-- The corpus of a file that has been put where its path leads. -/
theorem corpusIn_put {t : FileTree} {location : Location} (h : t.LeadsTo path location)
    (content : Text) : corpusIn path (t.put location content) = corpusOf path content := by
  rw [corpusIn, FileTree.has_put h, FileTree.read_put h]

/-! ### Downloading -/

/-- Where a download stores a page: there is an address with the page, its status is none of an
error, and its file can be written once its directory has been made. -/
structure Stores (path : Path) (url : Option Text) (w : World) (page : Page)
    (files : FileTree) (location : Location) : Prop where
  found : ∃ address, url = some address ∧ w.pages.find? address = some page
  accepted : (400 ≤ page.status && page.status < 600) = false
  made : w.files.makeDirectories path.parent = .ok files
  leadsTo : files.LeadsTo path location

/-- A download has failed and left every file as it was, or it has stored a page. -/
theorem cases_of_perform_download {result : Except AccessError Unit}
    (h : (download url path).perform w = (result, w')) :
    (∃ e, result = .error e) ∧ w'.files.files = w.files.files ∨
      result = .ok () ∧ ∃ page files location, Stores path url w page files location ∧
        w' = { w with files := files.put location page.body } := by
  unfold download at h
  have hmade := Action.perform_makeDirectories path.parent w
  cases hfiles : w.files.makeDirectories path.parent with
  | error problem =>
    rw [hfiles] at hmade
    rw [Action.perform_bind_of_error hmade] at h
    obtain ⟨rfl, rfl⟩ := Prod.mk.inj h
    exact Or.inl ⟨⟨_, rfl⟩, rfl⟩
  | ok files =>
  rw [hfiles] at hmade
  rw [Action.perform_bind_of_ok hmade] at h
  have hsame := FileTree.files_of_makeDirectories hfiles
  cases url with
  | none =>
    obtain ⟨rfl, rfl⟩ := Prod.mk.inj h
    exact Or.inl ⟨⟨_, rfl⟩, hsame⟩
  | some address =>
    obtain ⟨e, hpage, rfl⟩ | ⟨body, w₂, hpage, h⟩ := Action.cases_of_perform_bind h
    · rw [Action.perform_download] at hpage
      exact Or.inl ⟨⟨e, rfl⟩, by rw [← (Prod.mk.inj hpage).2, hsame]⟩
    rw [Action.perform_download] at hpage
    obtain ⟨hbody, rfl⟩ := Prod.mk.inj hpage
    split at hbody
    · exact nomatch hbody
    next page hfind =>
    split at hbody
    · exact nomatch hbody
    next haccepted =>
    obtain rfl := Except.ok.inj hbody
    -- from here on the page is written, whatever its body is
    rw [Action.perform_writeFile] at h
    cases hwrite : files.write path page.body with
    | error problem =>
      rw [hwrite] at h
      obtain ⟨rfl, rfl⟩ := Prod.mk.inj h
      exact Or.inl ⟨⟨_, rfl⟩, hsame⟩
    | ok files' =>
      rw [hwrite] at h
      obtain ⟨rfl, rfl⟩ := Prod.mk.inj h
      obtain ⟨location, hleads, rfl⟩ := FileTree.exists_of_write hwrite
      exact Or.inr ⟨rfl, page, files, location,
        ⟨⟨address, rfl, hfind⟩, Bool.eq_false_iff.mpr haccepted, hfiles, hleads⟩, rfl⟩

/-- A page that a download stores is in the file. -/
theorem Stores.perform_download {page : Page} {files : FileTree} {location : Location}
    (h : Stores path url w page files location) :
    (download url path).perform w
      = (.ok (), { w with files := files.put location page.body }) := by
  obtain ⟨⟨address, rfl, hpage⟩, haccepted, hmade, hleads⟩ := h
  have hmake := Action.perform_makeDirectories path.parent w
  rw [hmade] at hmake
  refine (Action.perform_bind_of_ok hmake _).trans ?_
  have hget := Action.perform_download address { w with files }
  simp only [hpage, haccepted] at hget
  refine (Action.perform_bind_of_ok hget _).trans ?_
  rw [Action.perform_writeFile, FileTree.write_of_leadsTo hleads]

/-! ### Fetching -/

theorem perform_isWanted (path : Path) (isForced : Bool) (w : World) :
    (isWanted path isForced).perform w =
      (if isForced then .ok true
        else ((w.files.has path).map fun isThere => !isThere).mapError (.file · path), w) := by
  rw [isWanted]
  cases isForced with
  | true => rfl
  | false =>
    have hhas := Action.perform_has path w
    cases hthere : w.files.has path with
    | error problem =>
      rw [hthere] at hhas
      exact Action.perform_bind_of_error hhas _
    | ok isThere =>
      rw [hthere] at hhas
      exact Action.perform_bind_of_ok hhas _

/-- A corpus that is not wanted from the web is loaded. -/
theorem perform_fetch_of_has (h : w.files.has path = .ok true) (url : Option Text) :
    (fetch path url false).perform w = (corpusIn path w.files, w) := by
  have hwanted := perform_isWanted path false w
  rw [h] at hwanted
  rw [fetch, Action.perform_bind_of_ok hwanted]
  exact perform_load path w

/-- A corpus that is wanted from the web is downloaded, and the page is what is loaded. -/
theorem Stores.perform_fetch {page : Page} {files : FileTree} {location : Location}
    (h : Stores path url w page files location)
    (hwanted : (isWanted path isForced).perform w = (.ok true, w)) :
    (fetch path url isForced).perform w
      = (corpusOf path page.body, { w with files := files.put location page.body }) := by
  rw [fetch, Action.perform_bind_of_ok hwanted]
  refine (Action.perform_bind_of_ok h.perform_download _).trans ?_
  rw [perform_load, corpusIn_put h.leadsTo]

/-- **How far fetching a corpus has come**: it has failed and left every file as it was, or it has
loaded the corpus that was there, or it has stored a page and loaded that. -/
theorem cases_of_perform_fetch {result : Except AccessError Json}
    (h : (fetch path url isForced).perform w = (result, w')) :
    (∃ e, result = .error e) ∧ w'.files.files = w.files.files ∨
      (isWanted path isForced).perform w = (.ok false, w) ∧ result = corpusIn path w.files ∧
        w' = w ∨
      (isWanted path isForced).perform w = (.ok true, w) ∧
        ∃ page files location, Stores path url w page files location ∧
          result = corpusOf path page.body ∧
            w' = { w with files := files.put location page.body } := by
  rw [fetch] at h
  have hworld := perform_isWanted path isForced w
  obtain ⟨e, hwanted, rfl⟩ | ⟨b, w₁, hwanted, h⟩ := Action.cases_of_perform_bind h
  · rw [hwanted] at hworld
    exact Or.inl ⟨⟨e, rfl⟩, by rw [(Prod.mk.inj hworld).2]⟩
  rw [hwanted] at hworld
  obtain ⟨-, rfl⟩ := Prod.mk.inj hworld
  cases b with
  | false =>
    replace h : (load path).perform w₁ = (result, w') := h
    rw [perform_load] at h
    obtain ⟨rfl, rfl⟩ := Prod.mk.inj h
    exact Or.inr (Or.inl ⟨hwanted, rfl, rfl⟩)
  | true =>
    obtain ⟨e, hdownload, rfl⟩ | ⟨_, w₂, hdownload, h⟩ := Action.cases_of_perform_bind h
    · obtain ⟨-, hfiles⟩ | ⟨hok, -⟩ := cases_of_perform_download hdownload
      · exact Or.inl ⟨⟨e, rfl⟩, hfiles⟩
      · exact nomatch hok
    · obtain ⟨⟨_, herror⟩, -⟩ | ⟨-, page, files, location, hstores, rfl⟩ :=
        cases_of_perform_download hdownload
      · exact nomatch herror
      · rw [perform_load, corpusIn_put hstores.leadsTo] at h
        obtain ⟨rfl, rfl⟩ := Prod.mk.inj h
        exact Or.inr (Or.inr ⟨hwanted, page, files, location, hstores, rfl, rfl⟩)

/-- Where fetching a corpus comes to store a page. -/
structure Fetches (path : Path) (url : Option Text) (isForced : Bool) (w : World) (page : Page)
    (location : Location) : Prop where
  wanted : (isWanted path isForced).perform w = (.ok true, w)
  stores : ∃ files, Stores path url w page files location

/-- **When a failed fetch leaves all files as they were**: unless it has stored a page, and the page
is not what the file held before. If it has stored one, then this is the only file that has changed,
the failure is that the page holds no corpus, and later fetches fail with it, whatever the web has by
then, because the page counts as the corpus that is there. -/
theorem files_of_fetch_error {e : AccessError}
    (h : (fetch path url isForced).perform w = (.error e, w')) :
    (w'.files.files = w.files.files ↔
      ∀ page location, Fetches path url isForced w page location →
        w.files.files.find? location = some page.body) ∧
    ∀ page location, Fetches path url isForced w page location →
      w'.files.files = w.files.files.insert location page.body ∧
      corpusOf path page.body = .error e ∧
      ∀ pages url', (fetch path url' false).perform { w' with pages }
        = (.error e, { w' with pages }) := by
  have hstored : ∀ page location, Fetches path url isForced w page location →
      w'.files.files = w.files.files.insert location page.body ∧
      corpusOf path page.body = .error e ∧
      ∀ pages url', (fetch path url' false).perform { w' with pages }
        = (.error e, { w' with pages }) := by
    rintro page location ⟨hwanted, files, hstores⟩
    rw [hstores.perform_fetch hwanted] at h
    obtain ⟨hcorpus, rfl⟩ := Prod.mk.inj h
    have hfiles := FileTree.files_of_makeDirectories hstores.made
    refine ⟨by rw [FileTree.put, hfiles], hcorpus, fun pages url' => ?_⟩
    rw [perform_fetch_of_has (FileTree.has_put hstores.leadsTo _), corpusIn_put hstores.leadsTo,
      hcorpus]
  refine ⟨⟨fun hsame page location hfetches => ?_, fun hbefore => ?_⟩, hstored⟩
  · rw [← hsame, (hstored page location hfetches).1, Table.find?_insert_of_lawful,
      if_pos (beq_self_eq_true location)]
  · obtain ⟨-, hfiles⟩ | ⟨-, -, rfl⟩ | ⟨hwanted, page, files, location, hstores, -, -⟩ :=
      cases_of_perform_fetch h
    · exact hfiles
    · rfl
    · have hfetches : Fetches path url isForced w page location := ⟨hwanted, files, hstores⟩
      rw [(hstored page location hfetches).1, Table.insert_of_find? (hbefore page location hfetches)]

/-! ### A corpus that is lost -/

/-- The path of a corpus. -/
def corpusPath : Path := ⟨[], [Text.ofString "corpus.json"]⟩

/-- The content of a corpus. -/
def oldCorpus : Text := Text.ofString "\x7b\"title\": \"old\"\x7d"

/-- A page that holds no corpus. -/
def badPage : Page := ⟨200, [], Text.ofString "<html>"⟩

/-- A world with the corpus, and with the page under an address. -/
def oldWorld : World where
  files := ⟨[([Text.ofString "corpus.json"], oldCorpus)], []⟩
  pages := [(Text.ofString "http://example.org/c", badPage)]
  log := []

theorem fetches_badPage :
    Fetches corpusPath (some (Text.ofString "http://example.org/c")) true oldWorld badPage
      [Text.ofString "corpus.json"] where
  wanted := rfl
  stores := ⟨oldWorld.files, ⟨⟨_, rfl, by rfl⟩, by rfl, rfl, ⟨by decide +kernel, by
    have h : oldWorld.files.node? [Text.ofString "corpus.json"] = some (.file oldCorpus) := by rfl
    rw [h]
    nofun⟩⟩⟩

theorem corpusOf_badPage :
    corpusOf corpusPath badPage.body = .error (.read (.of .unreadable corpusPath.toText)) := by
  cbv

/-- Asked for again, the page is there no more than the corpus that it has replaced. Under an address
that has no page everything stays as it was. -/
theorem files_of_fetch_error_badPage :
    (∃ e w', (fetch corpusPath (some (Text.ofString "http://example.org/c")) true).perform oldWorld
        = (.error e, w') ∧ (fetch corpusPath none false).perform { w' with pages := [] }
          = (.error e, { w' with pages := [] })) ∧
    ∃ e w', (fetch corpusPath (some (Text.ofString "http://example.org/d")) true).perform oldWorld
        = (.error e, w') ∧ w'.files.files = oldWorld.files.files := by
  obtain ⟨hwanted, files, hstores⟩ := fetches_badPage
  have hlost := hstores.perform_fetch hwanted
  rw [corpusOf_badPage] at hlost
  have hmissing : (fetch corpusPath (some (Text.ofString "http://example.org/d")) true).perform
      oldWorld = (.error .unreachable, oldWorld) := by
    cbv
  refine ⟨⟨_, _, hlost, ((files_of_fetch_error hlost).2 _ _ fetches_badPage).2.2 [] none⟩,
    _, _, hmissing, (files_of_fetch_error hmissing).1.mpr fun page location hfetches => ?_⟩
  obtain ⟨-, -, ⟨address, haddress, hfound⟩, -⟩ := hfetches
  obtain rfl := Option.some.inj haddress
  cases hfound

/-- A corpus that can be read is lost to a page that cannot, when the page is asked for. -/
theorem fetch_loses_corpus :
    ∃ fields e w',
      (load corpusPath).perform oldWorld = (.ok (.object fields), oldWorld) ∧
      (fetch corpusPath (some (Text.ofString "http://example.org/c")) true).perform oldWorld
        = (.error e, w') ∧
      oldWorld.files.read corpusPath = .ok oldCorpus ∧
      w'.files.read corpusPath = .ok badPage.body ∧ badPage.body ≠ oldCorpus := by
  obtain ⟨hwanted, files, hstores⟩ := fetches_badPage
  have hlost := hstores.perform_fetch hwanted
  rw [corpusOf_badPage] at hlost
  have hloaded : corpusIn corpusPath oldWorld.files
      = .ok (.object [(Text.ofString "title", .string "old")]) := by
    cbv
  refine ⟨_, _, _, by rw [perform_load, hloaded], hlost, by rfl,
    FileTree.read_put hstores.leadsTo _, by decide +kernel⟩

end CorpusFile

end MarkupGrammar
