import MarkupGrammar.Check.Session
import MarkupGrammar.Proofs.Check.Access
import MarkupGrammar.Proofs.Check.Run
import MarkupGrammar.Proofs.Check.Tree

/-!
# Documents in one session

A session keeps a stack of open elements and a list of reports, and both are there when the next
document comes. The reports stay, but no element does: a document that ends inside its elements has
them reported and closed, whatever the tags before. So each document is checked as if it were the
first, and the answer to it is what has been reported so far with its own reports behind.

All this needs a check that does not break off. It breaks off only where a message would have to
list what is no text, and there is nothing of the kind in a schema whose enumerated values and
required children are texts.

## Main definitions

* `Schema.IsWorded` — a schema whose lists of values and children can be shown
* `Session.after` — a session after some documents

## Main results

* `Schema.IsWorded.exists_reports` — every document has its reports
* `Session.run_eq` — a run from any open elements
* `Schema.IsWorded.session_eq` — what is open and what is answered, document by document
-/

namespace MarkupGrammar

variable {Name : Type} [Label Name]

/-! ### Wording -/

/-- A schema whose messages can list its names: the values that attributes enumerate, and the
children that models require. -/
structure Schema.IsWorded (s : Schema Name) : Prop where
  values : ∀ name, ∀ a ∈ s.attributesOf name, ∀ allowed ∈ a.values, ∀ v ∈ allowed,
    ∃ t, Label.text? v = some t
  children : ∀ name, ∀ e ∈ s.element? name, ∀ m ∈ e.model?, ∀ c ∈ m.requiredChildren,
    ∃ t, Label.text? c = some t

/-- Where all names are texts, they can be listed. -/
theorem Schema.isWorded (s : Schema Text) : s.IsWorded where
  values _ _ _ _ _ v _ := ⟨v, rfl⟩
  children _ _ _ _ _ c _ := ⟨c, rfl⟩

/-- What the check of some tags lists are values and children of the schema. -/
theorem Schema.IsWorded.text?_of_mem_listed {s : Schema Name} (hs : s.IsWorded) {tags : List Tag}
    {d : Diagnostic Name} (hd : d ∈ s.checkTags tags) :
    ∀ n ∈ d.finding.listed, ∃ t, Label.text? n = some t := by
  intro n hn
  cases Schema.listsFrom_of_mem_checkTags hd with
  | values _ _ _ h =>
    obtain ⟨spec, hspec, hvalues⟩ := h.enumerates
    exact hs.values _ spec (List.mem_of_find?_eq_some hspec) _ hvalues n hn
  | children _ hm =>
    obtain ⟨e, he, hm⟩ := Option.bind_eq_some_iff.mp hm
    exact hs.children _ e he _ hm n hn
  | nothing hplain =>
    rw [hplain.1] at hn
    exact absurd hn List.not_mem_nil

/-- **Every document has its reports,** up to limits that are integers. -/
theorem Schema.IsWorded.exists_reports {s : Schema Name} (hs : s.IsWorded) (values children : Int)
    (document : Text) :
    ∃ reports, (Validation.checked (s.checkStructure document)).reports
      ⟨some values, some children⟩ = .ok reports :=
  exists_mapM_of_forall fun _ hd =>
    Diagnostic.exists_report values children (hs.text?_of_mem_listed hd)

/-! ### One run -/

namespace Session

variable {limits : PreviewLimits} {s : Schema Name}

/-- Diagnostics that can be worded are reported to the last. -/
theorem reportAll_eq {ds : List (Diagnostic Name)} {reports : List Report}
    (h : ds.mapM (Diagnostic.report limits) = .ok reports) :
    reportAll limits ds = (reports, none) := by
  induction ds generalizing reports with
  | nil =>
    obtain rfl := Except.ok.inj h
    rfl
  | cons d ds ih =>
    rw [List.mapM_cons] at h
    obtain ⟨r, hr, h⟩ := exists_of_bind_eq_ok h
    obtain ⟨rs, hrs, h⟩ := exists_of_bind_eq_ok h
    obtain rfl := Except.ok.inj h
    rw [reportAll, hr]
    simp only [ih hrs]

/-- **A run from any open elements** reports what the pass over the tags does, and leaves none of
them open. -/
theorem run_eq {stack : OpenTags Name} {tags : List Tag} {reports : List Report}
    (h : (s.walk stack tags).mapM (Diagnostic.report limits) = .ok reports)
    (reported : List Report) :
    run limits s ⟨stack, reported⟩ tags = (⟨[], reported ++ reports⟩, .ok (reported ++ reports)) := by
  -- tag by tag: what is reported of one is behind what was reported before
  induction tags generalizing stack reports reported with
  | nil =>
    rw [Schema.walk] at h
    rw [run]
    simp only [reportAll_eq h]
  | cons tag tags ih =>
    rw [Schema.walk, List.mapM_append] at h
    obtain ⟨first, hfirst, h⟩ := exists_of_bind_eq_ok h
    obtain ⟨others, hothers, h⟩ := exists_of_bind_eq_ok h
    obtain rfl := Except.ok.inj h
    have hrest := ih hothers (reported ++ first)
    rw [run]
    simp only [reportAll_eq hfirst, hrest, List.append_assoc]

/-! ### Documents one after the other -/

/-- The session after some documents. -/
def after (limits : PreviewLimits) (s : Schema Name) (session : Session Name)
    (documents : List Text) : Session Name :=
  documents.foldl (fun session document => (session.run limits s (Tag.ofText document)).1) session

theorem length_runAll (limits : PreviewLimits) (s : Schema Name) (session : Session Name)
    (documents : List Text) : (runAll limits s session documents).length = documents.length := by
  induction documents generalizing session with
  | nil => rfl
  | cons document documents ih =>
    rw [runAll, List.length_cons, List.length_cons, ih]

section Reports

variable {reportsOn : Text → List Report}
  (h : ∀ document, (Validation.checked (s.checkStructure document)).reports limits
    = .ok (reportsOn document))

include h

/-- A document that comes when nothing is open is checked as if it were the first. -/
theorem run_document (reported : List Report) (document : Text) :
    run limits s ⟨[], reported⟩ (Tag.ofText document)
      = (⟨[], reported ++ reportsOn document⟩, .ok (reported ++ reportsOn document)) :=
  run_eq (h document) reported

theorem after_eq (reported : List Report) (documents : List Text) :
    after limits s ⟨[], reported⟩ documents = ⟨[], reported ++ documents.flatMap reportsOn⟩ := by
  induction documents generalizing reported with
  | nil => rw [List.flatMap_nil, List.append_nil]; rfl
  | cons document documents ih =>
    have hrest := ih (reported ++ reportsOn document)
    rw [List.append_assoc, ← List.flatMap_cons] at hrest
    rw [after, List.foldl_cons, run_document h]
    exact hrest

theorem getElem?_runAll (reported : List Report) {documents : List Text} {k : Nat}
    (hk : k < documents.length) :
    (runAll limits s ⟨[], reported⟩ documents)[k]?
      = some (.ok (reported ++ (documents.take (k + 1)).flatMap reportsOn)) := by
  induction documents generalizing reported k with
  | nil => exact absurd hk (Nat.not_lt_zero k)
  | cons document documents ih =>
    rw [runAll, run_document h, List.take_succ_cons, List.flatMap_cons]
    cases k with
    | zero => simp
    | succ k =>
      have hrest := ih (reported ++ reportsOn document) (Nat.lt_of_succ_lt_succ hk)
      rw [List.append_assoc] at hrest
      exact hrest

end Reports

end Session

/-- **Documents of one session do not influence each other.** Whatever the schema, the limits and
the documents, however broken: no element is open after any of the documents, and the answer to
each is the reports on all documents so far, one after the other, as each of them has them on its
own. -/
theorem Schema.IsWorded.session_eq {s : Schema Name} (hs : s.IsWorded) (values children : Int)
    (documents : List Text) :
    ∃ reportsOn : Text → List Report,
      (∀ document, (Validation.checked (s.checkStructure document)).reports
        ⟨some values, some children⟩ = .ok (reportsOn document)) ∧
      (Session.runAll ⟨some values, some children⟩ s .start documents).length = documents.length ∧
      ∀ k < documents.length,
        Session.after ⟨some values, some children⟩ s .start (documents.take (k + 1))
          = ⟨[], (documents.take (k + 1)).flatMap reportsOn⟩ ∧
        (Session.runAll ⟨some values, some children⟩ s .start documents)[k]?
          = some (.ok ((documents.take (k + 1)).flatMap reportsOn)) := by
  choose reportsOn hreports using fun document => hs.exists_reports values children document
  refine ⟨reportsOn, hreports, Session.length_runAll _ _ _ _, fun k hk => ⟨?_, ?_⟩⟩
  · exact Session.after_eq hreports [] _
  · exact Session.getElem?_runAll hreports [] hk

/-- A list that is left open, and then one that begins with a closing tag: the second is not closed
by what the first has left. -/
theorem session_eq_lists :
    ∃ reportsOn : Text → List Report,
      (∀ document, (Validation.checked (Schema.lists.checkStructure document)).reports
        ⟨some 5, some 3⟩ = .ok (reportsOn document)) ∧
      Session.after ⟨some 5, some 3⟩ Schema.lists .start
          [Text.ofString "<list><item>", Text.ofString "</item></list>"]
        = ⟨[], reportsOn (Text.ofString "<list><item>")
            ++ reportsOn (Text.ofString "</item></list>")⟩ ∧
      (Session.runAll ⟨some 5, some 3⟩ Schema.lists .start
          [Text.ofString "<list><item>", Text.ofString "</item></list>"])[0]?
        = some (.ok (reportsOn (Text.ofString "<list><item>"))) := by
  obtain ⟨reportsOn, hreports, -, h⟩ := Schema.lists.isWorded.session_eq 5 3
    [Text.ofString "<list><item>", Text.ofString "</item></list>"]
  refine ⟨reportsOn, hreports, (h 1 (by decide)).1.trans ?_, (h 0 (by decide)).2.trans ?_⟩
  · simp
  · simp

end MarkupGrammar
