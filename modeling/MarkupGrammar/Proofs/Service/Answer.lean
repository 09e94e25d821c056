import Mathlib
import MarkupGrammar.Service.Answer
import MarkupGrammar.Proofs.Library.Action

/-!
# What a posted document is answered

Two routes take a document: one looks for its schema declarations, the other validates it. Both
first take the document out of the payload, and this step stands outside the part that answers
errors. It is made for objects. A payload that is void counts as one without a document, but of any
other value a field cannot be asked, and the fault is not answered.

Behind this step nothing is left unanswered: whatever the registry has to do to find a schema, and
however that ends, there is an answer with a value.

## Main results

* `Service.cases_of_documentOf` — which payloads have a document, lack one, or are a fault
* `Service.exists_validation` — a validation ends well, or as an error on the server's side
* `Service.answer_document` — the status of the answer to any posted value
-/

namespace MarkupGrammar

namespace Json

/-- A payload with a document: an object with a text under `text`. -/
def HasDocument (v : Json) (document : Text) : Prop :=
  ∃ fields, v = .object fields ∧ lookup (Text.ofString "text") fields = some (.text document)

/-- A payload that can be asked for a document: an object, or nothing. -/
def IsAskable (v : Json) : Prop := v.isVoid = true ∨ ∃ fields, v = .object fields

end Json

namespace Service

/-! ### The document of a payload -/

theorem documentOf_object (fields : List (Text × Json)) :
    documentOf (.object fields)
      = .ok ((Json.lookup (Text.ofString "text") fields).bind Json.text?) := by
  rw [documentOf]
  split
  · next hvoid =>
    obtain rfl : fields = [] := List.isEmpty_iff.mp hvoid
    rfl
  · show Except.ok ((Json.lookup (Text.ofString "text") fields).getD .null).text? = _
    cases Json.lookup (Text.ofString "text") fields <;> rfl

theorem hasDocument_iff {v : Json} {document : Text} :
    v.HasDocument document ↔ documentOf v = .ok (some document) := by
  constructor
  · rintro ⟨fields, rfl, hlookup⟩
    rw [documentOf_object, hlookup]
    rfl
  · intro h
    cases v with
    | object fields =>
      rw [documentOf_object] at h
      obtain ⟨found, hlookup, htext⟩ := Option.bind_eq_some_iff.mp (Except.ok.inj h)
      cases found with
      | text t =>
        obtain rfl := Option.some.inj htext
        exact ⟨fields, rfl, hlookup⟩
      | _ => exact nomatch htext
    | _ =>
      rw [documentOf] at h
      split at h <;> cases h

/-- **A document is asked of objects.** A void payload has none, and any other value is a fault. -/
theorem cases_of_documentOf (v : Json) :
    (v.IsAskable ∧ ∃ document?, documentOf v = .ok document?) ∨
      ¬ v.IsAskable ∧ documentOf v = .error .noFields := by
  cases hvoid : v.isVoid with
  | true =>
    refine Or.inl ⟨Or.inl hvoid, none, ?_⟩
    rw [documentOf, if_pos hvoid]
  | false =>
    cases v with
    | object fields => exact Or.inl ⟨Or.inr ⟨fields, rfl⟩, _, documentOf_object fields⟩
    | _ =>
      refine Or.inr ⟨?_, ?_⟩
      · rintro (hvoid' | ⟨fields, hfields⟩)
        · exact Bool.false_ne_true (hvoid.symm.trans hvoid')
        · exact nomatch hfields
      · rw [documentOf, if_neg (by simp [hvoid])]
        rfl

/-! ### Validation -/

/-- The schema that a payload asks for; the default one when it names none. -/
def schemaAsked (s : Service) (payload : Json) : Json :=
  ((payload.field? "schema").bind Json.unlessVoid).getD (.text s.settings.defaultSchema)

/-- An error is answered with a value: not found for a schema that is not known, and else as one on
the server's side. -/
theorem exists_ofError (e : AccessError) :
    ∃ status body, Answer.ofError e = .json status body ∧ (status = 404 ∨ status = 500) ∧
      (status = 404 ↔ ∃ id, e = .unknownSchema id) := by
  cases e with
  | unknownSchema id => exact ⟨404, _, rfl, Or.inl rfl, iff_of_true rfl ⟨id, rfl⟩⟩
  | _ => exact ⟨500, _, rfl, Or.inr rfl, iff_of_false (by decide) nofun⟩

/-- **A validation is answered,** whatever the registry does to find the schema. It is not found
exactly when the registry does not know it. -/
theorem exists_validation (s : Service) (schemaId : Json) (document : Text) (w : World) :
    ∃ status body, (s.attempt .ofError (s.diagnose schemaId document) w).1 = .json status body ∧
      (status = 200 ∨ status = 404 ∨ status = 500) ∧
      (status = 404 ↔
        ∃ id, ((s.registry.get schemaId).perform w).1 = .error (.unknownSchema id)) := by
  rw [attempt, diagnose]
  cases hget : (s.registry.get schemaId).perform w with
  | mk result w₁ =>
    cases result with
    | error e =>
      obtain ⟨status, body, hanswer, hstatus, hiff⟩ := exists_ofError e
      rw [Action.perform_bind_of_error hget]
      refine ⟨status, body, hanswer, Or.inr hstatus, hiff.trans ?_⟩
      exact exists_congr fun id => ⟨fun h => h ▸ rfl, Except.error.inj⟩
    | ok found =>
      obtain ⟨entry, registry⟩ := found
      rw [Action.perform_bind_of_ok hget]
      cases hreports : (entry.schema.validate document).reports s.settings.limits with
      | error f =>
        obtain ⟨status, body, hanswer, hstatus, hiff⟩ := exists_ofError (.ofFault f)
        simp only [hreports]
        refine ⟨status, body, hanswer, Or.inr hstatus, hiff.trans (iff_of_false ?_ nofun)⟩
        rintro ⟨id, hid⟩
        exact nomatch hid
      | ok reports =>
        simp only [hreports]
        exact ⟨200, _, rfl, Or.inl rfl, iff_of_false (by decide) nofun⟩

/-! ### Posted payloads -/

/-- Whether a route takes a document. -/
def takesDocument (route : Route) : Prop := route = .detection ∨ route = .validation

/-- What is answered on a route that takes a document to a payload that can be asked for one. -/
theorem exists_answerRoute (s : Service) {payload : Json} (h : payload.IsAskable) (w : World)
    {route : Route} (hroute : takesDocument route) :
    ∃ status body, (s.answerRoute payload w route).1 = .json status body ∧
      (status = 200 ∨ status = 400 ∨ status = 404 ∨ status = 500) ∧
      (status = 400 ↔ ¬ ∃ document, payload.HasDocument document) ∧
      (status = 404 ↔ route = .validation ∧ (∃ document, payload.HasDocument document) ∧
        ∃ id, ((s.registry.get (s.schemaAsked payload)).perform w).1
          = .error (.unknownSchema id)) := by
  obtain ⟨-, document?, hdocument⟩ | ⟨hnot, -⟩ := cases_of_documentOf payload
  · cases document? with
    | none =>
      have hnone : ¬ ∃ document, payload.HasDocument document := by
        rintro ⟨document, hhas⟩
        rw [hasDocument_iff, hdocument] at hhas
        cases hhas
      have hanswer : (s.answerRoute payload w route).1 = .missingFields := by
        rcases hroute with rfl | rfl <;> rw [answerRoute, hdocument]
      exact ⟨400, _, hanswer, Or.inr (Or.inl rfl), iff_of_true rfl hnone,
        iff_of_false (by decide) fun h => hnone h.2.1⟩
    | some document =>
      have hhas : ∃ document, payload.HasDocument document :=
        ⟨document, hasDocument_iff.mpr hdocument⟩
      rcases hroute with rfl | rfl
      · obtain ⟨body, hbody⟩ : ∃ body, detect document = .json 200 body := ⟨_, rfl⟩
        refine ⟨200, body, ?_, Or.inl rfl, iff_of_false (by decide) (not_not_intro hhas),
          iff_of_false (by decide) nofun⟩
        rw [answerRoute, hdocument]
        exact hbody
      · obtain ⟨status, body, hanswer, hstatus, hunknown⟩ :=
          s.exists_validation (s.schemaAsked payload) document w
        refine ⟨status, body, ?_, ?_, iff_of_false ?_ (not_not_intro hhas), ?_⟩
        · rw [answerRoute, hdocument]
          exact hanswer
        · omega
        · omega
        · rw [hunknown]
          exact ⟨fun hid => ⟨rfl, hhas, hid⟩, fun hid => hid.2.2⟩
  · exact absurd h hnot

/-- What is answered to another payload is its fault. -/
theorem answerRoute_of_not_isAskable (s : Service) {payload : Json} (h : ¬ payload.IsAskable)
    (w : World) {route : Route} (hroute : takesDocument route) :
    s.answerRoute payload w route = (.broken .noFields, s, w) := by
  obtain ⟨hask, -⟩ | ⟨-, hfault⟩ := cases_of_documentOf payload
  · exact absurd hask h
  · rcases hroute with rfl | rfl <;> rw [answerRoute, hfault]

/-- A posted request is answered on its route; a payload that cannot be read is a fault. -/
theorem answer_of_post (s : Service) {r : Request} {route : Route} (w : World)
    (hroute : takesDocument route) (hdestination : r.destination = .ok (.route route))
    (hverb : r.verb = Text.ofString "POST") :
    (∀ v, r.payload = .ok v → s.answer r w
      = ((s.answerRoute v w route).2.1.shield (s.answerRoute v w route).1,
          (s.answerRoute v w route).2)) ∧
    ∀ f, r.payload = .error f → s.answer r w = (s.shield (.broken f), s, w) := by
  have hoptions : r.verb ≠ Text.ofString "OPTIONS" := by
    rw [hverb]
    decide
  have hhead : r.verb ≠ Text.ofString "HEAD" := by
    rw [hverb]
    decide
  have htakes : route.takesBody = true := by rcases hroute with rfl | rfl <;> decide
  refine ⟨fun v hv => ?_, fun f hf => ?_⟩
  · rw [answer, hdestination]
    simp only [if_neg hoptions, if_neg hhead, hv]
  · rw [answer, hdestination]
    simp only [if_neg hoptions, if_neg hhead, hf, htakes, if_true]

/-- **Every posted payload that can be asked for a document is answered** with a value, in every
state of the service and of the files. The status is 400 exactly when the payload is no object with
a text for a document, and 404 exactly when a validation is asked for by a schema that the registry
does not know; everything else that goes wrong is 500. Only a payload that can be asked for nothing,
or that is nested too deeply to be read, is not answered: then nothing changes, and the fault is a
page, or itself while the service is developed. -/
theorem answer_document (s : Service) {r : Request} {route : Route} (w : World)
    (hroute : takesDocument route) (hdestination : r.destination = .ok (.route route))
    (hverb : r.verb = Text.ofString "POST") :
    (∀ v, r.payload = .ok v → v.IsAskable → ∃ status body,
      (s.answer r w).1 = .json status body ∧
      (status = 200 ∨ status = 400 ∨ status = 404 ∨ status = 500) ∧
      (status = 400 ↔ ¬ ∃ document, v.HasDocument document) ∧
      (status = 404 ↔ route = .validation ∧ (∃ document, v.HasDocument document) ∧
        ∃ id, ((s.registry.get (s.schemaAsked v)).perform w).1 = .error (.unknownSchema id))) ∧
    (∀ v, r.payload = .ok v → ¬ v.IsAskable →
      s.answer r w = (s.shield (.broken .noFields), s, w)) ∧
    ∀ f, r.payload = .error f → s.answer r w = (s.shield (.broken f), s, w) := by
  obtain ⟨hread, hunread⟩ := answer_of_post s w hroute hdestination hverb
  refine ⟨fun v hv hask => ?_, fun v hv hnot => ?_, hunread⟩
  · obtain ⟨status, body, hanswer, hrest⟩ := s.exists_answerRoute hask w hroute
    refine ⟨status, body, ?_, hrest⟩
    rw [hread v hv, hanswer]
    rfl
  · rw [hread v hv, s.answerRoute_of_not_isAskable hnot w hroute]

/-- A request that posts a JSON text. -/
def posting (target body : String) : Request where
  method := Text.ofString "POST"
  target := Text.ofString target
  contentType := some (Text.ofString "application/json")
  body := Text.ofString body

/-- Whether a request leads to a route. -/
def leadsTo (r : Request) (route : Route) : Bool :=
  match r.destination with
  | .ok (.route found) => found = route
  | _ => false

theorem destination_of_leadsTo {r : Request} {route : Route} (h : leadsTo r route = true) :
    r.destination = .ok (.route route) := by
  rw [leadsTo] at h
  split at h
  · next found hfound =>
    rw [hfound, of_decide_eq_true h]
  · cases h

/-- A service in use, without schemas. -/
def bare : Service :=
  ⟨Registry.start (Path.ofText (Text.ofString "corpus.json"))
      (Path.ofText (Text.ofString "compiled")),
    Settings.standard (Path.ofText []), false⟩

/-- A world without files and pages. -/
def emptyWorld : World := ⟨FileTree.empty, [], []⟩

/-- A document that is to be validated by a schema that nobody knows. -/
def unknownSchemaAsked : Request :=
  posting "/api/validate" "\x7b\"text\": \"<a/>\", \"schema\": \"none\"\x7d"

/-- The schema is not found, and this is answered. -/
theorem answer_document_unknownSchema :
    takesDocument .validation ∧
      unknownSchemaAsked.destination = .ok (.route .validation) ∧
      unknownSchemaAsked.verb = Text.ofString "POST" ∧
      ∃ v, unknownSchemaAsked.payload = .ok v ∧ v.IsAskable ∧
        ∃ body, (bare.answer unknownSchemaAsked emptyWorld).1 = .json 404 body := by
  have hdestination : unknownSchemaAsked.destination = .ok (.route .validation) :=
    destination_of_leadsTo (by decide +kernel)
  have hverb : unknownSchemaAsked.verb = Text.ofString "POST" := by decide +kernel
  have hpayload : unknownSchemaAsked.payload = .ok (.object
      [(Text.ofString "text", .string "<a/>"), (Text.ofString "schema", .string "none")]) := by
    cbv
  have hask : Json.IsAskable (.object
      [(Text.ofString "text", .string "<a/>"), (Text.ofString "schema", .string "none")]) :=
    Or.inr ⟨_, rfl⟩
  obtain ⟨status, body, hanswer, -, -, hunknown⟩ :=
    (answer_document bare emptyWorld (Or.inr rfl) hdestination hverb).1 _ hpayload hask
  have hstatus : status = 404 :=
    hunknown.mpr ⟨rfl, ⟨Text.ofString "<a/>", _, rfl, rfl⟩, .string "none", rfl⟩
  exact ⟨Or.inr rfl, hdestination, hverb, _, hpayload, hask, body, hstatus ▸ hanswer⟩

/-- A posted array is not answered with a value: it is a fault, which becomes a page while the
service is in use. -/
theorem answers_page_array :
    (posting "/api/detect" "[1]").destination = .ok (.route .detection) ∧
      (posting "/api/detect" "[1]").payload = .ok (.array [.int 1]) ∧
      bare.answer (posting "/api/detect" "[1]") emptyWorld = (.page 500, bare, emptyWorld) ∧
      ∀ status body,
        (bare.answer (posting "/api/detect" "[1]") emptyWorld).1 ≠ .json status body := by
  have hdestination : (posting "/api/detect" "[1]").destination = .ok (.route .detection) :=
    destination_of_leadsTo (by decide +kernel)
  have hpayload : (posting "/api/detect" "[1]").payload = .ok (.array [.int 1]) := by cbv
  have hnot : ¬ Json.IsAskable (.array [.int 1]) := by
    rintro (hvoid | ⟨fields, hfields⟩)
    · cases hvoid
    · cases hfields
  have hanswer : bare.answer (posting "/api/detect" "[1]") emptyWorld
      = (.page 500, bare, emptyWorld) := by
    rw [(answer_of_post bare emptyWorld (Or.inl rfl) hdestination (by decide +kernel)).1 _ hpayload,
      bare.answerRoute_of_not_isAskable hnot emptyWorld (Or.inl rfl)]
    rfl
  refine ⟨hdestination, hpayload, hanswer, fun status body hjson => ?_⟩
  rw [hanswer] at hjson
  cases hjson

end Service

end MarkupGrammar
