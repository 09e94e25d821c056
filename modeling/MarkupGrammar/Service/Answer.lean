import MarkupGrammar.Check.Report
import MarkupGrammar.Declaration.Scan
import MarkupGrammar.Library.Registry
import MarkupGrammar.Module.Statistics
import MarkupGrammar.Service.Request
import MarkupGrammar.Settings

/-!
# The service

The service answers requests about schemas and documents. Its state is a registry, and a request may
add to it. An answer is a status with a JSON value, or a page that holds none.

A request that lacks a field is refused. What goes wrong on the way to an answer is an answer
itself: an unknown schema is not found, a grammar that cannot be imported is the sender's fault,
anything else the server's. Of the server's faults only what is wrong with the corpus as a whole is
told. A fault in the handling of the request itself is not caught: it is a page without a value, or,
while the service is developed, the fault.
-/

namespace MarkupGrammar

/-- An answer. -/
inductive Answer where
  | json (status : Nat) (body : Json)
  | page (status : Nat)
  | broken (f : Fault)

/-- The service: its registry and its settings. -/
structure Service where
  registry : Registry
  settings : Settings
  isDeveloped : Bool

namespace Answer

/-- An answer that says what is wrong. -/
def error (status : Nat) (message : Json) : Answer :=
  .json status (Json.ofFields [("error", message)])

/-- The answer to a request that lacks a field. -/
def missingFields : Answer := error 400 (.string "Missing required fields")

/-- What is told of an error on the server's side. -/
def told (e : AccessError) : Json :=
  match e.message? with
  | none => .null
  | some t => if Text.startsWith (Text.ofString "Corpus ") t then .text t else .null

/-- The answer to an error. -/
def ofError (e : AccessError) : Answer :=
  match e with
  | .unknownSchema _ => error 404 ((e.message?.map Json.text).getD .null)
  | e => error 500 (told e)

/-- The answer to an error in the import of a grammar. An unknown schema is no such error, and
neither is a fault that nobody foresaw. -/
def ofImportError (e : AccessError) : Answer :=
  match e with
  | .grammar (.misnamed _) => error 500 (told e)
  | .grammar g => error 400 (.text g.message)
  | e => error 500 (told e)

/-- The answer without its body. -/
def head : Answer → Answer
  | .json status _ => .page status
  | a => a

end Answer

namespace AttributeSpec

/-- An attribute in an answer: every field is there, and a list without items is null. -/
def toJson (a : AttributeSpec Json) : Json :=
  let listed (values : Option (List Json)) : Json :=
    match values with
    | some (v :: vs) => .array (v :: vs)
    | _ => .null
  Json.ofFields
    [("name", a.name), ("required", .bool a.isRequired), ("values", listed a.values),
     ("suggestedValues", listed a.suggested), ("defaultValue", a.defaultValue.getD .null),
     ("datatype", a.datatype.getD .null), ("documentation", a.documentation.getD .null)]

end AttributeSpec

namespace Service

/-- The configurations of the service, and whether it is developed under them. -/
def configurations : List (String × Bool) := [("development", true), ("production", false)]

/-- A service under a configuration. -/
def start (registry : Registry) (settings : Settings) (configuration : Json) :
    Except Fault Service :=
  let name := match configuration with
    | .null => Json.string "development"
    | v => v
  if !name.isName then .error .wrongKind
  else
    match configurations.find? fun (word, _) => Json.string word == name with
    | some (_, isDeveloped) => .ok ⟨registry, settings, isDeveloped⟩
    | none => .error (.missingField name.plain.asString)

/-- The list of schemas. -/
def listSchemas (s : Service) : Answer :=
  .json 200 (Json.ofFields
    [("schemas", .array (s.registry.list.map SchemaListing.toJson))])

/-- The attributes of an element. -/
def attributes (s : Service) (schemaId elementName : Text) : Action (Answer × Service) := do
  let (entry, registry) ← s.registry.get (.text schemaId)
  let s := { s with registry }
  let name := Json.text elementName
  match entry.schema.element? name with
  | none =>
    return (.error 404 (.text (Text.ofString "Unknown element: " ++ elementName)), s)
  | some _ =>
    let attributes := (entry.schema.attributesOf name).map AttributeSpec.toJson
    return (.json 200 (Json.ofFields
      [("element", name), ("attributes", .array attributes)]), s)

/-- The diagnostics of a document. -/
def diagnose (s : Service) (schemaId : Json) (document : Text) : Action (Answer × Service) := do
  let (entry, registry) ← s.registry.get schemaId
  let s := { s with registry }
  match (entry.schema.validate document).reports s.settings.limits with
  | .error f => return (.ofError (.ofFault f), s)
  | .ok reports =>
    return (.json 200 (Json.ofFields
      [("schema", entry.schema.id), ("diagnostics", .array (reports.map Report.toJson))]), s)

/-- Whether a payload has a field of a name. A list or a text has it when it holds the name; a
number or truth value cannot be asked. -/
def holds (payload : Json) (name : String) : Except Fault Bool :=
  match payload with
  | .object fields => .ok (Json.lookup (Text.ofString name) fields).isSome
  | .array items => .ok (items.elem (Json.string name))
  | .text t => .ok (Text.includes (Text.ofString name) t)
  | _ => .error .wrongKind

/-- Imports the grammar of a payload that has the fields. -/
def importGrammar (s : Service) (payload : Json) : Action (Answer × Service) := do
  match payload.field? "rng", payload.field? "name" with
  | some grammar, some name =>
    let (entry, registry) ← s.registry.importGrammar grammar name
    let s := { s with registry }
    match entry.schema.statistics (some 10) with
    | .error f => return (.ofError (.ofFault f), s)
    | .ok statistics =>
      return (.json 200 (Json.ofFields
        [("id", entry.schema.id), ("name", entry.schema.name), ("stats", statistics.toJson)]), s)
  | _, _ => throw (.ofFault .wrongKind)

/-- The schema declarations of a document. -/
def detect (document : Text) : Answer :=
  let declarations := SchemaDeclaration.ofDocument document
  let analysis := DeclarationAnalysis.ofDeclarations declarations
  .json 200 (Json.ofFields
    [("declarations", .array (declarations.map SchemaDeclaration.toJson)),
     ("warnings", .array (analysis.warnings.map Json.text)),
     ("hasUnsupportedFormat", .bool analysis.hasUnsupportedFormat)])

/-- The document of a payload; nothing when the field is missing. -/
def documentOf (payload : Json) : Except Fault (Option Text) :=
  if payload.isVoid then .ok none else (payload.get "text").map Json.text?

/-- Runs an action that answers; an error is answered too, and leaves the service as it was. -/
def attempt (s : Service) (onError : AccessError → Answer) (action : Action (Answer × Service))
    (w : World) : Answer × Service × World :=
  match action.perform w with
  | (.ok (answer, s), w) => (answer, s, w)
  | (.error e, w) => (onError e, s, w)

/-- Answers a request that leads to a route. -/
def answerRoute (s : Service) (payload : Json) (w : World) : Route → Answer × Service × World
  | .schemas => (s.listSchemas, s, w)
  | .asset => (.page 404, s, w)
  | .attributes schema element => s.attempt .ofError (s.attributes schema element) w
  | .detection =>
    match documentOf payload with
    | .error f => (.broken f, s, w)
    | .ok none => (.missingFields, s, w)
    | .ok (some document) => (detect document, s, w)
  | .validation =>
    match documentOf payload with
    | .error f => (.broken f, s, w)
    | .ok none => (.missingFields, s, w)
    | .ok (some document) =>
      let schema := (payload.field? "schema").bind Json.unlessVoid
      let schemaId := schema.getD (.text s.settings.defaultSchema)
      s.attempt .ofError (s.diagnose schemaId document) w
  | .grammarImport =>
    if payload.isVoid then (.missingFields, s, w)
    else
      match holds payload "rng", holds payload "name" with
      | .ok true, .ok true => s.attempt .ofImportError (s.importGrammar payload) w
      | .ok _, .ok _ => (.missingFields, s, w)
      | .error f, _ => (.broken f, s, w)
      | _, .error f => (.broken f, s, w)

/-- A fault as it is answered: by itself while the service is developed, and else by a page. -/
def shield (s : Service) : Answer → Answer
  | .broken f => if s.isDeveloped then .broken f else .page 500
  | a => a

/-- Answers a request. One that cannot be sent is a fault under every configuration. -/
def answer (s : Service) (r : Request) (w : World) : Answer × Service × World :=
  match r.destination with
  | .error f => (.broken f, s, w)
  | .ok .nowhere => (.page 404, s, w)
  | .ok .wrongMethod => (.page 405, s, w)
  | .ok .wrongScheme => (.page 400, s, w)
  | .ok .elsewhere => (.page 308, s, w)
  | .ok (.route route) =>
    if r.verb = Text.ofString "OPTIONS" then (.page 200, s, w)
    else
      let (answer, s, w) :=
        match r.payload with
        | .ok payload => s.answerRoute payload w route
        | .error f =>
          if route.takesBody then (.broken f, s, w) else s.answerRoute .null w route
      let answer := s.shield answer
      (if r.verb = Text.ofString "HEAD" then answer.head else answer, s, w)

end Service

end MarkupGrammar
