import MarkupGrammar.Compile.Schema
import MarkupGrammar.Library.CorpusFile
import MarkupGrammar.Library.ModuleFile

/-!
# The registry of schemas

A registry knows schemas by identifier. A schema that is built in is loaded when it is first asked
for: from its module if there is one, and else by compiling the corpus, which leaves a module for
the next time. Grammars can be imported under a name.

Each schema gets a number when it is registered. A module file may say that its schema has another
identifier than the one it was asked for by; it is then registered under its own, and asking again
loads the file again and gives a schema with a number of its own.
-/

namespace MarkupGrammar

/-- A schema with its number. -/
structure RegisteredSchema where
  number : Nat
  schema : Schema Json

/-- The schemas that are loaded, in the order in which their identifiers were first registered, and
where others come from. -/
structure Registry where
  corpusPath : Path
  compiledDir : Path
  schemas : Table Json RegisteredSchema
  registered : Nat

/-- An entry in the list of known schemas. -/
structure SchemaListing where
  id : Json
  name : Json
  isLoaded : Bool

namespace SchemaListing

/-- An entry as a JSON value. -/
def toJson (l : SchemaListing) : Json :=
  Json.ofFields [("id", l.id), ("name", l.name), ("loaded", .bool l.isLoaded)]

end SchemaListing

namespace Registry

/-- A registry without schemas. -/
def start (corpusPath compiledDir : Path) : Registry := ⟨corpusPath, compiledDir, [], 0⟩

/-- The schemas that are built in, each with its name. -/
def builtin : Table Json Json := [(.string "tei_all", .string "TEI All")]

/-- Whether a schema with an identifier is loaded. -/
def isLoaded (r : Registry) (id : Json) : Bool := (r.schemas.find? id).isSome

/-- Registers a schema under its identifier, which has to be a value that can be looked up. -/
def register (r : Registry) (s : Schema Json) : Action (RegisteredSchema × Registry) := do
  if !s.id.isName then throw (.ofFault .wrongKind)
  let entry : RegisteredSchema := ⟨r.registered, s⟩
  Action.record (.sentence .debug
    (Text.ofString "Registered schema " ++ s.id.plain
      ++ Text.ofString (" (" ++ toString s.elements.length ++ " elements)")))
  return (entry, { r with schemas := r.schemas.insert s.id entry, registered := r.registered + 1 })

/-- The file that the module of a schema is kept in. -/
def modulePath (r : Registry) (id : Json) : Path :=
  r.compiledDir.append (id.plain ++ Text.ofString ".json")

/-- The schema of the corpus, whose module is then saved. -/
def compile (r : Registry) (id name : Json) : Action (Schema Json) := do
  let corpus ← CorpusFile.load r.corpusPath
  let s ← Action.ofLogged (compileCorpus corpus id name)
  let path := r.modulePath id
  ModuleFile.save s path .oneLine
  Action.inform (Text.ofString "Cached compiled schema at " ++ path.toText)
  return s

/-- The schema of a module that is there. -/
def readModule (path : Path) : Action (Schema Json) := do
  Action.inform (Text.ofString "Reading compiled schema " ++ path.toText)
  ModuleFile.read path

/-- A schema that is loaded or built in. -/
def get (r : Registry) (id : Json) : Action (RegisteredSchema × Registry) := do
  if !id.isName then throw (.ofFault .wrongKind)
  match r.schemas.find? id with
  | some entry => return (entry, r)
  | none =>
    match builtin.find? id with
    | none => throw (.unknownSchema id)
    | some name =>
      let path := r.modulePath id
      let s ← if ← Action.has path then readModule path else r.compile id name
      r.register s

/-- Imports a grammar under a name. A name that was imported before gives the schema of then, and
the grammar is not looked at. -/
def importGrammar (r : Registry) (grammar name : Json) :
    Action (RegisteredSchema × Registry) := do
  let id := Json.text (Text.ofString "custom_" ++ name.plain)
  match r.schemas.find? id with
  | some entry => return (entry, r)
  | none =>
    match grammar with
    | .text t =>
      match parseRng t with
      | .error e => throw (.grammar e)
      | .ok specs =>
        let s := Schema.ofRng id name specs
        Action.inform (Text.ofString "Imported RELAX NG schema " ++ name.plain
          ++ Text.ofString (": " ++ toString s.elements.length ++ " elements"))
        r.register s
    | _ => throw (.ofFault .noFields)

/-- The known schemas: those built in, loaded or not, and then the others. -/
def list (r : Registry) : List SchemaListing :=
  builtin.map (fun (id, name) => ⟨id, name, r.isLoaded id⟩)
    ++ (r.schemas.filter fun (_, e) => (builtin.find? e.schema.id).isNone).map
      fun (_, e) => ⟨e.schema.id, e.schema.name, true⟩

end Registry

end MarkupGrammar
