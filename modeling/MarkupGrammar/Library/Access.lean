import MarkupGrammar.Log
import MarkupGrammar.RelaxNg.Compile
import MarkupGrammar.Storage.FileTree

/-!
# Access to files and pages

Schemas and corpora come from files and from the web. An action works on a world of files and pages
and keeps a log. What it did to the files and what it logged stays also when it fails, and a failure
is an `AccessError`.

Some errors are foreseen: the program reports them and ends in order. A fault is not, and neither is
a file of a type that holds no corpus, or a path that no file can have.
-/

namespace MarkupGrammar

/-- Why a schema, a corpus or a file cannot be had. -/
inductive AccessError where
  | read (e : ReadError)
  | grammar (e : RngError)
  | unknownSchema (id : Json)
  | noCorpus (path : Path)
  | unsupportedType (name : Text)
  | file (problem : FileProblem) (path : Path)
  /-- The status of the answer to a download is one of an error. -/
  | refused (status : Nat) (reason url : Text)
  /-- There is no answer to a download. -/
  | unreachable

namespace AccessError

/-- A fault. -/
def ofFault (f : Fault) : AccessError := .read (.fault f)

/-- Whether the error is one that the program reports. -/
def isForeseen : AccessError → Bool
  | .read (.fault _) => false
  | .grammar (.misnamed _) => false
  | .unsupportedType _ => false
  | .file problem _ => problem.number?.isSome
  | _ => true

/-- The wording of an error, where it has one of its own. -/
def message? : AccessError → Option Text
  | .read (.corpus e) => some e.defect.message
  | .read (.fault f) => f.message?
  | .grammar e => some e.message
  | .unknownSchema id => some (Text.ofString "Unknown schema: " ++ id.plain)
  | .noCorpus path => some (Text.ofString "Corpus file not found: " ++ path.toText)
  | .unsupportedType name => some (Text.ofString "Unsupported corpus file type: " ++ name)
  | .file problem path =>
    match problem.number? with
    | none => some (Text.ofString problem.wording)
    | some number =>
      some (Text.ofString "[Errno " ++ Text.ofNat number
        ++ Text.ofString ("] " ++ problem.wording ++ ": ") ++ path.toText.quoted)
  | .refused status reason url =>
    let side := if status < 500 then "Client" else "Server"
    some (Text.ofNat status ++ Text.ofString (" " ++ side ++ " Error: ") ++ reason
      ++ Text.ofString " for url: " ++ url)
  | .unreachable => some (Text.ofString "offline")

end AccessError

/-- What the web answers under an address. -/
structure Page where
  status : Nat
  reason : Text
  body : Text

/-- The files and pages that an action can use, and what has been logged. -/
structure World where
  files : FileTree
  pages : Table Text Page
  log : List LogRecord

/-- An action on a world. -/
abbrev Action (Value : Type) := ExceptT AccessError (StateM World) Value

namespace Action

variable {Value : Type}

/-- Runs an action. -/
def perform (action : Action Value) (w : World) : Except AccessError Value × World :=
  (ExceptT.run action).run w

/-- Logs a record. -/
def record (r : LogRecord) : Action Unit := modify fun w => { w with log := w.log ++ [r] }

/-- Logs a sentence for information. -/
def inform (t : Text) : Action Unit := record (.sentence .info t)

/-- The result of a step that keeps a log of its own. -/
def ofLogged (x : Logged ReadError Value) : Action Value := do
  modify fun w => { w with log := w.log ++ x.log }
  match x.result with
  | .ok v => return v
  | .error e => throw (.read e)

/-- A value, or the fault instead. -/
def ofFault (x : Except Fault Value) : Action Value :=
  match x with
  | .ok v => return v
  | .error f => throw (.ofFault f)

/-- The content of a file. -/
def readFile (path : Path) : Action Text := do
  match (← get).files.read path with
  | .ok content => return content
  | .error problem => throw (.file problem path)

/-- Whether there is a file or directory under a path. -/
def has (path : Path) : Action Bool := do
  match (← get).files.has path with
  | .ok isThere => return isThere
  | .error problem => throw (.file problem path)

/-- Makes a directory and those that it lies in. -/
def makeDirectories (path : Path) : Action Unit := do
  match (← get).files.makeDirectories path with
  | .ok files => modify fun w => { w with files }
  | .error (problem, failed) => throw (.file problem failed)

/-- Writes a file into a directory that exists. -/
def writeFile (path : Path) (content : Text) : Action Unit := do
  match (← get).files.write path content with
  | .ok files => modify fun w => { w with files }
  | .error problem => throw (.file problem path)

/-- The body of a page. Only statuses from 400 to 599 are errors; there are others above them. -/
def download (url : Text) : Action Text := do
  match (← get).pages.find? url with
  | none => throw .unreachable
  | some page =>
    if 400 ≤ page.status && page.status < 600 then throw (.refused page.status page.reason url)
    else return page.body

end Action

end MarkupGrammar
