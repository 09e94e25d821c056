import MarkupGrammar.Json.Reader
import MarkupGrammar.Library.Access
import MarkupGrammar.Yaml.Value

/-!
# Corpus files

A corpus is a file in JSON or YAML, told apart by the suffix of its name. It may be downloaded: the
page is stored as it is before it is read, so a page that is no corpus stays in the file.
-/

namespace MarkupGrammar

namespace CorpusFile

/-- The value in a corpus file, by the file's suffix. -/
def parse (path : Path) (content : Text) : Except AccessError Json :=
  let unreadable : AccessError := .read (.of .unreadable path.toText)
  let suffix := path.suffix
  if suffix = Text.ofString ".json" then
    (Json.parse content).mapError fun e =>
      match e with
      | .malformed => unreadable
      | e => .ofFault (.ofJson e)
  else if suffix = Text.ofString ".yml" || suffix = Text.ofString ".yaml" then
    (Yaml.parse content).mapError fun e =>
      match Fault.ofYaml? e with
      | none => unreadable
      | some fault => .ofFault fault
  else .error (.unsupportedType path.name)

/-- Loads a corpus. -/
def load (path : Path) : Action Json := do
  if !(← Action.has path) then throw (.noCorpus path)
  match ← parse path (← Action.readFile path) with
  | .object fields => return .object fields
  | _ => throw (.read (.of .rootNotAnObject path.toText))

/-- Stores a page in a file. The directory of the file is made before the page is asked for, and so
before it shows that there is no address to ask. -/
def download (url : Option Text) (path : Path) : Action Unit := do
  Action.makeDirectories path.parent
  let some url := url | throw (.ofFault .wrongKind)
  let body ← Action.download url
  Action.writeFile path body

/-- Whether a corpus has to be downloaded. Nobody looks for a file that is replaced anyway. -/
def isWanted (path : Path) (isForced : Bool) : Action Bool := do
  if isForced then return true
  return !(← Action.has path)

/-- Loads a corpus, and downloads it before if it is not there or if that is asked for. -/
def fetch (path : Path) (url : Option Text) (isForced : Bool) : Action Json := do
  if ← isWanted path isForced then download url path
  load path

end CorpusFile

end MarkupGrammar
