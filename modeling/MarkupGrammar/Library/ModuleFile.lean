import MarkupGrammar.Json.Printer
import MarkupGrammar.Json.Reader
import MarkupGrammar.Library.Access
import MarkupGrammar.Module.Load

/-!
# Module files

A compiled module is kept in a file. The file is made first and then written piece by piece. So a
schema that has no module leaves an empty file, and a text that cannot be encoded leaves what came
before its piece.
-/

namespace MarkupGrammar

namespace ModuleFile

/-- The pieces before the first that cannot be encoded, joined, and whether there are no others. -/
def encodable : List Text → Text × Bool
  | [] => ([], true)
  | piece :: pieces =>
    if piece.any CodePoint.isSurrogate then ([], false)
    else
      let (t, isAll) := encodable pieces
      (piece ++ t, isAll)

/-- Saves the module of a schema. -/
def save (s : Schema Json) (path : Path) (layout : Json.Layout) : Action Unit := do
  Action.makeDirectories path.parent
  Action.writeFile path []
  let v ← Action.ofFault s.dump
  let (content, isAll) := encodable (Json.pieces layout v)
  Action.writeFile path content
  if !isAll then throw (.ofFault .unencodable)

/-- Reads the schema of a module. -/
def read (path : Path) : Action (Schema Json) := do
  match Json.parse (← Action.readFile path) with
  | .error e => throw (.ofFault (.ofJson e))
  | .ok v =>
    match Module.load v with
    | .ok s => return s
    | .error e => throw (.read e)

end ModuleFile

end MarkupGrammar
