import MarkupGrammar.Library.Access

/-!
# Loggers

A logger shows records on the console from a threshold on, and may keep all of them in a file. The
file is opened when the logger starts, and what it held before stays in front.
-/

namespace MarkupGrammar

/-- A logger. -/
structure Logger where
  name : Text
  threshold : Int
  file : Option Path

namespace Logger

/-- The levels that a threshold can be given by. -/
def levels : List (String × Int) :=
  [("CRITICAL", 50), ("FATAL", 50), ("ERROR", 40), ("WARN", 30), ("WARNING", 30), ("INFO", 20),
   ("DEBUG", 10), ("NOTSET", 0)]

/-- The threshold that a value gives: a number, or the name of a level in capitals. -/
def thresholdOf (v : Json) : Except Fault Int :=
  match v with
  | .int i => .ok i
  | .bool b => .ok (if b then 1 else 0)
  | .text t =>
    match levels.find? fun (word, _) => Text.ofString word = t with
    | some (_, urgency) => .ok urgency
    | none => .error (.unknownLevel v)
  | _ => .error .wrongKind

/-- Opens the file of a logger. Its path is taken without a look at the files on the way. -/
def openFile (path : Path) : Action Unit := do
  let path := path.collapsed
  match (← get).files.read path with
  | .ok _ => return
  | .error .missing => Action.writeFile path []
  | .error problem => throw (.file problem path)

/-- Starts a logger. -/
def start (name : Text) (level : Json) (file : Option Path) : Action Logger := do
  let threshold ← Action.ofFault (thresholdOf level)
  match file with
  | none => return ⟨name, threshold, none⟩
  | some path =>
    openFile path
    return ⟨name, threshold, some path.collapsed⟩

/-- The lines of a text that are not empty. -/
def linesOf (t : Text) : List Text :=
  (Text.splitOn (CodePoint.ofChar '\n') t).filter fun line => !line.isEmpty

/-- The lines that the console shows of a log. -/
def console (l : Logger) (log : List LogRecord) : List Text :=
  (log.filter fun r => l.threshold ≤ r.level.urgency).flatMap fun r => linesOf r.consoleText

/-- The text that a log adds to the file. -/
def fileText (l : Logger) (log : List LogRecord) : Text :=
  log.flatMap fun r => r.fileText l.name ++ [CodePoint.ofChar '\n']

/-- Adds a log to the file of a logger. -/
def keep (l : Logger) (log : List LogRecord) (files : FileTree) : FileTree :=
  match l.file with
  | none => files
  | some path =>
    let before := (files.read path).toOption.getD []
    match files.write path (before ++ l.fileText log) with
    | .ok files => files
    | .error _ => files

end Logger

end MarkupGrammar
