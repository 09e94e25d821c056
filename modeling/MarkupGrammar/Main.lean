import MarkupGrammar.Generate.Run

/-!
# The command line

The generator as a program. The files that a run may use are read into a tree, the run is a function
of that tree, and the files that it changed are written back. There is no way to the web from here,
so a corpus has to be there already.
-/

namespace MarkupGrammar

namespace CommandLine

/-- The variables of the environment that are set. -/
def environment : IO (Table Text Text) :=
  Settings.variableNames.filterMapM fun name => do
    return (← IO.getEnv name).map fun value => (Text.ofString name, Text.ofString value)

/-- The tree with what is under a path: the content of a file, a directory, or nothing. -/
def look (files : FileTree) (path : Path) : IO FileTree := do
  try
    let content ← IO.FS.readFile path.toText.asString
    return (files.place path (Text.ofString content)).toOption.getD files
  catch e =>
    match e with
    | .noFileOrDirectory .. => return files
    | _ => return (files.makeDirectories path).toOption.getD files

/-- Writes a file if its content has changed. -/
def store (before after : FileTree) (path : Path) : IO Unit := do
  match after.read path with
  | .error _ => return
  | .ok content =>
    if (before.read path).toOption != some content then
      IO.FS.createDirAll path.parent.toText.asString
      IO.FS.writeFile path.toText.asString content.asString

/-- Shows how a run ended, and gives the exit code of the program. -/
def conclude (run : GenerateRun) : IO UInt32 := do
  let err ← IO.getStderr
  for line in run.console do
    err.putStrLn line.asString
  match run.outcome with
  | .refused => err.putStrLn generateUsage.asString
  | .help => IO.println generateUsage.asString
  | .failed => pure ()
  | .done report => IO.print report.asString
  | .broken e => err.putStrLn (e.message?.getD (Text.ofString "unexpected fault")).asString
  return (run.exitCode?.getD 1).toUInt32

/-- Runs the generator with some arguments. -/
def run (arguments : List String) : IO UInt32 := do
  let base := Path.ofText []
  let environment ← environment
  let arguments := arguments.map Text.ofString
  let paths := Generate.pathsInUse base environment arguments
  let before ← (paths.map Path.parent ++ paths).foldlM look FileTree.empty
  let outcome := Generate.run base environment arguments before []
  for path in paths do
    store before outcome.files path
  conclude outcome

end CommandLine

end MarkupGrammar

/-- The program. -/
def main (arguments : List String) : IO UInt32 := MarkupGrammar.CommandLine.run arguments
