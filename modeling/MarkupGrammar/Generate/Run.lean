import MarkupGrammar.Generate.Arguments
import MarkupGrammar.Library.CorpusFile
import MarkupGrammar.Library.Logger
import MarkupGrammar.Library.ModuleFile
import MarkupGrammar.Module.Statistics

/-!
# The generator

The generator compiles a corpus to a module, downloading the corpus if need be, and reports what is
in the schema. What goes wrong with the corpus is logged, and the run has failed; what goes wrong
after that, or is not foreseen, breaks the run off.
-/

namespace MarkupGrammar

/-- How a run of the generator ends. -/
inductive GenerateOutcome where
  /-- The arguments cannot be used. -/
  | refused
  /-- Help was asked for. -/
  | help
  /-- There is no schema, and the log says why. -/
  | failed
  /-- The module is written; the report is for the reader. -/
  | done (report : Text)
  | broken (e : AccessError)

/-- A run of the generator: its end, the files after it, and what the console showed. -/
structure GenerateRun where
  outcome : GenerateOutcome
  files : FileTree
  console : List Text

namespace GenerateRun

/-- The exit code; a run that breaks off has none. -/
def exitCode? (r : GenerateRun) : Option Nat :=
  match r.outcome with
  | .refused => some 2
  | .help => some 0
  | .failed => some 1
  | .done _ => some 0
  | .broken _ => none

end GenerateRun

namespace Generate

/-- One line for each entry of a ranking. -/
def ranking (title : String) (unit : String) (entries : List (Json × Nat)) : List Text :=
  [[], Text.ofString title]
    ++ entries.map fun (name, n) =>
      Text.ofString "  " ++ name.plain ++ Text.ofString ": " ++ Text.ofNat n
        ++ Text.ofString (" " ++ unit)

/-- The report on a schema whose module is in a file. -/
def report (path : Path) (s : SchemaStatistics) : Text :=
  let count (label : String) (n : Nat) : Text := Text.ofString ("  " ++ label ++ ": ") ++ Text.ofNat n
  let lines :=
    [[], Text.ofString "Generated " ++ path.toText,
     count "Elements" s.elements,
     count "Attribute classes" s.attributeClasses,
     count "Elements with content model" s.withModel]
    ++ ranking "Top 10 elements by child count:" "children" s.topElements
    ++ ranking "Top 10 attribute classes by attribute count:" "attributes" s.topClasses
  lines.flatMap fun line => line ++ [CodePoint.ofChar '\n']

/-- Compiles the corpus of a run. -/
def compile (o : GenerateOptions) : Action (Schema Json) := do
  let some corpus := o.corpus | throw (.ofFault .wrongKind)
  let corpus ← CorpusFile.fetch (Path.ofText corpus) o.url o.isForced
  Action.ofLogged (compileCorpus corpus o.schemaId.toJson o.name.toJson)

/-- The file that the module of a run goes to; an empty output stands for none. -/
def outputPath (s : Settings) (o : GenerateOptions) : Path :=
  match o.output with
  | some (c :: t) => Path.ofText (c :: t)
  | _ => s.compiledDir.append (o.schemaId.toJson.plain ++ Text.ofString ".json")

/-- Saves the module and reports on it. -/
def finish (s : Settings) (o : GenerateOptions) (schema : Schema Json) : Action Text := do
  let path := outputPath s o
  ModuleFile.save schema path (.indented 2)
  let statistics ← Action.ofFault (schema.statistics (some 10))
  return report path statistics

/-- The run once its logger has started. -/
def conduct (s : Settings) (o : GenerateOptions) (w : World) : GenerateOutcome × World :=
  match (compile o).perform w with
  | (.error e, w) =>
    if e.isForeseen then
      let entry := LogRecord.sentence .error
        (Text.ofString "Generation failed: " ++ e.message?.getD [])
      (.failed, { w with log := w.log ++ [entry] })
    else (.broken e, w)
  | (.ok schema, w) =>
    match (finish s o schema).perform w with
    | (.error e, w) => (.broken e, w)
    | (.ok text, w) => (.done text, w)

/-- The paths that a run of the generator may read or write; none when it cannot start. -/
def pathsInUse (base : Path) (environment : Table Text Text) (arguments : List Text) : List Path :=
  match Settings.ofEnvironment base environment with
  | .error _ => []
  | .ok s =>
    match GenerateOptions.ofArguments s arguments with
    | .error _ => []
    | .ok o =>
      (o.corpus.map Path.ofText).toList ++ [outputPath s o] ++ (s.logFile.map Path.collapsed).toList

/-- Runs the generator, installed under a base path, in an environment. -/
def run (base : Path) (environment : Table Text Text) (arguments : List Text) (files : FileTree)
    (pages : Table Text Page) : GenerateRun :=
  match Settings.ofEnvironment base environment with
  | .error f => ⟨.broken (.ofFault f), files, []⟩
  | .ok s =>
    match GenerateOptions.ofArguments s arguments with
    | .error .refused => ⟨.refused, files, []⟩
    | .error .help => ⟨.help, files, []⟩
    | .ok o =>
      let name := Text.ofString "teiedit.generate"
      match (Logger.start name (.text s.logLevel) s.logFile).perform ⟨files, pages, []⟩ with
      | (.error e, w) => ⟨.broken e, w.files, []⟩
      | (.ok logger, w) =>
        let (outcome, w) := conduct s o w
        ⟨outcome, logger.keep w.log w.files, logger.console w.log⟩

end Generate

end MarkupGrammar
