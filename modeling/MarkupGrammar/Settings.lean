import MarkupGrammar.Check.Diagnostic
import MarkupGrammar.Grammar.Failure
import MarkupGrammar.Storage.Path
import MarkupGrammar.Text.Case

/-!
# Settings

Where the corpus and the compiled modules are, how messages are cut and what is logged. Each setting
has a default, and an environment variable that replaces it. A text or path that is set to nothing
keeps its default; a number that is set to nothing is no number.
-/

namespace MarkupGrammar

/-- The settings of the program. -/
structure Settings where
  corpusPath : Path
  corpusUrl : Text
  compiledDir : Path
  defaultSchema : Text
  limits : PreviewLimits
  logLevel : Text
  logFile : Option Path

namespace Settings

/-- The settings of a program that is installed under a base path. -/
def standard (base : Path) : Settings where
  corpusPath := base.append (Text.ofString "data/p5subset.json")
  corpusUrl := Text.ofString "https://tei-c.org/release/xml/tei/odd/p5subset.json"
  compiledDir := base.append (Text.ofString "data/compiled")
  defaultSchema := Text.ofString "tei_all"
  limits := PreviewLimits.standard
  logLevel := Text.ofString "INFO"
  logFile := none

/-- The variables of the environment that settings are read from. -/
def variableNames : List String :=
  ["TEI_CORPUS_PATH", "TEI_CORPUS_URL", "TEI_COMPILED_DIR", "TEI_DEFAULT_SCHEMA",
   "TEI_ENUM_PREVIEW_LIMIT", "TEI_SELF_CLOSING_PREVIEW_LIMIT", "TEI_LOG_LEVEL", "TEI_LOG_FILE"]

/-- A variable that is set to something. -/
def setting? (environment : Table Text Text) (name : String) : Option Text :=
  match environment.find? (Text.ofString name) with
  | some (c :: r) => some (c :: r)
  | _ => none

/-- A variable that holds a number, or a default when it is not set. -/
def number (environment : Table Text Text) (name : String) (fallback : Option Int) :
    Except Fault (Option Int) :=
  match environment.find? (Text.ofString name) with
  | none => .ok fallback
  | some t => (Json.text t).integer.map some

/-- The settings under an environment. -/
def ofEnvironment (base : Path) (environment : Table Text Text) : Except Fault Settings := do
  let defaults := standard base
  let value := setting? environment
  let path (name : String) (fallback : Path) : Path := ((value name).map Path.ofText).getD fallback
  let values ← number environment "TEI_ENUM_PREVIEW_LIMIT" defaults.limits.values
  let children ← number environment "TEI_SELF_CLOSING_PREVIEW_LIMIT" defaults.limits.children
  let level := (environment.find? (Text.ofString "TEI_LOG_LEVEL")).getD defaults.logLevel
  return {
    corpusPath := path "TEI_CORPUS_PATH" defaults.corpusPath
    corpusUrl := (value "TEI_CORPUS_URL").getD defaults.corpusUrl
    compiledDir := path "TEI_COMPILED_DIR" defaults.compiledDir
    defaultSchema := (value "TEI_DEFAULT_SCHEMA").getD defaults.defaultSchema
    limits := ⟨values, children⟩
    logLevel := level.upper
    logFile := (value "TEI_LOG_FILE").map Path.ofText }

end Settings

end MarkupGrammar
