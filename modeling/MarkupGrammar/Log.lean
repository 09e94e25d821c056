import MarkupGrammar.Grammar.Failure

/-!
# Log records

Compilation says what it does in log records. A record has a level and a body; its place and time,
and the state of the machine, are not part of it. Most bodies are sentences. A fault that nothing
foresaw is reported in a fixed form, with its kind and what was being done.
-/

namespace MarkupGrammar

/-- The phases of compilation. -/
inductive Phase where
  | ingestion
  | compilation
deriving DecidableEq

namespace Phase

def word : Phase → String
  | .ingestion => "ingestion"
  | .compilation => "compilation"

/-- The name of the step that runs in a phase. -/
def step : Phase → String
  | .ingestion => "ingest"
  | .compilation => "build"

/-- The phase with a word. -/
def ofWord? (v : Json) : Option Phase :=
  v.text?.bind fun t => [ingestion, compilation].find? fun p => Text.ofString p.word = t

end Phase

/-- What a record says. -/
inductive LogBody where
  | message (t : Text)
  /-- A fault: its kind, its wording if it has one of its own, and what was being done. -/
  | failure (kind : String) (wording : Option Text) (context : Json)

namespace LogBody

/-- The text of a body. A wording that is not the program's own is left out. -/
def text : LogBody → Text
  | .message t => t
  | .failure kind wording context =>
    Text.ofString ("Error Details:\nError Type: " ++ kind ++ "\nMessage: ")
      ++ wording.getD (Text.ofString "<masked>")
      ++ Text.ofString "\nContext: " ++ context.plain

end LogBody

/-- The levels of records, from the least to the most urgent. -/
inductive LogLevel where
  | debug
  | info
  | warning
  | error
deriving DecidableEq

namespace LogLevel

def word : LogLevel → String
  | .debug => "DEBUG"
  | .info => "INFO"
  | .warning => "WARNING"
  | .error => "ERROR"

/-- How urgent a level is. Thresholds are compared with this number. -/
def urgency : LogLevel → Int
  | .debug => 10
  | .info => 20
  | .warning => 30
  | .error => 40

end LogLevel

/-- One entry of a log. -/
structure LogRecord where
  level : LogLevel
  body : LogBody

namespace LogRecord

/-- A record with a sentence. -/
def sentence (level : LogLevel) (t : Text) : LogRecord := ⟨level, .message t⟩

/-- What names a schema in a record; a void identifier names none. -/
def orMissing (v : Json) : Text := if v.isVoid then Text.ofString "N/A" else v.plain

/-- The start of a phase. -/
def phaseStart (phase : Phase) (schema : Json) : LogRecord :=
  sentence .info (Text.ofString ("Starting " ++ phase.word ++ " phase - Schema: ") ++ orMissing schema)

/-- The end of a phase. -/
def phaseEnd (phase : Phase) (schema : Json) : LogRecord :=
  sentence .info (Text.ofString ("Completed " ++ phase.word ++ " phase - Schema: ") ++ orMissing schema)

/-- A defect, with where it was met. -/
def defect (phase : Option Phase) (message context : Text) (element : Json) : LogRecord :=
  let during := (phase.map Phase.word).getD "processing"
  sentence .error (Text.ofString ("Error during " ++ during ++ ": ") ++ message
    ++ Text.ofString "\nContext: " ++ context ++ Text.ofString "\nElement: " ++ orMissing element)

/-- A fault met in a phase. -/
def fault (phase : Phase) (f : Fault) : LogRecord :=
  let wording := if f.kind = "ValueError" then f.message? else none
  ⟨.error, .failure f.kind wording
    (Json.ofFields [("phase", .string phase.word), ("function", .string phase.step)])⟩

/-- Why a phase failed. -/
def failure (phase : Phase) : ReadError → LogRecord
  | .corpus e => defect (some phase) e.defect.message e.context (e.element?.getD .null)
  | .fault f => fault phase f

/-- A block of counters under a title. -/
def counters (title : Text) (counts : List (Text × Text)) : LogRecord :=
  let lines := counts.map fun (key, value) =>
    Text.ofString "  " ++ key ++ Text.ofString ": " ++ value
  sentence .info (Text.join (Text.ofString "\n") ((title ++ Text.ofString ":") :: lines))

/-- The record as a line of the console, which may have further lines of its own. -/
def consoleText (r : LogRecord) : Text :=
  Text.ofString (r.level.word ++ " - ") ++ r.body.text

/-- The record as a line of a file that several loggers write to. -/
def fileText (logger : Text) (r : LogRecord) : Text :=
  logger ++ Text.ofString (" - " ++ r.level.word ++ " - ") ++ r.body.text

end LogRecord

/-- A result together with what was logged on the way to it, also when it is a failure. -/
structure Logged (Error Value : Type) where
  log : List LogRecord
  result : Except Error Value

namespace Logged

variable {Error Value Other : Type}

/-- Goes on with a value, if there is one, and keeps the whole log. -/
def andThen (x : Logged Error Value) (f : Value → Logged Error Other) : Logged Error Other :=
  match x.result with
  | .error e => ⟨x.log, .error e⟩
  | .ok v => ⟨x.log ++ (f v).log, (f v).result⟩

/-- Runs a phase: its start is logged, what it logs itself, and then its end or its failure. -/
def phase (p : Phase) (schema : Json) (x : Logged ReadError Value) : Logged ReadError Value where
  log :=
    LogRecord.phaseStart p schema :: x.log ++
      match x.result with
      | .ok _ => [LogRecord.phaseEnd p schema]
      | .error e => [LogRecord.failure p e]
  result := x.result

end Logged

end MarkupGrammar
