import MarkupGrammar.Json.Basic
import MarkupGrammar.Settings
import MarkupGrammar.Text.Digit

/-!
# Arguments of the generator

The generator takes options and nothing else. An option may be cut short as long as no other begins
with what is left, and its value stands after an equals sign or in the next argument. What looks
like an option is not taken as a value; a lone hyphen, a negative number and a text with a space do
not look like one. The separator ends the options and is no value either: an option that has it
after its equals sign is given, but holds nothing.

Arguments are used from left to right. The first that cannot be used ends the reading, and so does a
call for help; arguments that mean nothing are refused only at the end.
-/

namespace MarkupGrammar

/-- The options of the generator. -/
inductive GenerateFlag where
  | corpus
  | url
  | output
  | schemaId
  | name
  | forceDownload
  | help
deriving DecidableEq

namespace GenerateFlag

def word : GenerateFlag → String
  | .corpus => "--corpus"
  | .url => "--url"
  | .output => "--output"
  | .schemaId => "--schema-id"
  | .name => "--name"
  | .forceDownload => "--force-download"
  | .help => "--help"

def all : List GenerateFlag := [.help, .corpus, .url, .output, .schemaId, .name, .forceDownload]

/-- The option that is written out in full. -/
def ofWord? (t : Text) : Option GenerateFlag :=
  if t = Text.ofString "-h" then some .help else all.find? fun f => Text.ofString f.word = t

/-- The options that begin with a text. -/
def startingWith (t : Text) : List GenerateFlag :=
  all.filter fun f => Text.startsWith t (Text.ofString f.word)

/-- Whether the option has a value. -/
def takesValue : GenerateFlag → Bool
  | .forceDownload => false
  | .help => false
  | _ => true

/-- How an option is written in a summary. -/
def summary (f : GenerateFlag) : String :=
  if f.takesValue then "[" ++ f.word ++ " VALUE]" else "[" ++ f.word ++ "]"

end GenerateFlag

/-- The summary of the generator's options. -/
def generateUsage : Text :=
  Text.ofString ("usage: teiedit-generate " ++ " ".intercalate (GenerateFlag.all.map (·.summary)))

/-- Why no options come of arguments. -/
inductive ArgumentOutcome where
  | refused
  | help
deriving DecidableEq

/-- What an argument looks like. -/
inductive Argument where
  | plain (t : Text)
  | separator
  | option (flag : GenerateFlag) (value : Option Text)
  | unknownOption
  | ambiguous

namespace Argument

/-- Whether a text after a hyphen makes a negative number. One line feed may follow it. -/
def isNumeral (t : Text) : Bool :=
  let isDigit (c : CodePoint) : Bool := c.decimalDigit?.isSome
  let t := if t.getLast? = some (CodePoint.ofChar '\n') then t.dropLast else t
  match t.dropWhile isDigit with
  | [] => !t.isEmpty
  | c :: r => c = CodePoint.ofChar '.' && !r.isEmpty && r.all isDigit

/-- A text cut at its first equals sign. -/
def cutValue (t : Text) : Text × Option Text :=
  match Text.cutAt? (Text.ofString "=") t with
  | none => (t, none)
  | some (name, value) => (name, some value)

/-- What the short form of the call for help looks like with a text after it, which an equals sign
may set off. The letter may be said again; anything else is a value, and help has none. -/
def ofHelp (t : Text) : Argument :=
  let value :=
    match t with
    | c :: value => if c = CodePoint.ofChar '=' then value else t
    | [] => []
  let isRepeated := !value.isEmpty && value.all (· == CodePoint.ofChar 'h')
  .option .help (if isRepeated then none else some value)

/-- What an argument that begins with a hyphen and is no option looks like. -/
def remainder (t : Text) : Argument :=
  if isNumeral (t.drop 1) || t.elem (CodePoint.ofChar ' ') then .plain t else .unknownOption

/-- What an argument before the separator looks like. -/
def ofText (t : Text) : Argument :=
  let hyphen := Text.ofString "-"
  if !Text.startsWith hyphen t || t = hyphen then .plain t
  else if t = Text.ofString "--" then .separator
  else
    match GenerateFlag.ofWord? t with
    | some flag => .option flag none
    | none =>
      if Text.startsWith (Text.ofString "--") t then
        let (name, value) := cutValue t
        match (if value.isSome then GenerateFlag.ofWord? name else none) with
        | some flag => .option flag value
        | none =>
          match GenerateFlag.startingWith name with
          | [flag] => .option flag value
          | [] => remainder t
          | _ => .ambiguous
      else if Text.startsWith (Text.ofString "-h") t then ofHelp (t.drop 2)
      else remainder t

/-- What each of some arguments looks like; after the separator all are plain. -/
def ofTexts : List Text → List Argument
  | [] => []
  | t :: ts =>
    match ofText t with
    | .separator => .separator :: ts.map .plain
    | a => a :: ofTexts ts

end Argument

/-- What an option holds; the separator holds nothing. -/
abbrev OptionValue := Option Text

namespace OptionValue

/-- What the text after an equals sign gives an option. -/
def ofText (t : Text) : OptionValue := if t = Text.ofString "--" then none else some t

/-- The value as it is written into a module: an option that holds nothing is an empty list. -/
def toJson (v : OptionValue) : Json := (v.map Json.text).getD (.array [])

end OptionValue

/-- The options of a run of the generator. -/
structure GenerateOptions where
  corpus : OptionValue
  url : OptionValue
  output : OptionValue
  schemaId : OptionValue
  name : OptionValue
  isForced : Bool

namespace GenerateOptions

/-- The options when no argument is given. Without an output the module goes to its own place. -/
def standard (s : Settings) : GenerateOptions where
  corpus := some s.corpusPath.toText
  url := some s.corpusUrl
  output := none
  schemaId := some s.defaultSchema
  name := some (Text.ofString "TEI All")
  isForced := false

/-- The options with the value of one replaced. -/
def set (o : GenerateOptions) (flag : GenerateFlag) (value : OptionValue) : GenerateOptions :=
  match flag with
  | .corpus => { o with corpus := value }
  | .url => { o with url := value }
  | .output => { o with output := value }
  | .schemaId => { o with schemaId := value }
  | .name => { o with name := value }
  | .forceDownload => { o with isForced := true }
  | .help => o

/-- The options after some arguments. Something left over is refused when all arguments are used. -/
def apply (o : GenerateOptions) (hasExtra : Bool) :
    List Argument → Except ArgumentOutcome GenerateOptions
  | [] => if hasExtra then .error .refused else .ok o
  | .plain _ :: rest => apply o true rest
  | .separator :: rest => apply o true rest
  | .unknownOption :: rest => apply o true rest
  | .ambiguous :: _ => .error .refused
  | .option flag (some value) :: rest =>
    if flag.takesValue then apply (o.set flag (.ofText value)) hasExtra rest else .error .refused
  | .option flag none :: rest =>
    if flag = .help then .error .help
    else if flag.takesValue then
      match rest with
      | .plain value :: rest => apply (o.set flag (some value)) hasExtra rest
      | _ => .error .refused
    else apply (o.set flag none) hasExtra rest

/-- The options of arguments. -/
def ofArguments (s : Settings) (arguments : List Text) : Except ArgumentOutcome GenerateOptions :=
  let read := Argument.ofTexts arguments
  let isAmbiguous : Argument → Bool
    | .ambiguous => true
    | _ => false
  if read.any isAmbiguous then .error .refused else apply (standard s) false read

end GenerateOptions

end MarkupGrammar
