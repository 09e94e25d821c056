import MarkupGrammar.Grammar.Bounds
import MarkupGrammar.Json.Reader
import MarkupGrammar.Yaml.Error

/-!
# Failures

Reading a grammar fails in one of two ways. A *defect* of the corpus is foreseen: it has a wording,
a context and sometimes an element it is about. A *fault* is not: some value is not of the kind that
is asked of it, and all that is known is what was asked. Where a fault is taken for a defect of a
compiled module, its own wording is kept.
-/

namespace MarkupGrammar

/-- What was asked of a value in vain. -/
inductive Fault where
  /-- An operation on a value of the wrong kind. -/
  | wrongKind
  /-- A field of a value that has no fields. -/
  | noFields
  /-- A field that is not there. -/
  | missingField (key : String)
  /-- An integer from a text that is no numeral of a base. -/
  | notANumeral (base : Nat) (t : Text) (error : Text.NumeralError)
  /-- A double from a text that writes none. -/
  | notADouble (t : Text)
  /-- A number from a text that is empty. -/
  | emptyNumber
  /-- An integer from "not a number". -/
  | notANumber
  /-- An integer from an infinity. -/
  | infinite
  /-- A term of a vocabulary that does not have it. -/
  | unknownTerm (v : Json) (vocabulary : String)
  /-- An item of a kind that does not exist. -/
  | unknownItemKind (v : Json)
  /-- Bounds that no count can meet. -/
  | badBounds (error : BoundsError)
  /-- A text that has no encoding because it holds a lone surrogate. -/
  | unencodable
  /-- A file that is not JSON. -/
  | notJson
  /-- A text whose values are nested too deeply. -/
  | tooDeep
  /-- A code point with a number beyond the last one. -/
  | noCodePoint (n : Nat)
  /-- A time that does not exist. -/
  | impossibleTime (part : Yaml.TimePart)
  /-- A level of a log that does not exist. -/
  | unknownLevel (v : Json)
  /-- The target of a request that is no address. -/
  | malformedTarget
  /-- A host that cannot exist. -/
  | impossibleHost
  /-- A line end in a header of a request. -/
  | lineEndInHeader

namespace Fault

/-- The fault in a file that is to be JSON. -/
def ofJson : JsonError → Fault
  | .malformed => .notJson
  | .longNumeral digits => .notANumeral 10 digits (.tooLong digits.length)
  | .tooDeep => .tooDeep

/-- The fault in a YAML text, unless it is just no YAML. -/
def ofYaml? : YamlError → Option Fault
  | .malformed => none
  | .tooDeep => some .tooDeep
  | .noCodePoint n => some (.noCodePoint n)
  | .notAnInteger base t error => some (.notANumeral base t error)
  | .notADouble t => some (.notADouble t)
  | .emptyNumber => some .emptyNumber
  | .notATruthValue t => some (.missingField t.asString)
  | .notATime => some .noFields
  | .impossibleTime part => some (.impossibleTime part)

/-- The greatest number of a code point that is looked at. -/
def greatestNumber : Nat := 0x7FFFFFFF

/-- The word for the kind of a fault. -/
def kind : Fault → String
  | .wrongKind => "TypeError"
  | .noFields => "AttributeError"
  | .missingField _ => "KeyError"
  | .notANumeral .. => "ValueError"
  | .notADouble _ => "ValueError"
  | .emptyNumber => "IndexError"
  | .notANumber => "ValueError"
  | .infinite => "OverflowError"
  | .unknownTerm .. => "ValueError"
  | .unknownItemKind _ => "ValueError"
  | .badBounds _ => "ValueError"
  | .unencodable => "UnicodeEncodeError"
  | .notJson => "JSONDecodeError"
  | .tooDeep => "RecursionError"
  | .noCodePoint n => if n ≤ greatestNumber then "ValueError" else "OverflowError"
  | .impossibleTime _ => "ValueError"
  | .unknownLevel _ => "ValueError"
  | .malformedTarget => "ValueError"
  | .impossibleHost => "UnicodeError"
  | .lineEndInHeader => "ValueError"

/-- The length of some seconds, in days and what is left of the last one. -/
def durationText (seconds : Int) : Text :=
  let days := Int.fdiv seconds 86400
  let left := Int.fmod seconds 86400
  let part (name : String) (n : Int) : List Text :=
    if n = 0 then [] else [Text.ofString name ++ Text.ofString "=" ++ Text.ofInt n]
  Text.ofString "datetime.timedelta("
    ++ Text.join (Text.ofString ", ") (part "days" days ++ part "seconds" left)
    ++ Text.ofString ")"

/-- What is wrong with a part of a time. -/
def timeMessage : Yaml.TimePart → Text
  | .year n => Text.ofString "year " ++ Text.ofNat n ++ Text.ofString " is out of range"
  | .month => Text.ofString "month must be in 1..12"
  | .day => Text.ofString "day is out of range for month"
  | .hour => Text.ofString "hour must be in 0..23"
  | .minute => Text.ofString "minute must be in 0..59"
  | .second => Text.ofString "second must be in 0..59"
  | .offset seconds =>
    Text.ofString "offset must be a timedelta strictly between -timedelta(hours=24) and "
      ++ Text.ofString "timedelta(hours=24), not " ++ durationText seconds ++ Text.ofString "."

/-- The wording of a fault, where it has one of its own. -/
def message? : Fault → Option Text
  | .missingField key => some (Text.ofString key).quoted
  | .notANumeral base t .malformed =>
    some (Text.ofString "invalid literal for int() with base " ++ Text.ofNat base
      ++ Text.ofString ": " ++ t.quoted.take 200)
  | .notADouble t => some (Text.ofString "could not convert string to float: " ++ t.quoted)
  | .noCodePoint n =>
    if n ≤ greatestNumber then some (Text.ofString "chr() arg not in range(0x110000)") else none
  | .impossibleTime part => some (timeMessage part)
  | .notANumeral _ _ (.tooLong digits) =>
    some (Text.ofString "Exceeds the limit (4300 digits) for integer string conversion: value has "
      ++ Text.ofNat digits
      ++ Text.ofString " digits; use sys.set_int_max_str_digits() to increase the limit")
  | .notANumber => some (Text.ofString "cannot convert float NaN to integer")
  | .unknownTerm v vocabulary =>
    some (v.quoted ++ Text.ofString (" is not a valid " ++ vocabulary))
  | .unknownItemKind v => some (Text.ofString "Unknown content item kind: " ++ v.quoted)
  | .badBounds error => some error.message
  | .unknownLevel v => some (Text.ofString "Unknown level: " ++ v.quoted)
  | _ => none

/-- Whether a compiled module with this fault counts as invalid. The other faults are not
foreseen. -/
def isForeseen : Fault → Bool
  | .noFields => false
  | .infinite => false
  | _ => true

end Fault

/-- What is wrong with a corpus or a compiled module. -/
inductive Defect where
  | notAnObject
  | notAList (label : String)
  | entryNotAnObject (label : String) (entry : Json)
  | entryUnnamed (label : String)
  | duplicateElement (name : Json)
  | attributeUnnamed
  | contentNotAList
  | particleNotAnObject (entry : Json)
  | invalidOccurs (field : Text) (raw : Json)
  | negativeOccurs (field : Text) (raw : Json)
  | badBounds (error : BoundsError)
  | unsupportedVersion (version : Json)
  | invalidModule (fault : Fault)
  | unreadable
  | rootNotAnObject

namespace Defect

/-- The wording of a defect. -/
def message : Defect → Text
  | .notAnObject => Text.ofString "Corpus must be a mapping"
  | .notAList label => Text.ofString ("'" ++ label ++ "' must be a list")
  | .entryNotAnObject label entry =>
    Text.ofString ("Entry in '" ++ label ++ "' is not a mapping: ") ++ entry.quoted
  | .entryUnnamed label => Text.ofString ("Entry in '" ++ label ++ "' has no ident")
  | .duplicateElement name => Text.ofString "Duplicate element definition: " ++ name.plain
  | .attributeUnnamed => Text.ofString "Attribute definition without ident"
  | .contentNotAList => Text.ofString "Content must be a list of particles"
  | .particleNotAnObject entry => Text.ofString "Particle is not a mapping: " ++ entry.quoted
  | .invalidOccurs field raw =>
    Text.ofString "Invalid " ++ field ++ Text.ofString " " ++ raw.quoted
  | .negativeOccurs field raw =>
    Text.ofString "Negative " ++ field ++ Text.ofString " " ++ raw.quoted
  | .badBounds error => error.message
  | .unsupportedVersion version =>
    Text.ofString "Unsupported compiled schema version: " ++ version.quoted
  | .invalidModule fault =>
    match fault.message? with
    | some wording => Text.ofString "Invalid compiled schema: " ++ wording
    | none => Text.ofString "Invalid compiled schema"
  | .unreadable => Text.ofString "Cannot parse corpus"
  | .rootNotAnObject => Text.ofString "Corpus root must be a mapping"

end Defect

/-- A defect where it was met. -/
structure CorpusError where
  defect : Defect
  context : Text

namespace CorpusError

/-- The element that a defect is about, if it is about one. -/
def element? (e : CorpusError) : Option Json :=
  match e.defect with
  | .duplicateElement name => some name
  | _ => none

end CorpusError

/-- Why a grammar or a compiled module is not read. -/
inductive ReadError where
  | corpus (e : CorpusError)
  | fault (f : Fault)

namespace ReadError

/-- A defect met in a context. -/
def of (defect : Defect) (context : Text) : ReadError := .corpus ⟨defect, context⟩

end ReadError

/-! ### What is asked of values -/

namespace Json

/-- The fields of a value that has to be an object. -/
def fields (v : Json) : Except Fault (List (Text × Json)) :=
  match v with
  | .object fields => .ok fields
  | _ => .error .noFields

/-- A field of a value that has to be an object; null when the field is not there. -/
def get (key : String) (v : Json) : Except Fault Json :=
  v.fields.map fun fields => (lookup (Text.ofString key) fields).getD .null

/-- What a value consists of: the items of an array, the keys of an object, the single code points
of a text. -/
def elements : Json → Except Fault (List Json)
  | .array items => .ok items
  | .object fields => .ok (fields.map fun (k, _) => .text k)
  | .text t => .ok (t.map fun c => .text [c])
  | _ => .error .wrongKind

/-- The integer that a value stands for: a numeral is read, a double is cut toward zero, and a
boolean counts as 0 or 1. -/
def integer : Json → Except Fault Int
  | .bool b => .ok (if b then 1 else 0)
  | .int i => .ok i
  | .float x =>
    match x with
    | .nan => .error .notANumber
    | .infinity _ => .error .infinite
    | x => .ok (x.truncate?.getD 0)
  | .text t =>
    match t.toInt with
    | .ok i => .ok i
    | .error e => .error (.notANumeral 10 t e)
  | _ => .error .wrongKind

/-- The value itself unless it is void. -/
def unlessVoid (v : Json) : Option Json := if v.isVoid then none else some v

end Json

end MarkupGrammar
