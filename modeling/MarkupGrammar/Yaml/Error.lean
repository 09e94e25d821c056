import MarkupGrammar.Text.Numeral

/-!
# What is wrong with a YAML text

Most mistakes need no telling apart: the text is not YAML. The others are met in scalars whose form
or tag asks for a value that does not exist, and each keeps what it was asked of.
-/

namespace MarkupGrammar

namespace Yaml

/-- A part of a time that a calendar or a clock may not have. -/
inductive TimePart where
  | year (n : Nat)
  | month
  | day
  | hour
  | minute
  | second
  /-- The distance from the prime meridian's time, in seconds. -/
  | offset (seconds : Int)
deriving DecidableEq

end Yaml

/-- Why a text is not read as YAML. -/
inductive YamlError where
  /-- It is not YAML, or it writes something that has no value. -/
  | malformed
  /-- Its collections are nested too deeply. -/
  | tooDeep
  /-- An escape with the number of no code point. -/
  | noCodePoint (n : Nat)
  /-- A text that is to be an integer. -/
  | notAnInteger (base : Nat) (t : Text) (error : Text.NumeralError)
  /-- A text that is to be a double. -/
  | notADouble (t : Text)
  /-- A number without a single digit or sign. -/
  | emptyNumber
  /-- A text that is to be a truth value. -/
  | notATruthValue (t : Text)
  /-- A text that is to be a time. -/
  | notATime
  /-- A time that does not exist. -/
  | impossibleTime (part : Yaml.TimePart)
deriving DecidableEq

end MarkupGrammar
