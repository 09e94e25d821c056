import MarkupGrammar.Text.Blank
import MarkupGrammar.Text.Digit

/-!
# Integer numerals

Occurrence bounds and limits may be written as numerals: blanks around them are passed over, a sign
may stand before the digits, the digits may be of any script, and a single underscore may separate
two digits. The four information separators are blank elsewhere but not here, and a numeral longer
than `Numeral.longest` digits is refused.

Numerals of other bases are read alike. Their digits go on with the letters of ASCII, a letter after
a zero may name the base, and where the base is a power of two their length is not limited.
-/

namespace MarkupGrammar

namespace Text

/-- Why a text is not read as an integer. -/
inductive NumeralError where
  /-- The text does not have the form of a numeral. -/
  | malformed
  /-- The numeral has more digits than are read. -/
  | tooLong (digits : Nat)
deriving DecidableEq

namespace Numeral

/-- The greatest number of digits that is read. -/
def longest : Nat := 4300

/-- A blank that may stand around a numeral. -/
def isPadding (c : CodePoint) : Bool := c.isBlank && !(0x1C ≤ c.val && c.val ≤ 0x1F)

/-- The value of a digit of a base: a decimal digit of any script, or a letter. -/
def digitIn? (base : Nat) (c : CodePoint) : Option Nat :=
  let digit :=
    match c.decimalDigit? with
    | some d => some d
    | none =>
      if c.isAsciiLower then some (c.val - 0x57)
      else if c.isAsciiUpper then some (c.val - 0x37)
      else none
  digit.filter fun d => d < base

/-- The digits at the beginning of a text, without the underscores among them, and what follows. An
underscore needs a digit on each side; `afterDigit` says that the last code point was one. -/
def takeDigits? (base : Nat) (afterDigit : Bool) : Text → Option (List Nat × Text)
  | [] => if afterDigit then some ([], []) else none
  | c :: r =>
    match digitIn? base c with
    | some d => (takeDigits? base true r).map fun (digits, rest) => (d :: digits, rest)
    | none =>
      if !afterDigit then none
      else if c = CodePoint.ofChar '_' then takeDigits? base false r
      else some ([], c :: r)

/-- The number that digits of a base write, the greatest place first. -/
def value (base : Nat) (digits : List Nat) : Nat := digits.foldl (fun n d => base * n + d) 0

/-- The letter that names a base after a zero, in lower case. -/
def letterOf? (base : Nat) : Option Char :=
  match base with
  | 2 => some 'b'
  | 8 => some 'o'
  | 16 => some 'x'
  | _ => none

/-- The digits of a numeral without the name of its base before them. -/
def dropBase (base : Nat) (t : Text) : Text :=
  match letterOf? base, t with
  | some letter, zero :: c :: r =>
    if zero = CodePoint.ofChar '0'
      && (c = CodePoint.ofChar letter || c = CodePoint.ofChar letter.toUpper) then r
    else zero :: c :: r
  | _, t => t

/-- The sign before a numeral's digits, and the rest. -/
def sign : Text → Bool × Text
  | [] => (false, [])
  | c :: r =>
    if c = CodePoint.ofChar '-' then (true, r)
    else if c = CodePoint.ofChar '+' then (false, r)
    else (false, c :: r)

end Numeral

/-- Reads an integer numeral of a base. Its digits are counted before what follows them is looked
at. -/
def toIntIn (base : Nat) (t : Text) : Except NumeralError Int :=
  let (negative, body) := Numeral.sign (t.dropWhile Numeral.isPadding)
  match Numeral.takeDigits? base false (Numeral.dropBase base body) with
  | none => .error .malformed
  | some (digits, rest) =>
    if (Numeral.letterOf? base).isNone && Numeral.longest < digits.length then
      .error (.tooLong digits.length)
    else if !rest.all Numeral.isPadding then .error .malformed
    else
      let n : Int := Numeral.value base digits
      .ok (if negative then -n else n)

/-- Reads a decimal integer numeral. -/
def toInt (t : Text) : Except NumeralError Int := toIntIn 10 t

end Text

end MarkupGrammar
