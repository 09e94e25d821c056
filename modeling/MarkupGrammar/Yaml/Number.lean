import MarkupGrammar.Json.Basic
import MarkupGrammar.Yaml.Source

/-!
# Numbers in YAML

A plain scalar is a number when it has the form of one. Integers are written in four bases and in
places to the base sixty, with colons between the places; doubles have a point, perhaps an exponent
with a sign, or places too. Underscores may stand between the digits.

A tag can ask any scalar for its number, whatever its form. So reading a number is apart from its
form, accepts more, and fails with the part of the text that is none.
-/

namespace MarkupGrammar

namespace Yaml

namespace Number

/-! ### Forms -/

/-- A number without its sign. -/
def unsigned (t : Text) : Text := (Text.Numeral.sign t).2

/-- Whether a code point is a digit below another one. -/
def isDigitBelow (n : Nat) (c : CodePoint) : Bool := 0x30 ≤ c.val && c.val < 0x30 + n

/-- A digit of a set, or an underscore. -/
def orUnderscore (isDigit : CodePoint → Bool) (c : CodePoint) : Bool :=
  isDigit c || c = CodePoint.ofChar '_'

/-- Whether a text has a first code point of one kind, and only others of another kind. -/
def isRun (first others : CodePoint → Bool) : Text → Bool
  | [] => false
  | c :: r => first c && r.all others

/-- Digits and underscores, a digit first. -/
def isWhole (t : Text) : Bool := isRun (isDigitBelow 10) (orUnderscore (isDigitBelow 10)) t

/-- Whether a text is a place to the base sixty. -/
def isSixtieth : Text → Bool
  | [d] => isDigitBelow 10 d
  | [t, d] => isDigitBelow 6 t && isDigitBelow 10 d
  | _ => false

/-- The pieces between the colons of a text. -/
def places (t : Text) : List Text := Text.splitOn (CodePoint.ofChar ':') t

/-- Whether a text is a first place and others to the base sixty. -/
def arePlaces (isFirst : Text → Bool) (t : Text) : Bool :=
  match places t with
  | first :: p :: others => isFirst first && (p :: others).all isSixtieth
  | _ => false

/-- Whether digits and underscores follow a beginning. -/
def isRunAfter (beginning : String) (isDigit : CodePoint → Bool) (t : Text) : Bool :=
  (Text.after? (Text.ofString beginning) t).any fun r => !r.isEmpty && r.all (orUnderscore isDigit)

/-- Whether a text has the form of an integer. -/
def isInteger (t : Text) : Bool :=
  let isPositive := isRun (fun c => isDigitBelow 10 c && c != CodePoint.ofChar '0')
    (orUnderscore (isDigitBelow 10))
  let t := unsigned t
  isRunAfter "0b" (isDigitBelow 2) t
    || isRunAfter "0" (isDigitBelow 8) t
    || t = Text.ofString "0"
    || isPositive t
    || isRunAfter "0x" (fun c => c.hexDigit?.isSome) t
    || arePlaces isPositive t

/-- Whether nothing or an exponent with a sign is all of a text. -/
def isExponent : Text → Bool
  | [] => true
  | e :: s :: power =>
    (e = CodePoint.ofChar 'e' || e = CodePoint.ofChar 'E')
      && (s = CodePoint.ofChar '+' || s = CodePoint.ofChar '-')
      && !power.isEmpty && power.all (isDigitBelow 10)
  | _ => false

/-- Whether a text has the form of a double. -/
def isDouble (t : Text) : Bool :=
  let isAmong (words : List String) (t : Text) : Bool := words.any fun w => t = Text.ofString w
  let body := unsigned t
  let hasPoint :=
    match Text.cutAt? (Text.ofString ".") body with
    | none => false
    | some (whole, r) =>
      let isFraction := orUnderscore (isDigitBelow 10)
      let after := r.dropWhile isFraction
      (isWhole whole && isExponent after)
        || (arePlaces isWhole whole && after.isEmpty)
        -- without digits before the point there is no sign, and a digit comes first after it
        || (whole.isEmpty && body = t && isWhole (r.takeWhile isFraction) && isExponent after)
  hasPoint || isAmong [".inf", ".Inf", ".INF"] body || isAmong [".nan", ".NaN", ".NAN"] t

/-! ### Values -/

/-- The integer that a text writes in a base. -/
def readIn (base : Nat) (t : Text) : Except YamlError Int :=
  (Text.toIntIn base t).mapError fun e => .notAnInteger base t e

/-- A text without underscores. -/
def dropUnderscores (t : Text) : Text := t.filter fun c => c != CodePoint.ofChar '_'

/-- The integer of a text without a sign. Its beginning says what the base is. -/
def magnitude (t : Text) : Except YamlError Int := do
  if t = Text.ofString "0" then return 0
  match Text.after? (Text.ofString "0b") t with
  | some r => readIn 2 r
  | none =>
    match Text.after? (Text.ofString "0x") t with
    | some r => readIn 16 r
    | none =>
      match t with
      | [] => throw .emptyNumber
      | c :: _ =>
        if c = CodePoint.ofChar '0' then readIn 8 t
        else return (← (places t).mapM (readIn 10)).foldl (fun n place => 60 * n + place) 0

/-- The integer of a scalar. -/
def toInteger (t : Text) : Except YamlError Int := do
  let (negative, body) := Text.Numeral.sign (dropUnderscores t)
  let n ← magnitude body
  return if negative then -n else n

/-- The digits at the front of a text, of any script, and the rest. -/
def takeDigits : Text → List Nat × Text
  | [] => ([], [])
  | c :: r =>
    match c.decimalDigit? with
    | none => ([], c :: r)
    | some d =>
      let (digits, rest) := takeDigits r
      (d :: digits, rest)

/-- The double of digits, perhaps a point, and perhaps an exponent. -/
def decimal? (negative : Bool) (t : Text) : Option Binary64 := do
  let (whole, r) := takeDigits t
  let (fraction, r) :=
    match Text.after? (Text.ofString ".") r with
    | some r => takeDigits r
    | none => ([], r)
  guard (!(whole.isEmpty && fraction.isEmpty))
  let double (power : Int) : Binary64 :=
    .ofDecimal negative (Text.Numeral.value 10 (whole ++ fraction)) (power - fraction.length)
  match r with
  | [] => return double 0
  | e :: r =>
    guard (e = CodePoint.ofChar 'e' || e = CodePoint.ofChar 'E')
    let (minus, r) := Text.Numeral.sign r
    let (digits, r) := takeDigits r
    guard (!digits.isEmpty && r.isEmpty)
    let n : Int := Text.Numeral.value 10 digits
    return double (if minus then -n else n)

/-- The text with the letters of ASCII in lower case. -/
def lower (t : Text) : Text :=
  t.map fun c => if c.isAsciiUpper then CodePoint.ofNat (c.val + 0x20) else c

/-- The double of a text: a decimal or a name, with blanks around it and a sign before it. -/
def readDouble (t : Text) : Except YamlError Binary64 :=
  let trimmed := Text.dropEndWhile Text.Numeral.isPadding (t.dropWhile Text.Numeral.isPadding)
  let (negative, body) := Text.Numeral.sign trimmed
  if body = Text.ofString "inf" || body = Text.ofString "infinity" then .ok (.infinity negative)
  else if body = Text.ofString "nan" then .ok .nan
  else ((decimal? negative body).map .ok).getD (.error (.notADouble t))

/-- The sum of two doubles that are finite, rounded. -/
def add (x y : Binary64) : Binary64 :=
  match (Json.float x).quotient?, (Json.float y).quotient? with
  | some (n, d), some (n', d') =>
    let sum := n * d' + n' * d
    .ofQuotient (sum < 0) sum.natAbs (d * d')
  | _, _ => .nan

/-- The product of a finite double and a double of a natural number, rounded. -/
def scale (x : Binary64) (k : Nat) : Binary64 :=
  match (Json.float x).quotient?, (Json.float (.ofQuotient false k 1)).quotient? with
  | some (n, d), some (n', d') => .ofQuotient (n < 0) (n.natAbs * n'.natAbs) (d * d')
  | _, _ => .nan

/-- The double of places to the base sixty, summed up from the last one. -/
def sumPlaces (places : List Binary64) : Binary64 :=
  (places.reverse.foldl (fun (sum, base) place => (add sum (scale place base), 60 * base))
    ((.ofQuotient false 0 1 : Binary64), 1)).1

/-- A double with the other sign. -/
def negate : Binary64 → Binary64
  | .finite negative m e => .finite (!negative) m e
  | .infinity negative => .infinity (!negative)
  | .nan => .nan

/-- The double of a scalar. -/
def toDouble (t : Text) : Except YamlError Binary64 := do
  let t := lower (dropUnderscores t)
  if t.isEmpty then throw .emptyNumber
  let (negative, body) := Text.Numeral.sign t
  let x ←
    if body = Text.ofString ".inf" then pure (Binary64.infinity false)
    else if body = Text.ofString ".nan" then pure Binary64.nan
    else if body.any fun c => c = CodePoint.ofChar ':' then
      sumPlaces <$> (places body).mapM readDouble
    else readDouble body
  return if negative then negate x else x

end Number

end Yaml

end MarkupGrammar
