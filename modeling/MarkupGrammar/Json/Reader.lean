import MarkupGrammar.Json.Basic
import MarkupGrammar.Text.Numeral

/-!
# Reading JSON

The reader accepts JSON text and a little more: the three names `NaN`, `Infinity` and `-Infinity`
stand for the doubles that have no numeral. A surrogate pair written as two escapes is one code
point, and a surrogate that has no partner is kept as it is. A number with a point or an exponent is
a double, any other an integer.

An integer has at most `Text.Numeral.longest` digits, and values are nested to `Json.deepest` levels
at most. What exceeds a limit is met before anything that is wrong after it.

The grammar is right-recursive on what is left of the text. Every rule below takes a budget that
bounds the depth of the recursion; a text's own length is budget enough, since each rule consumes at
least one code point before it calls another.
-/

namespace MarkupGrammar

/-- Why a text is not read as a JSON value. -/
inductive JsonError where
  /-- It does not write one. -/
  | malformed
  /-- An integer in it has too many digits. -/
  | longNumeral (digits : Text)
  /-- Its values are nested too deeply. -/
  | tooDeep
deriving DecidableEq

namespace Json

/-- Where the reader of a string stands: between code points, after a backslash, or inside a
numbered escape with some digits to come. -/
inductive StringState where
  | plain
  | escape
  | hex (missing : Nat) (value : Nat)

/-- The code point that a one-letter escape stands for. -/
def simpleEscape? (c : CodePoint) : Option CodePoint :=
  if c.val = 0x22 || c.val = 0x5C || c.val = 0x2F then some c
  else if c.val = 0x62 then some (CodePoint.ofNat 0x08)
  else if c.val = 0x66 then some (CodePoint.ofNat 0x0C)
  else if c.val = 0x6E then some (CodePoint.ofNat 0x0A)
  else if c.val = 0x72 then some (CodePoint.ofNat 0x0D)
  else if c.val = 0x74 then some (CodePoint.ofNat 0x09)
  else none

/-- The code points of a string up to its closing quote, last first, and the text after it. -/
def scanString : StringState → Text → Text → Option (Text × Text)
  | _, _, [] => none
  | .plain, acc, c :: r =>
    if c.val = 0x22 then some (acc, r)
    else if c.val = 0x5C then scanString .escape acc r
    else if c.val < 0x20 then none
    else scanString .plain (c :: acc) r
  | .escape, acc, c :: r =>
    if c.val = 0x75 then scanString (.hex 3 0) acc r
    else
      match simpleEscape? c with
      | some d => scanString .plain (d :: acc) r
      | none => none
  | .hex missing value, acc, c :: r =>
    match c.hexDigit? with
    | none => none
    | some d =>
      match missing with
      | 0 => scanString .plain (CodePoint.ofNat (16 * value + d) :: acc) r
      | m + 1 => scanString (.hex m (16 * value + d)) acc r

/-- Joins each pair of a high and a low surrogate into the code point that they encode. -/
def joinPairs : Text → Text
  | [] => []
  | [c] => [c]
  | c :: d :: r =>
    if 0xD800 ≤ c.val && c.val ≤ 0xDBFF && 0xDC00 ≤ d.val && d.val ≤ 0xDFFF then
      CodePoint.ofNat (0x10000 + 0x400 * (c.val - 0xD800) + (d.val - 0xDC00)) :: joinPairs r
    else c :: joinPairs (d :: r)

/-- Reads a string whose opening quote has been passed. -/
def readString (t : Text) : Option (Text × Text) :=
  (scanString .plain [] t).map fun (reversed, rest) => (joinPairs reversed.reverse, rest)

/-- The space that may stand between the parts of a JSON text. -/
def isSpace (c : CodePoint) : Bool :=
  c.val = 0x20 || c.val = 0x09 || c.val = 0x0A || c.val = 0x0D

def skipSpace (t : Text) : Text := t.dropWhile isSpace

/-- The number that ASCII digits write. -/
def digitsValue (digits : Text) : Nat := digits.foldl (fun n c => 10 * n + (c.val - 0x30)) 0

/-- The digits at the beginning of a text and what follows them. -/
def takeDigits (t : Text) : Text × Text :=
  (t.takeWhile CodePoint.isAsciiDigit, t.dropWhile CodePoint.isAsciiDigit)

/-- The digits of a fraction and the rest; a point without a digit after it belongs to the rest. -/
def readFraction (t : Text) : Text × Text :=
  match Text.after? (Text.ofString ".") t with
  | none => ([], t)
  | some r =>
    match takeDigits r with
    | ([], _) => ([], t)
    | (digits, rest) => (digits, rest)

/-- The exponent of a number and the rest; the mark without a digit after it belongs to the rest. -/
def readExponent (t : Text) : Option Int × Text :=
  match t with
  | [] => (none, [])
  | c :: r =>
    if c.val = 0x65 || c.val = 0x45 then
      let (negative, r) : Bool × Text :=
        match r with
        | [] => (false, [])
        | s :: r' => if s.val = 0x2D then (true, r') else if s.val = 0x2B then (false, r') else (false, r)
      match takeDigits r with
      | ([], _) => (none, t)
      | (digits, rest) =>
        let n : Int := digitsValue digits
        (some (if negative then -n else n), rest)
    else (none, t)

/-- The digits before the point: one zero, or digits that do not begin with zero. -/
def readWhole (t : Text) : Option (Text × Text) :=
  match takeDigits t with
  | ([], _) => none
  | (d :: ds, rest) =>
    if d.val = 0x30 then some ([d], ds ++ rest) else some (d :: ds, rest)

/-- The integer that digits write, unless there are too many. -/
def readInteger (negative : Bool) (digits : Text) : Except JsonError Json :=
  if Text.Numeral.longest < digits.length then .error (.longNumeral digits)
  else
    let n : Int := digitsValue digits
    .ok (.int (if negative then -n else n))

/-- Reads a number. -/
def readNumber (t : Text) : Except JsonError (Json × Text) :=
  let (negative, body) :=
    match Text.after? (Text.ofString "-") t with
    | some r => (true, r)
    | none => (false, t)
  match readWhole body with
  | none =>
    match Text.after? (Text.ofString "Infinity") body with
    | some rest => .ok (.float (.infinity negative), rest)
    | none => .error .malformed
  | some (whole, r) =>
    let (fraction, r) := readFraction r
    let (exponent, rest) := readExponent r
    if fraction.isEmpty && exponent.isNone then
      (readInteger negative whole).map fun v => (v, rest)
    else
      let power := exponent.getD 0 - fraction.length
      .ok (.float (Binary64.ofDecimal negative (digitsValue (whole ++ fraction)) power), rest)

/-- Reads one of the fixed words. -/
def readWord (t : Text) : Option (Json × Text) :=
  let words : List (String × Json) :=
    [("null", .null), ("true", .bool true), ("false", .bool false), ("NaN", .float .nan)]
  words.findSome? fun (word, value) =>
    (Text.after? (Text.ofString word) t).map fun rest => (value, rest)

/-- The greatest number of arrays and objects that a value stands in, itself counted. -/
def deepest : Nat := 985

mutual

/-- Reads a value that begins at once, with some levels left for arrays and objects. -/
def readValue : Nat → Nat → Text → Except JsonError (Json × Text)
  | 0, _, _ => .error .malformed
  | _, _, [] => .error .malformed
  | budget + 1, levels, c :: r =>
    if c.val = 0x22 then
      match readString r with
      | none => .error .malformed
      | some (s, rest) => .ok (.text s, rest)
    else if c.val = 0x5B then
      match levels, skipSpace r with
      | 0, _ => .error .tooDeep
      | _, [] => .error .malformed
      | levels + 1, d :: r' =>
        if d.val = 0x5D then .ok (.array [], r')
        else (readItems budget levels (d :: r')).map fun (items, rest) => (.array items, rest)
    else if c.val = 0x7B then
      match levels, skipSpace r with
      | 0, _ => .error .tooDeep
      | _, [] => .error .malformed
      | levels + 1, d :: r' =>
        if d.val = 0x7D then .ok (.object [], r')
        else
          (readFields budget levels [] (d :: r')).map fun (fields, rest) => (.object fields, rest)
    else
      match readWord (c :: r) with
      | some found => .ok found
      | none => readNumber (c :: r)

/-- Reads the items of an array up to its closing bracket. -/
def readItems : Nat → Nat → Text → Except JsonError (List Json × Text)
  | 0, _, _ => .error .malformed
  | budget + 1, levels, t =>
    match readValue budget levels t with
    | .error e => .error e
    | .ok (value, r) =>
      match skipSpace r with
      | [] => .error .malformed
      | c :: r =>
        if c.val = 0x2C then
          (readItems budget levels (skipSpace r)).map fun (items, rest) => (value :: items, rest)
        else if c.val = 0x5D then .ok ([value], r)
        else .error .malformed

/-- Reads the fields of an object up to its closing brace, after the fields already read. -/
def readFields :
    Nat → Nat → List (Text × Json) → Text → Except JsonError (List (Text × Json) × Text)
  | 0, _, _, _ => .error .malformed
  | _, _, _, [] => .error .malformed
  | budget + 1, levels, acc, c :: r =>
    if c.val = 0x22 then
      match readString r with
      | none => .error .malformed
      | some (key, r) =>
        match skipSpace r with
        | [] => .error .malformed
        | d :: r =>
          if d.val = 0x3A then
            match readValue budget levels (skipSpace r) with
            | .error e => .error e
            | .ok (value, r) =>
              let acc := insertField key value acc
              match skipSpace r with
              | [] => .error .malformed
              | e :: r =>
                if e.val = 0x2C then readFields budget levels acc (skipSpace r)
                else if e.val = 0x7D then .ok (acc, r)
                else .error .malformed
          else .error .malformed
    else .error .malformed

end

/-- Reads a JSON text. -/
def parse (t : Text) : Except JsonError Json :=
  match readValue (t.length + 1) deepest (skipSpace t) with
  | .error e => .error e
  | .ok (value, rest) => if (skipSpace rest).isEmpty then .ok value else .error .malformed

end Json

end MarkupGrammar
