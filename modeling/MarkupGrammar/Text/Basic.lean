/-!
# Text as code points

Documents and grammars arrive as JSON strings, and a JSON string may hold a surrogate that stands
alone. `Char` has no such value, so text here is a list of `CodePoint`s, surrogates included.
Offsets, lengths and the order of names all count code points.

Scanners work on suffixes: a position in a document is what is left of it. Two operations carry
most of them, `after?` (drop a known beginning) and `cutAt?` (stop at the first occurrence of a
delimiter).
-/

namespace MarkupGrammar

/-- A Unicode code point. Surrogates are code points, so a lone one can be kept and reported. -/
structure CodePoint where
  val : Nat
  isLt : val < 0x110000
deriving DecidableEq

namespace CodePoint

/-- The code point of a character. -/
def ofChar (c : Char) : CodePoint where
  val := c.toNat
  isLt := by
    have h := c.valid
    simp only [UInt32.isValidChar, Nat.isValidChar] at h
    simp only [Char.toNat]
    omega

instance : Coe Char CodePoint := ⟨ofChar⟩

instance : Inhabited CodePoint := ⟨ofChar ' '⟩

/-- The code point with number `n`; numbers beyond the last code point give the replacement
character. -/
def ofNat (n : Nat) : CodePoint :=
  if h : n < 0x110000 then ⟨n, h⟩ else ofChar '\uFFFD'

/-- Half of a UTF-16 pair. No encoding form but UTF-16 can write one on its own. -/
def isSurrogate (c : CodePoint) : Bool := 0xD800 ≤ c.val && c.val ≤ 0xDFFF

def isAsciiDigit (c : CodePoint) : Bool := 0x30 ≤ c.val && c.val ≤ 0x39

def isAsciiUpper (c : CodePoint) : Bool := 0x41 ≤ c.val && c.val ≤ 0x5A

def isAsciiLower (c : CodePoint) : Bool := 0x61 ≤ c.val && c.val ≤ 0x7A

def isAsciiLetter (c : CodePoint) : Bool := c.isAsciiUpper || c.isAsciiLower

/-- Whether one of the ranges, given by their first and last numbers, holds the code point. -/
def within (ranges : List (Nat × Nat)) (c : CodePoint) : Bool :=
  ranges.any fun (low, high) => low ≤ c.val && c.val ≤ high

/-- The value of a hexadecimal digit, in either case. -/
def hexDigit? (c : CodePoint) : Option Nat :=
  if c.isAsciiDigit then some (c.val - 0x30)
  else if 0x41 ≤ c.val && c.val ≤ 0x46 then some (c.val - 0x37)
  else if 0x61 ≤ c.val && c.val ≤ 0x66 then some (c.val - 0x57)
  else none

/-- The hexadecimal digit for a number below sixteen, in lower case. -/
def hexDigit (n : Nat) : CodePoint :=
  if n < 10 then ofNat (0x30 + n) else ofNat (0x57 + n)

end CodePoint

/-- Text is a list of code points. -/
abbrev Text := List CodePoint

namespace Text

/-- The code points of a string. -/
def ofString (s : String) : Text := s.toList.map CodePoint.ofChar

instance : Coe String Text := ⟨ofString⟩

/-- What follows `lead` in a text that begins with it. -/
def after? (lead t : Text) : Option Text := lead.isPrefixOf? t

theorem after?_eq_some_iff {lead t rest : Text} :
    after? lead t = some rest ↔ t = lead ++ rest := by
  induction lead generalizing t with
  | nil =>
    show some t = some rest ↔ t = rest
    exact ⟨Option.some.inj, congrArg some⟩
  | cons a l ih =>
    cases t with
    | nil =>
      show none = some rest ↔ [] = a :: (l ++ rest)
      simp
    | cons b u =>
      show (if a == b then after? l u else none) = some rest ↔ b :: u = a :: (l ++ rest)
      by_cases hab : a = b
      · simp [hab, ih]
      · have hba : b ≠ a := fun h => hab h.symm
        simp [hab, hba]

/-- Whether `t` begins with `lead`. -/
def startsWith (lead t : Text) : Bool := lead.isPrefixOf t

/-- Whether `t` ends with `tail`. -/
def endsWith (tail t : Text) : Bool := tail.isSuffixOf t

/-- The part before the first occurrence of `mark`, and the part after it; `none` when `mark` does
not occur. -/
def cutAt? (mark : Text) : Text → Option (Text × Text)
  | [] => if mark.isEmpty then some ([], []) else none
  | c :: r =>
    match after? mark (c :: r) with
    | some rest => some ([], rest)
    | none => (cutAt? mark r).map fun (before, rest) => (c :: before, rest)

/-- Whether `mark` occurs in `t`. -/
def includes (mark t : Text) : Bool := (cutAt? mark t).isSome

/-- The text without the code points for which `drop` holds at its end. -/
def dropEndWhile (drop : CodePoint → Bool) (t : Text) : Text :=
  (t.reverse.dropWhile drop).reverse

/-- The texts with `separator` between each two neighbours. -/
def join (separator : Text) : List Text → Text
  | [] => []
  | [t] => t
  | t :: ts => t ++ separator ++ join separator ts

/-- The pieces of a text between the occurrences of one code point. -/
def splitOn (mark : CodePoint) : Text → List Text
  | [] => [[]]
  | c :: r =>
    if c = mark then [] :: splitOn mark r
    else
      match splitOn mark r with
      | [] => [[c]]
      | piece :: pieces => (c :: piece) :: pieces

/-- Order by code point, a proper beginning first. -/
def compare : Text → Text → Ordering
  | [], [] => .eq
  | [], _ :: _ => .lt
  | _ :: _, [] => .gt
  | a :: s, b :: t => (Ord.compare a.val b.val).then (compare s t)

/-- The digits of a number in base ten. -/
def ofNat (n : Nat) : Text := (Nat.toDigits 10 n).map CodePoint.ofChar

/-- The decimal numeral of an integer, with a sign when it is negative. -/
def ofInt : Int → Text
  | .ofNat n => ofNat n
  | .negSucc n => ofString "-" ++ ofNat (n + 1)

/-- Makes a string of a text; a lone surrogate becomes the replacement character. -/
def asString (t : Text) : String :=
  String.ofList (t.map fun c => if c.isSurrogate then '\uFFFD' else Char.ofNat c.val)

end Text

end MarkupGrammar
