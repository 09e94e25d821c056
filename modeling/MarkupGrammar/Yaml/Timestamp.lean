import MarkupGrammar.Yaml.Source

/-!
# Times in YAML

A plain scalar may be a day, or a day with a time of that day. JSON has no times, so the value is a
text again: the day and the time with all their digits, a space between them. A text can have the
form of a time and yet name none; then the first part that does not exist is told.
-/

namespace MarkupGrammar

namespace Yaml

/-- A time of a day. -/
structure Clock where
  hour : Nat
  minute : Nat
  second : Nat
  microsecond : Nat
  /-- The distance from the prime meridian's time in minutes, where it is given. -/
  offset : Option Int

/-- A day, and perhaps a time of it. -/
structure Timestamp where
  year : Nat
  month : Nat
  day : Nat
  clock : Option Clock

namespace Timestamp

/-! ### Reading -/

/-- Takes something from the front of a text, or fails. -/
abbrev Parts := StateT Text Option

/-- A number of one or two digits, or of two if that is asked for. -/
def pair (isFull : Bool) : Parts Nat := do
  let digit (c : CodePoint) : Nat := c.val - 0x30
  match ← get with
  | a :: b :: r =>
    guard a.isAsciiDigit
    if b.isAsciiDigit then
      set r
      return 10 * digit a + digit b
    guard !isFull
    set (b :: r)
    return digit a
  | [a] =>
    guard (a.isAsciiDigit && !isFull)
    set ([] : Text)
    return digit a
  | [] => failure

/-- Passes over one of the characters of a string, if one comes next, and gives it. -/
def accept? (chars : String) : Parts (Option CodePoint) := do
  match ← get with
  | [] => return none
  | c :: r =>
    if (Text.ofString chars).elem c then
      set r
      return some c
    else return none

/-- Passes over a character that has to come next. -/
def expect (chars : String) : Parts Unit := do
  guard (← accept? chars).isSome

/-- Passes over spaces and tabs; says whether there were any. -/
def gap : Parts Bool := do
  let isGap (c : CodePoint) : Bool := c = CodePoint.ofChar ' ' || c = CodePoint.ofChar '\t'
  let t ← get
  set (t.dropWhile isGap)
  return t.head?.any isGap

/-- The part of a second after its point, in digits, of which six count. -/
def fraction : Parts Nat := do
  if (← accept? ".").isNone then return 0
  let t ← get
  set (t.dropWhile CodePoint.isAsciiDigit)
  let digits := (t.takeWhile CodePoint.isAsciiDigit).take 6
  return Text.Numeral.value 10 (digits.map fun c => c.val - 0x30)
    * Nat.pow 10 (6 - digits.length)

/-- The distance from the prime meridian's time, where it is given. -/
def zone : Parts (Option Int) := do
  let hasGap ← gap
  if (← accept? "Z").isSome then return some 0
  match ← accept? "+-" with
  | none =>
    guard !hasGap
    return none
  | some sign =>
    let hours ← pair false
    let minutes ← if (← accept? ":").isSome then pair true else pure 0
    let n : Int := 60 * hours + minutes
    return some (if sign = CodePoint.ofChar '-' then -n else n)

/-- A time of a day. -/
def clockParts : Parts Clock := do
  let hour ← pair false
  expect ":"
  let minute ← pair true
  expect ":"
  let second ← pair true
  return ⟨hour, minute, second, ← fraction, ← zone⟩

/-- A day, and perhaps a time of it. A day alone has all its digits in a plain scalar. -/
def parts (isPlain : Bool) : Parts Timestamp := do
  let year := 100 * (← pair true) + (← pair true)
  expect "-"
  let dayText ← get
  let month ← pair false
  expect "-"
  let day ← pair false
  if (← get).isEmpty then
    guard (!isPlain || dayText.length = 5)
    return ⟨year, month, day, none⟩
  if (← accept? "Tt").isNone then guard (← gap)
  let clock ← clockParts
  guard (← get).isEmpty
  return ⟨year, month, day, some clock⟩

/-- The time that a text has the form of. -/
def ofText? (isPlain : Bool) (t : Text) : Option Timestamp :=
  ((parts isPlain).run t).map fun (v, _) => v

/-! ### The calendar -/

def isLeapYear (year : Nat) : Bool := year % 4 = 0 && (year % 100 != 0 || year % 400 = 0)

/-- The number of days of a month. -/
def daysIn (year month : Nat) : Nat :=
  if month = 2 then if isLeapYear year then 29 else 28
  else if [4, 6, 9, 11].contains month then 30
  else 31

/-- The first part of a time that does not exist. -/
def impossible? (t : Timestamp) : Option TimePart :=
  let offset := (t.clock.bind Clock.offset).getD 0
  if 24 * 60 ≤ offset.natAbs then some (.offset (60 * offset))
  else if t.year = 0 then some (.year t.year)
  else if t.month = 0 || 12 < t.month then some .month
  else if t.day = 0 || daysIn t.year t.month < t.day then some .day
  else
    t.clock.bind fun c =>
      if 24 ≤ c.hour then some .hour
      else if 60 ≤ c.minute then some .minute
      else if 60 ≤ c.second then some .second
      else none

/-! ### Writing -/

/-- A number with at least so many digits. -/
def padded (width n : Nat) : Text :=
  let digits := Text.ofNat n
  List.replicate (width - digits.length) (CodePoint.ofChar '0') ++ digits

/-- Numbers of two digits with a mark between them. -/
def joined (mark : String) (ns : List Nat) : Text :=
  Text.join (Text.ofString mark) (ns.map (padded 2))

/-- The text of a time of a day. -/
def clockText (c : Clock) : Text :=
  let fraction := if c.microsecond = 0 then [] else Text.ofString "." ++ padded 6 c.microsecond
  let zone :=
    match c.offset with
    | none => []
    | some n =>
      Text.ofString (if n < 0 then "-" else "+") ++ joined ":" [n.natAbs / 60, n.natAbs % 60]
  joined ":" [c.hour, c.minute, c.second] ++ fraction ++ zone

/-- The text of a time. -/
def toText (t : Timestamp) : Text :=
  let day := padded 4 t.year ++ Text.ofString "-" ++ joined "-" [t.month, t.day]
  match t.clock with
  | none => day
  | some c => day ++ Text.ofString " " ++ clockText c

end Timestamp

end Yaml

end MarkupGrammar
