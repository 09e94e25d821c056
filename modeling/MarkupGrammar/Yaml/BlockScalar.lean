import MarkupGrammar.Yaml.Source

/-!
# Block scalars

A bar or a greater-than sign announces a scalar on the lines that follow. They are indented alike,
by a number that is announced too or that the first lines show. After a bar the lines are kept as
they are; after the other sign they are folded, but for lines that begin with a blank. The
announcement may also say what becomes of the line ends at the end of the scalar.
-/

namespace MarkupGrammar

namespace Yaml

/-- What becomes of the line ends at the end of a block scalar. -/
inductive Chomping where
  /-- There are none. -/
  | strip
  /-- The last line keeps its own. -/
  | clip
  /-- All are kept. -/
  | keep

/-- The chomping that a sign stands for. -/
def Chomping.ofSign? (g : Glyph) : Option Chomping :=
  if g.is '+' then some .keep else if g.is '-' then some .strip else none

/-- What a block scalar's announcement says after its sign, and the rest: the chomping, and the
number of spaces by which its lines are indented. Either may come first. -/
def readAnnouncement? (s : Source) : Option (Chomping × Option Nat × Source) :=
  let chomping (s : Source) : Chomping × Source :=
    match s with
    | [] => (.clip, [])
    | g :: r => ((Chomping.ofSign? g).map fun c => (c, r)).getD (.clip, g :: r)
  let indentation (s : Source) : Option (Option Nat × Source) :=
    match s with
    | [] => some (none, [])
    | g :: r =>
      if !g.char.isAsciiDigit then some (none, g :: r)
      else if g.is '0' then none
      else some (some (g.char.val - 0x30), r)
  let ended (found : Chomping × Option Nat × Source) : Option (Chomping × Option Nat × Source) :=
    if Source.endsLine found.2.2 || Source.begins " " found.2.2 then some found else none
  if Source.begins "+-" s then do
    let (c, r) := chomping s
    let (n, r) ← indentation r
    ended (c, n, r)
  else do
    let (n, r) ← indentation s
    let (c, r) := if n.isSome then chomping r else (.clip, r)
    ended (c, n, r)

/-- The empty lines at the beginning of a scalar whose indentation is not announced: their ends, the
greatest column at which one of them or the indentation of the next line ends, and the rest. -/
def leadingLines : Source → Text × Nat × Source
  | [] => ([], 0, [])
  | g :: r =>
    if g.isBreak then
      let (ends, column, rest) := leadingLines r
      (g.lineEnd :: ends, column, rest)
    else if g.isSpace then
      let (ends, column, rest) := leadingLines r
      (ends, max (g.column + 1) column, rest)
    else ([], 0, g :: r)

/-- The ends of the empty lines from here on, and the next line from the given column on, or from
where it is not indented any further. -/
def emptyLines (indent : Nat) : Source → Text × Source
  | [] => ([], [])
  | g :: r =>
    if g.isSpace && g.column < indent then emptyLines indent r
    else if g.isBreak then
      let (ends, rest) := emptyLines indent r
      (g.lineEnd :: ends, rest)
    else ([], g :: r)

theorem length_emptyLines_le (indent : Nat) (s : Source) :
    (emptyLines indent s).2.length ≤ s.length := by
  induction s with
  | nil => simp [emptyLines]
  | cons g r ih =>
    unfold emptyLines
    split
    · simp only [List.length_cons]
      omega
    · split
      · simp only [List.length_cons]
        omega
      · simp

/-- What a line end comes to before a line that follows, with empty lines between them. -/
def joinLines (isFolded : Bool) (line : Source) (lineEnd : CodePoint) (empty : Text)
    (next : Source) : Text :=
  if isFolded && lineEnd = CodePoint.ofChar '\n' && !Source.begins " \t" line
      && !Source.begins " \t" next then
    if empty.isEmpty then [CodePoint.ofChar ' '] else []
  else [lineEnd]

/-- What the line ends at the end of a scalar come to: that of the last line, and those of the empty
lines after it. -/
def Chomping.ending (lineEnd empty : Text) : Chomping → Text
  | .strip => []
  | .clip => lineEnd
  | .keep => lineEnd ++ empty

/-- The lines of a block scalar from here on, after empty lines, and the rest. The line end of the
line before is given too. -/
def readLines (isFolded : Bool) (chomping : Chomping) (indent : Nat) (lineEnd empty : Text)
    (s : Source) : Text × Source :=
  match s with
  | [] => (chomping.ending lineEnd empty, [])
  | g :: r =>
    if g.column != indent then (chomping.ending lineEnd empty, g :: r)
    else
      let line := (g :: r).takeWhile fun g => !g.isBreak
      match h : (g :: r).dropWhile fun g => !g.isBreak with
      | [] => (empty ++ Source.text line ++ chomping.ending [] [], [])
      | b :: rest =>
        let (empty', next) := emptyLines indent rest
        have : (emptyLines indent rest).2.length < (g :: r).length := by
          have dropped : ((g :: r).dropWhile fun g => !g.isBreak).length ≤ (g :: r).length :=
            (List.dropWhile_suffix _).length_le
          rw [h, List.length_cons] at dropped
          have := length_emptyLines_le indent rest
          omega
        let goesOn := next.head?.any fun g => g.column = indent
        let between := if goesOn then joinLines isFolded line b.lineEnd empty' next else []
        let (more, rest) :=
          readLines isFolded chomping indent [b.lineEnd] empty' (emptyLines indent rest).2
        (empty ++ Source.text line ++ between ++ more, rest)
termination_by s.length
decreasing_by assumption

/-- Reads a block scalar whose sign has been passed. Its lines are at or beyond a column. -/
def readBlockScalar? (isFolded : Bool) (margin : Nat) (s : Source) : Option (Text × Source) := do
  let (chomping, announced, r) ← readAnnouncement? s
  let r ← Source.afterLine? r
  let least := max 1 margin
  match announced with
  | some n =>
    let indent := least + n - 1
    let (empty, r) := emptyLines indent r
    return readLines isFolded chomping indent [] empty r
  | none =>
    let (empty, column, r) := leadingLines r
    return readLines isFolded chomping (max least column) [] empty r

end Yaml

end MarkupGrammar
