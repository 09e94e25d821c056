import MarkupGrammar.Yaml.Source

/-!
# Plain scalars

A scalar without quotes is made of words. It ends where a mark of YAML stands, at a comment, and in
a block at a line that is not indented far enough. What is between the words of one line is kept,
and line ends are folded.

Each word begins after what is before it, so the rest of a scalar is shorter; the lemmas below say
so.
-/

namespace MarkupGrammar

namespace Yaml

/-- Whether a plain scalar may begin here. The marks of an item, of a key and of a value begin one
only when something follows them at once, and the last two only in a block. -/
def beginsPlain (inFlow : Bool) : Source → Bool
  | [] => false
  | g :: r =>
    let isFree := !g.isGap && !g.isBreak && !g.isAmong "-?:,[]\x7b\x7d#&*!|>'\"%@\x60"
    isFree || (!Source.endsWord r && (g.is '-' || (!inFlow && g.isAmong "?:")))

/-- Whether a word of a plain scalar ends here. -/
def endsPlainWord (inFlow : Bool) : Source → Bool
  | [] => true
  | g :: r =>
    g.isGap || g.isBreak
      || (g.is ':' && (Source.endsWord r || (inFlow && Source.begins ",[]\x7b\x7d" r)))
      || (inFlow && g.isAmong ",?[]\x7b\x7d")

/-- The word of a plain scalar that begins here, and the rest. -/
def takeWord (inFlow : Bool) : Source → Text × Source
  | [] => ([], [])
  | g :: r =>
    if endsPlainWord inFlow (g :: r) then ([], g :: r)
    else
      let (word, rest) := takeWord inFlow r
      (g.char :: word, rest)

/-- A word and the rest make up the whole. -/
theorem length_takeWord (inFlow : Bool) (s : Source) :
    (takeWord inFlow s).1.length + (takeWord inFlow s).2.length = s.length := by
  induction s with
  | nil => rfl
  | cons g r ih =>
    unfold takeWord
    split
    · simp
    · simp only [List.length_cons]
      omega

/-- The line ends that follow a first one, with the indentation after them, and the rest. There are
none where a mark between documents stands: the scalar ends there. -/
def takeLines : Source → Option Text × Source
  | [] => (some [], [])
  | g :: r =>
    if g.isSpace then takeLines r
    else if g.isBreak then
      if Source.separatesDocuments r then (none, r)
      else
        let (others, rest) := takeLines r
        (others.map fun others => g.lineEnd :: others, rest)
    else (some [], g :: r)

theorem length_takeLines_le (s : Source) : (takeLines s).2.length ≤ s.length := by
  induction s with
  | nil => simp [takeLines]
  | cons g r ih =>
    unfold takeLines
    split
    · simp only [List.length_cons]
      omega
    · split
      · split
        · simp
        · simp only [List.length_cons]
          omega
      · simp

/-- What stands between two words of a plain scalar. -/
structure PlainGap where
  /-- The text that it comes to. When there is none, no word of the scalar follows. -/
  text : Text
  /-- Whether a line ends in it. -/
  endsLine : Bool
  rest : Source

/-- The gap that begins here. -/
def takeGap (s : Source) : PlainGap :=
  let spaces := Source.text (s.takeWhile Glyph.isSpace)
  match s.dropWhile Glyph.isSpace with
  | [] => ⟨spaces, false, []⟩
  | g :: r =>
    if !g.isBreak then ⟨spaces, false, g :: r⟩
    else if Source.separatesDocuments r then ⟨[], true, r⟩
    else
      match takeLines r with
      | (none, rest) => ⟨[], true, rest⟩
      | (some others, rest) => ⟨foldLines g.lineEnd others, true, rest⟩

theorem length_takeGap_le (s : Source) : (takeGap s).rest.length ≤ s.length := by
  have dropped : (s.dropWhile Glyph.isSpace).length ≤ s.length :=
    (List.dropWhile_suffix Glyph.isSpace).length_le
  unfold takeGap
  split
  · simp
  · next g r h =>
    rw [h, List.length_cons] at dropped
    have lines := length_takeLines_le r
    split
    · simpa using dropped
    split
    · simp only
      omega
    split <;> next h => (rw [h] at lines; simp only at lines ⊢; omega)

/-- A plain scalar as it was read. -/
structure PlainScalar where
  text : Text
  /-- Whether lines end behind its last word. -/
  endsLine : Bool
  rest : Source

/-- The plain scalar that begins here, with words at or beyond a column when it stands in a block;
nothing when there is no word. -/
def readPlain? (inFlow : Bool) (margin : Nat) (s : Source) : Option PlainScalar :=
  match h : takeWord inFlow s with
  | ([], _) => none
  | (c :: word, r) =>
    let gap := takeGap r
    let isLast :=
      gap.text.isEmpty || Source.begins "#" gap.rest
        || (!inFlow && gap.rest.head?.any fun g => g.column < margin)
    if isLast then some ⟨c :: word, gap.endsLine, gap.rest⟩
    else
      have : gap.rest.length < s.length := by
        have all := length_takeWord inFlow s
        rw [h, List.length_cons] at all
        have : gap.rest.length ≤ r.length := length_takeGap_le r
        simp only at all
        omega
      match readPlain? inFlow margin gap.rest with
      | none => some ⟨c :: word, gap.endsLine, gap.rest⟩
      | some more => some ⟨c :: word ++ gap.text ++ more.text, more.endsLine, more.rest⟩
termination_by s.length

end Yaml

end MarkupGrammar
