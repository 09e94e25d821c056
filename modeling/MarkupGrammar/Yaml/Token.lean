import MarkupGrammar.Yaml.BlockScalar
import MarkupGrammar.Yaml.Plain
import MarkupGrammar.Yaml.Property
import MarkupGrammar.Yaml.Quoted

/-!
# Tokens of YAML

A YAML text is cut into tokens, and its indentation becomes tokens too: one where a block of
sequence items or of mapping entries begins, and one where it ends. After that no token's place
matters any more.

That a scalar is a key shows only at the colon after it. So the place where one may have begun is
kept, for each bracket that is open, and the mark of a key is put there once the colon is met. It
has to be met on the same line and within `PendingKey.reach` code points.

Whatever is wrong becomes the last token, behind those that are certain by then. So a reader of
tokens that fails on its own account before it fails first.
-/

namespace MarkupGrammar

namespace Yaml

/-- A token that is no more than a sign. -/
inductive Mark where
  | textEnd
  | documentStart
  | documentEnd
  | blockSequence
  | blockMapping
  | blockEnd
  | flowSequence
  | flowMapping
  | flowSequenceEnd
  | flowMappingEnd
  | comma
  | item
  | key
  | value
deriving DecidableEq

/-- A token. -/
inductive Token where
  | mark (m : Mark)
  | directive (d : Directive)
  | alias (name : Text)
  | anchor (name : Text)
  | tag (handle : Option Text) (rest : Text)
  | scalar (isPlain : Bool) (t : Text)
  /-- The text is wrong here. -/
  | flaw (e : YamlError)

/-- The place where a key may have begun. -/
structure PendingKey where
  /-- How many tokens there were before it. -/
  before : Nat
  start : Glyph
  /-- Whether nothing but a key can stand there. -/
  isRequired : Bool

namespace PendingKey

/-- The greatest number of code points between the beginning of a key and its colon. -/
def reach : Nat := 1024

/-- The place, unless it is too far away by now to be a key's. -/
def kept (now : Glyph) (key : Option PendingKey) : Except YamlError (Option PendingKey) :=
  match key with
  | none => .ok none
  | some k =>
    if k.start.line = now.line && now.index - k.start.index ≤ reach then .ok key
    else if k.isRequired then .error .malformed
    else .ok none

end PendingKey

/-- The state of cutting a text into tokens. -/
structure Layout where
  rest : Source
  /-- The tokens so far, the last first. -/
  tokens : List Token
  /-- Their number. -/
  count : Nat
  /-- The columns at which the contents of the open blocks may begin at the least, the innermost
  first. -/
  margins : List Nat
  /-- The place where a key may have begun since the last open bracket. -/
  pending : Option PendingKey
  /-- The places before it, one for each open bracket, the innermost first. -/
  outer : List (Option PendingKey)
  /-- Whether a key may begin here. -/
  admitsKey : Bool

namespace Layout

/-- The state before a text. A byte order mark at its beginning is passed over. -/
def start (t : Text) : Layout :=
  ⟨place 0 0 0 ((Text.after? [CodePoint.ofNat 0xFEFF] t).getD t), [], 0, [], none, [], true⟩

/-- Whether a bracket is open. -/
def isInFlow (l : Layout) : Bool := !l.outer.isEmpty

/-- The least column of the contents of the innermost block. -/
def margin (l : Layout) : Nat := l.margins.headD 0

/-- Adds a token. -/
def add (t : Token) (l : Layout) : Layout :=
  { l with tokens := t :: l.tokens, count := l.count + 1 }

/-- Adds a mark. -/
def addMark (m : Mark) (l : Layout) : Layout := l.add (.mark m)

/-- The tokens when something is wrong. Those from where a key may have begun are uncertain. -/
def broken (e : YamlError) (l : Layout) : List Token :=
  let certain :=
    match (l.pending :: l.outer).reverse.findSome? id with
    | some k => l.tokens.drop (l.count - k.before)
    | none => l.tokens
  (Token.flaw e :: certain).reverse

/-! ### Gaps, blocks and keys -/

/-- What follows the spaces, the line ends and the comments here, and whether a line ends among
them. -/
def skipGap (inComment endsLine : Bool) : Source → Source × Bool
  | [] => ([], endsLine)
  | g :: r =>
    if g.isBreak then skipGap false true r
    else if inComment || g.isSpace then skipGap inComment endsLine r
    else if g.is '#' then skipGap true endsLine r
    else (g :: r, endsLine)

/-- Goes on to the next token. In a block a key may begin on each line. -/
def toToken (l : Layout) : Layout :=
  let (rest, endsLine) := skipGap false false l.rest
  { l with rest, admitsKey := l.admitsKey || (endsLine && !l.isInFlow) }

/-- Gives up the places that are too far away to be a key's. -/
def expire (now : Glyph) (l : Layout) : Except YamlError Layout := do
  let pending ← PendingKey.kept now l.pending
  return { l with pending, outer := ← l.outer.mapM (PendingKey.kept now) }

/-- Gives up the place where a key may have begun. -/
def dropPending (l : Layout) : Except YamlError Layout :=
  if l.pending.any fun k => k.isRequired then .error .malformed else .ok { l with pending := none }

/-- Keeps the place of the next token, if a key may begin there. It has to be one where the entries
of the innermost block begin. -/
def savePending (now : Glyph) (l : Layout) : Except YamlError Layout := do
  if !l.admitsKey then return l
  let l ← l.dropPending
  let isRequired := !l.isInFlow && l.margin = now.column + 1
  return { l with pending := some ⟨l.count, now, isRequired⟩ }

/-- Ends the blocks whose contents begin beyond a column. Within brackets indentation does not
count. -/
def unwind (keeps : Nat → Bool) (l : Layout) : Layout :=
  if l.isInFlow then l
  else
    let ended := l.margins.takeWhile fun m => !keeps m
    { l with
      margins := l.margins.drop ended.length
      tokens := ended.map (fun _ => Token.mark .blockEnd) ++ l.tokens
      count := l.count + ended.length }

/-- Begins a block at a column, unless it has begun already. -/
def openBlock (column : Nat) (m : Mark) (l : Layout) : Layout :=
  if l.margin ≤ column then { l.addMark m with margins := (column + 1) :: l.margins } else l

/-! ### Tokens -/

/-- A step that takes the next token, which begins with a code point. -/
abbrev Step := Glyph → Source → Layout → Except YamlError Layout

/-- Takes what a reader finds. -/
def take (reading : Reading Token) (s : Source) (l : Layout) : Except YamlError Layout :=
  match reading.run s with
  | some (t, rest) => .ok { l.add t with rest }
  | none => .error .malformed

/-- A directive. -/
def takeDirective : Step := fun _ r l => do
  let l ← (l.unwind fun _ => false).dropPending
  { l with admitsKey := false }.take (Token.directive <$> Reading.directive) r

/-- A mark between documents. -/
def takeSeparator (m : Mark) : Step := fun _ r l => do
  let l ← (l.unwind fun _ => false).dropPending
  return { l.addMark m with admitsKey := false, rest := r.drop 2 }

/-- An opening bracket. It may begin a key. -/
def takeOpening (m : Mark) : Step := fun g r l => do
  let l ← l.savePending g
  let outer := l.pending :: l.outer
  return { l.addMark m with pending := none, outer, admitsKey := true, rest := r }

/-- A closing bracket. -/
def takeClosing (m : Mark) : Step := fun _ r l => do
  let l ← l.dropPending
  match l.outer with
  | [] => .error .malformed
  | pending :: outer => return { l.addMark m with pending, outer, admitsKey := false, rest := r }

/-- A comma. -/
def takeComma : Step := fun _ r l => do
  let l ← l.dropPending
  return { l.addMark .comma with admitsKey := true, rest := r }

/-- The mark of an item. In a block it begins a sequence. -/
def takeItem : Step := fun g r l => do
  let l ←
    if l.isInFlow then pure l
    else if l.admitsKey then pure (l.openBlock g.column .blockSequence)
    else throw .malformed
  let l ← l.dropPending
  return { l.addMark .item with admitsKey := true, rest := r }

/-- The mark before a key. In a block it begins a mapping. -/
def takeKey : Step := fun g r l => do
  let l ←
    if l.isInFlow then pure l
    else if l.admitsKey then pure (l.openBlock g.column .blockMapping)
    else throw .malformed
  let l ← l.dropPending
  return { l.addMark .key with admitsKey := !l.isInFlow, rest := r }

/-- Puts the mark of a key, and before it perhaps that of a mapping, where a key has begun. -/
def insertKey (k : PendingKey) (l : Layout) : Layout :=
  let later := l.tokens.take (l.count - k.before)
  let earlier : Layout := { l with tokens := l.tokens.drop later.length, count := k.before }
  let opened := if l.isInFlow then earlier else earlier.openBlock k.start.column .blockMapping
  let marked := opened.addMark .key
  { marked with tokens := later ++ marked.tokens, count := marked.count + later.length }

/-- A colon. It makes a key of what has begun on the same line, or else stands for a value whose key
is empty or was marked. -/
def takeValue : Step := fun g r l => do
  match l.pending with
  | some k =>
    let l := { l with pending := none }.insertKey k
    return { l.addMark .value with admitsKey := false, rest := r }
  | none =>
    let l ←
      if l.isInFlow then pure l
      else if l.admitsKey then pure (l.openBlock g.column .blockMapping)
      else throw .malformed
    return { l.addMark .value with admitsKey := !l.isInFlow, rest := r }

/-- An alias, an anchor or a tag. -/
def takeProperty (reading : Reading Token) (s : Source) : Step := fun g _ l => do
  let l ← l.savePending g
  { l with admitsKey := false }.take reading s

/-- A block scalar. The line after it may begin with a key. -/
def takeBlockScalar (isFolded : Bool) : Step := fun _ r l => do
  let l ← l.dropPending
  match readBlockScalar? isFolded l.margin r with
  | some (t, rest) => return { l.add (.scalar false t) with admitsKey := true, rest }
  | none => throw .malformed

/-- A quoted scalar. -/
def takeQuoted (isDouble : Bool) : Step := fun g r l => do
  let l ← l.savePending g
  let (t, rest) ← readQuoted isDouble .text [] r
  return { l.add (.scalar false t) with admitsKey := false, rest }

/-- A plain scalar. When lines end behind it a key may begin after it. -/
def takePlain : Step := fun g r l => do
  let l ← l.savePending g
  match readPlain? l.isInFlow l.margin (g :: r) with
  | some found =>
    return { l.add (.scalar true found.text) with admitsKey := found.endsLine, rest := found.rest }
  | none => throw .malformed

/-- Takes the next token. Its first code point decides what it is, and for a mark what follows
it. -/
def takeToken : Step := fun g r l => do
  let l := (← l.expire g).unwind fun m => m ≤ g.column + 1
  let isFirst := g.column = 0
  -- a mark of an item, a key or a value is a word of its own, but the last two not within brackets
  let isAlone := Source.endsWord r
  let isSign := l.isInFlow || isAlone
  if isFirst && g.is '%' then takeDirective g r l
  else if isFirst && Source.hasMark "---" (g :: r) then takeSeparator .documentStart g r l
  else if isFirst && Source.hasMark "..." (g :: r) then takeSeparator .documentEnd g r l
  else if g.is '[' then takeOpening .flowSequence g r l
  else if g.is '\x7b' then takeOpening .flowMapping g r l
  else if g.is ']' then takeClosing .flowSequenceEnd g r l
  else if g.is '\x7d' then takeClosing .flowMappingEnd g r l
  else if g.is ',' then takeComma g r l
  else if g.is '-' && isAlone then takeItem g r l
  else if g.is '?' && isSign then takeKey g r l
  else if g.is ':' && isSign then takeValue g r l
  else if g.is '*' then takeProperty (Token.alias <$> Reading.anchorName) r g r l
  else if g.is '&' then takeProperty (Token.anchor <$> Reading.anchorName) r g r l
  else if g.is '!' then
    takeProperty ((fun (handle, rest) => Token.tag handle rest) <$> Reading.tag) (g :: r) g r l
  else if g.is '|' && !l.isInFlow then takeBlockScalar false g r l
  else if g.is '>' && !l.isInFlow then takeBlockScalar true g r l
  else if g.is '\'' then takeQuoted false g r l
  else if g.is '"' then takeQuoted true g r l
  else if beginsPlain l.isInFlow (g :: r) then takePlain g r l
  else throw .malformed

/-- The end of a text, where all blocks end. -/
def finish (l : Layout) : Except YamlError Layout := do
  if l.outer.any fun k => k.any fun k => k.isRequired then throw .malformed
  let l ← (l.unwind fun _ => false).dropPending
  return l.addMark .textEnd

/-- The tokens of what is left, after those already taken. Each step takes at least one code point,
so the length of the text is budget enough. -/
def run : Nat → Layout → List Token
  | 0, l => l.broken .malformed
  | budget + 1, l =>
    let l := l.toToken
    match l.rest with
    | [] =>
      match l.finish with
      | .ok l => l.tokens.reverse
      | .error e => l.broken e
    | g :: r =>
      match takeToken g r l with
      | .ok next => run budget next
      | .error e => l.broken e

end Layout

/-- The tokens of a text. -/
def Token.ofText (t : Text) : List Token := (Layout.start t).run (t.length + 1)

end Yaml

end MarkupGrammar
