import MarkupGrammar.Markup.Tag

/-!
# What is wrong with a document's tags

When a document does not parse, the author wants the place to mend. Two scans look for it. A `<`
that can begin no markup is the surest sign; failing that, each closing tag takes back the latest
opening tag of its name, and what is left over on either side is the mistake: first a closing tag
that found nothing to take back, else the earliest opening tag that nothing took back.
-/

namespace MarkupGrammar

/-- What a tag that has no counterpart is. -/
inductive TagProblem where
  | orphan (name : Text)
  | unclosed (name : Text)
deriving DecidableEq

namespace TagProblem

/-- The wording of a problem. -/
def message : TagProblem → Text
  | .orphan name =>
    Text.ofString "Orphan closing tag </" ++ name ++ Text.ofString "> without matching opening tag"
  | .unclosed name => Text.ofString "Unclosed tag <" ++ name ++ Text.ofString ">"

end TagProblem

namespace Balance

/-- The tags that have no counterpart: opening tags not yet closed, latest first, and closing tags
that closed nothing, latest first. -/
structure Unmatched where
  openings : List Tag
  orphans : List Tag

/-- Takes the latest opening tag of a name out of the open ones. -/
def takeBack? (name : Text) : List Tag → Option (List Tag)
  | [] => none
  | tag :: r => if tag.name = name then some r else (takeBack? name r).map (tag :: ·)

/-- One more tag. -/
def step (u : Unmatched) (tag : Tag) : Unmatched :=
  match tag.kind with
  | .opening => { u with openings := tag :: u.openings }
  | .selfClosing => u
  | .closing =>
    match takeBack? tag.name u.openings with
    | some openings => { u with openings }
    | none => { u with orphans := tag :: u.orphans }

/-- The tags without a counterpart. -/
def unmatched (tags : List Tag) : Unmatched := tags.foldl step ⟨[], []⟩

/-- The first orphan closing tag, else the earliest unclosed opening tag. -/
def mismatch? (tags : List Tag) : Option (TagProblem × Position) :=
  let u := unmatched tags
  match u.orphans.getLast? with
  | some orphan => some (.orphan orphan.name, orphan.position)
  | none => u.openings.getLast?.map fun tag => (.unclosed tag.name, tag.position)

end Balance

namespace Text

/-- Where the search for a stray `<` goes on after one that is followed by `r` and begins markup:
behind a comment or character-data section, otherwise at once. Behind an unterminated section
nothing is left. -/
def afterBracket (r : Text) : Text :=
  match Construct.ofText r with
  | (.comment, body) => skipPast (ofString "-->") body
  | (.cdata, body) => skipPast (ofString "]]>") body
  | _ => r

theorem length_afterBracket_le (r : Text) : (afterBracket r).length ≤ r.length := by
  have h := Construct.length_ofText_le r
  unfold afterBracket
  split
  · next body hb =>
    rw [hb] at h
    exact Nat.le_trans (length_skipPast_le _ _) h
  · next body hb =>
    rw [hb] at h
    exact Nat.le_trans (length_skipPast_le _ _) h
  · exact Nat.le_refl _

/-- The offset of the first `<` outside comments and character-data sections that cannot begin
markup, in a suffix of a text of length `total`. -/
def strayFrom (total : Nat) : Text → Option Nat
  | [] => none
  | c :: r =>
    if c = CodePoint.ofChar '<' then
      if (Construct.ofText r).1 = .stray then some (total - (c :: r).length)
      else strayFrom total (afterBracket r)
    else strayFrom total r
termination_by t => t.length
decreasing_by
  · exact Nat.lt_succ_of_le (length_afterBracket_le r)
  · simp

/-- The position of the first `<` that cannot begin markup. -/
def strayBracket? (t : Text) : Option Position :=
  (strayFrom t.length t).map fun offset => (LineIndex.ofText t).locate offset

end Text

end MarkupGrammar
