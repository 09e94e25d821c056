import MarkupGrammar.Markup.Position
import MarkupGrammar.Text.Blank

/-!
# The attributes of a tag

What stands between the name of a tag and its end is read for attributes while the document is still
being typed, so every text yields some list: a value may be quoted, bare, unterminated or absent,
and an equals sign without a name is passed over with what follows it.

A scanner's place in the text is the suffix that is left. The offset of a suffix is the length of
the whole less its own, so no counter is carried along.
-/

namespace MarkupGrammar

namespace CodePoint

/-- Whether the code point is one of the two quotes. -/
def isQuote (c : CodePoint) : Bool := c.val = 0x22 || c.val = 0x27

/-- Whether the code point may stand between two attributes. -/
def isAttributeGap (c : CodePoint) : Bool := c.isMarkupSpace || c.val = 0x2F

/-- Whether the code point continues the name of an attribute. -/
def continuesAttributeName (c : CodePoint) : Bool :=
  !(c.isMarkupSpace || c.val = 0x3D || c.val = 0x2F)

end CodePoint

/-- An attribute as it is written: the offset is that of its name, and `value` is `none` when no
equals sign follows the name. -/
structure AttributeSpan where
  name : Text
  value : Option Text
  start : Nat
deriving DecidableEq

/-- An attribute with its name's position in the document. -/
structure Attribute where
  name : Text
  value : Option Text
  position : Position
deriving DecidableEq

namespace AttributeSpan

/-- The value after an equals sign and what is left: up to the closing quote, or up to the next
space when no quote opens it. -/
def valueAfterEquals (t : Text) : Text × Text :=
  match t.dropWhile CodePoint.isMarkupSpace with
  | [] => ([], [])
  | q :: r =>
    if q.isQuote then (r.takeWhile (· != q), (r.dropWhile (· != q)).drop 1)
    else
      ((q :: r).takeWhile fun c => !c.isMarkupSpace, (q :: r).dropWhile fun c => !c.isMarkupSpace)

/-- The value that follows a name, if an equals sign does, and what is left. -/
def valueAfterName (t : Text) : Option Text × Text :=
  match t.dropWhile CodePoint.isMarkupSpace with
  | [] => (none, [])
  | c :: r =>
    if c = CodePoint.ofChar '=' then
      let (value, rest) := valueAfterEquals r
      (some value, rest)
    else (none, c :: r)

theorem length_dropWhile_le (p : CodePoint → Bool) (t : Text) :
    (t.dropWhile p).length ≤ t.length :=
  (List.dropWhile_suffix p).length_le

theorem length_valueAfterEquals_le (t : Text) : (valueAfterEquals t).2.length ≤ t.length := by
  have h := length_dropWhile_le CodePoint.isMarkupSpace t
  unfold valueAfterEquals
  split
  · simp
  · next q r hq =>
    rw [hq] at h
    split
    · have h' := length_dropWhile_le (· != q) r
      simp only [List.length_drop, List.length_cons] at *
      omega
    · have h' := length_dropWhile_le (fun c => !c.isMarkupSpace) (q :: r)
      exact Nat.le_trans h' h

theorem length_valueAfterName_le (t : Text) : (valueAfterName t).2.length ≤ t.length := by
  have h := length_dropWhile_le CodePoint.isMarkupSpace t
  unfold valueAfterName
  split
  · simp
  · next c r hc =>
    rw [hc] at h
    split
    · have h' := length_valueAfterEquals_le r
      simp only [List.length_cons] at h
      exact Nat.le_trans h' (Nat.le_of_succ_le h)
    · exact h

/-- The attributes in a suffix of an attribute text of length `total`. -/
def scanFrom (total : Nat) : Text → List AttributeSpan
  | [] => []
  | c :: r =>
    if c.isAttributeGap then scanFrom total r
    else if c = CodePoint.ofChar '=' then scanFrom total ((valueAfterEquals r).2.drop 1)
    else
      ⟨c :: r.takeWhile CodePoint.continuesAttributeName,
        (valueAfterName (r.dropWhile CodePoint.continuesAttributeName)).1,
        total - (c :: r).length⟩ ::
        scanFrom total (valueAfterName (r.dropWhile CodePoint.continuesAttributeName)).2
termination_by t => t.length
decreasing_by
  · simp
  · have h := length_valueAfterEquals_le r
    simp only [List.length_drop, List.length_cons]
    omega
  · have h := length_valueAfterName_le (r.dropWhile CodePoint.continuesAttributeName)
    have h' := length_dropWhile_le CodePoint.continuesAttributeName r
    simp only [List.length_cons]
    omega

/-- The attributes of an attribute text, in order. -/
def scan (t : Text) : List AttributeSpan := scanFrom t.length t

/-- The attribute in a document whose attribute text begins at `offset`. -/
def locate (index : LineIndex) (offset : Int) (span : AttributeSpan) : Attribute :=
  ⟨span.name, span.value, index.locate (offset + span.start)⟩

end AttributeSpan

namespace Attribute

/-- The attributes of an attribute text that begins at `offset` in the indexed document. -/
def ofText (index : LineIndex) (offset : Int) (t : Text) : List Attribute :=
  (AttributeSpan.scan t).map (AttributeSpan.locate index offset)

end Attribute

end MarkupGrammar
