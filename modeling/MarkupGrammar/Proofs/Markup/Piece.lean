import MarkupGrammar.Proofs.Markup.Lexing

/-!
# Pieces of a document

Not every document is a manuscript: while an author works on it, tags are missing their
counterparts. What it is made of is the same, piece after piece, and a manuscript is one way to
arrange the pieces. `Piece.tagsOfAll` says which tags a document in pieces has, and the scanner
finds them whether or not they match.

## Main results

* `Piece.renderAll_piecesOfAll` — a manuscript is written down as its pieces are, in order
* `Tag.ofText_eq_tagsOfAll` — the tags of the text of a document are those of its pieces
-/

namespace MarkupGrammar

theorem Text.isMarkupSpace_nil : ∀ c ∈ ([] : Text), c.isMarkupSpace = true :=
  List.forall_mem_nil _

/-- No white space. -/
def Spacing.none : Spacing := ⟨[], Text.isMarkupSpace_nil⟩

/-- A tag without attributes. -/
def WrittenTag.plain (name : XmlName) : WrittenTag := ⟨name, [], Spacing.none⟩

/-- A piece of a document: one tag, or all of another construct. -/
inductive Piece where
  | opening (tag : WrittenTag) (closed : Option Spacing)
  | closing (tag : WrittenTag) (gap : Spacing)
  | prose (t : Text) (noTag : CodePoint.ofChar '<' ∉ t)
  | comment (body : Text) (noHyphens : ¬ Text.ofString "--" <:+: body)
      (noLastHyphen : body.getLast? ≠ some (CodePoint.ofChar '-'))
  | cdata (body : Text) (noEnd : ¬ Text.ofString "]]>" <:+: body)
  | instruction (body : Text) (noEnd : ¬ Text.ofString "?>" <:+: body)

namespace Piece

/-- The text of a piece. -/
def render : Piece → Text
  | opening tag closed => tag.render closed
  | closing tag gap => tag.renderClosing gap
  | prose t _ => t
  | comment body _ _ => Text.ofString "<!--" ++ (body ++ Text.ofString "-->")
  | cdata body _ => Text.ofString "<![CDATA[" ++ (body ++ Text.ofString "]]>")
  | instruction body _ => Text.ofString "<?" ++ (body ++ Text.ofString "?>")

/-- The text of pieces, one after the other. -/
def renderAll (ps : List Piece) : Text := ps.flatMap render

theorem renderAll_cons (w : Piece) (ps : List Piece) :
    renderAll (w :: ps) = w.render ++ renderAll ps := List.flatMap_cons

theorem renderAll_append (ps qs : List Piece) :
    renderAll (ps ++ qs) = renderAll ps ++ renderAll qs := List.flatMap_append

/-- The values that stand in a piece between quotes. -/
def values : Piece → List Text
  | opening tag _ => tag.attributes.map (·.value)
  | _ => []

/-! ### The tags of a document in pieces -/

/-- The tag of a piece whose text begins at a place, if it is a tag. -/
def tag? (p : Position) : Piece → Option Tag
  | opening tag closed => some (tag.tag (if closed.isSome then .selfClosing else .opening) p)
  | closing tag _ => some ⟨.closing, tag.name.text, p, []⟩
  | _ => none

/-- The tags of pieces whose text begins at a place, in order. -/
def tagsOfAll (p : Position) : List Piece → List Tag
  | [] => []
  | w :: ps => (w.tag? p).toList ++ tagsOfAll (p.past w.render) ps

theorem finds_tag? (before : Text) (w : Piece) :
    TagSpan.Finds before w.render (w.tag? (Position.origin.past before)).toList := by
  cases w with
  | opening tag closed => exact TagSpan.finds_render before tag closed
  | closing tag gap => exact TagSpan.finds_renderClosing before tag gap
  | prose t noTag => exact TagSpan.finds_prose before noTag
  | comment body noHyphens _ => exact TagSpan.finds_comment before noHyphens
  | cdata body noEnd => exact TagSpan.finds_cdata before noEnd
  | instruction body noEnd => exact TagSpan.finds_instruction before noEnd

theorem finds_tagsOfAll (before : Text) (ps : List Piece) :
    TagSpan.Finds before (renderAll ps) (tagsOfAll (Position.origin.past before) ps) := by
  induction ps generalizing before with
  | nil => exact TagSpan.finds_nil before
  | cons w ps ih =>
    have hrest := ih (before ++ w.render)
    rw [Position.past_append] at hrest
    rw [renderAll_cons, tagsOfAll]
    exact (finds_tag? before w).append hrest

end Piece

/-- **The tags of a document are those of its pieces,** whether or not they match. -/
theorem Tag.ofText_eq_tagsOfAll (ps : List Piece) :
    ofText (Piece.renderAll ps) = Piece.tagsOfAll Position.origin ps := by
  have hfinds := Piece.finds_tagsOfAll [] ps (Piece.renderAll ps) [] (by simp)
  rw [List.append_nil, TagSpan.scanFrom, List.map_nil, List.append_nil] at hfinds
  exact hfinds

/-! ### The pieces of a manuscript -/

namespace Passage

mutual

/-- The pieces of a passage: those of an element's content stand between its tags. -/
def pieces : Passage → List Piece
  | element tag content gap => .opening tag none :: (piecesOfAll content ++ [.closing tag gap])
  | emptyElement tag afterSlash => [.opening tag (some afterSlash)]
  | prose t noTag => [.prose t noTag]
  | comment body noHyphens noLastHyphen => [.comment body noHyphens noLastHyphen]
  | cdata body noEnd => [.cdata body noEnd]
  | instruction body noEnd => [.instruction body noEnd]

/-- The pieces of passages, in order. -/
def piecesOfAll : List Passage → List Piece
  | [] => []
  | w :: ws => w.pieces ++ piecesOfAll ws

end

end Passage

namespace Piece

mutual

theorem renderAll_pieces (w : Passage) : renderAll w.pieces = w.render := by
  cases w with
  | element tag content gap =>
    rw [Passage.pieces, Passage.render, renderAll_cons, renderAll_append,
      renderAll_piecesOfAll content]
    simp [renderAll, render]
  | emptyElement tag afterSlash => simp [Passage.pieces, Passage.render, renderAll, render]
  | prose t noTag => simp [Passage.pieces, Passage.render, renderAll, render]
  | comment body noHyphens noLastHyphen =>
    simp [Passage.pieces, Passage.render, renderAll, render]
  | cdata body noEnd => simp [Passage.pieces, Passage.render, renderAll, render]
  | instruction body noEnd => simp [Passage.pieces, Passage.render, renderAll, render]

/-- A manuscript is written down as its pieces are, in order. -/
theorem renderAll_piecesOfAll (ws : List Passage) :
    renderAll (Passage.piecesOfAll ws) = Passage.renderAll ws := by
  cases ws with
  | nil => rfl
  | cons w ws =>
    rw [Passage.piecesOfAll, Passage.renderAll, renderAll_append, renderAll_pieces w,
      renderAll_piecesOfAll ws]

end

end Piece

end MarkupGrammar
