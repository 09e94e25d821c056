import MarkupGrammar.Check.Document
import MarkupGrammar.Proofs.Markup.Piece

/-!
# Stray brackets

The place of a `<` that begins no markup goes before every other sign of what is wrong with a
document, so the search for it must not be misled by a `<` that is nothing but text. It passes over
comments and character-data sections whole. It does not pass over processing instructions: each `<`
in one is looked at as if it stood outside. Most do no harm, since what seems to begin there is not
read further; three kinds do. One that seems to begin nothing is taken for the mistake, and one that
seems to begin a comment or a section makes the search pass over what comes next.

So the search is right about a document in pieces, whether or not its tags match, unless an
instruction holds such a `<`, and when the first of them seems to begin nothing, it is what the
search finds.

## Implementation notes

Whether the search is misled is decided by the instruction alone. What a `<` seems to begin is read
off at most eight code points after it, but these cannot reach past the `?` that ends the
instruction and still begin a comment or a section, because no question mark belongs to either
delimiter (`Construct.ofText_question`).

## Main results

* `Text.shows_instruction` — what the search finds in a processing instruction
* `Text.shows_renderAll` — the same for pieces in a row
* `Text.strayBracket?_pieces` — what the search finds in a document in pieces, and that otherwise
  its tags are looked at
-/

namespace MarkupGrammar

/-! ### What a bracket seems to begin -/

namespace Construct

/-- Whether a construct that begins inside a processing instruction misleads the search: there is
none, or it is passed over whole. -/
def misleads : Construct → Bool
  | comment | cdata | stray => true
  | instruction | declaration | endTag | startTag => false

end Construct

namespace Text

/-- A delimiter that does not hold a code point begins a text before it or not at all. -/
theorem after?_append_cons {w : Text} {q : CodePoint} (h : q ∉ w) (t rest : Text) :
    after? w (t ++ q :: rest) = (after? w t).map (· ++ q :: rest) := by
  induction w generalizing t with
  | nil => rfl
  | cons c w ih =>
    cases t with
    | nil =>
      show after? (c :: w) (q :: rest) = none
      exact Construct.after?_eq_none_of_ne (Ne.symm (List.ne_of_not_mem_cons h))
    | cons d t =>
      show (if c == d then after? w (t ++ q :: rest) else none)
        = (if c == d then after? w t else none).map _
      split
      · exact ih (List.not_mem_of_not_mem_cons h) t
      · rfl

end Text

namespace Construct

/-- What begins before a question mark does not depend on what follows it. -/
theorem ofText_question (r rest : Text) :
    (ofText (r ++ CodePoint.ofChar '?' :: rest)).1 = (ofText (r ++ [CodePoint.ofChar '?'])).1 := by
  have hcomment (t : Text) := Text.after?_append_cons
    (w := Text.ofString "!--") (q := CodePoint.ofChar '?') (by decide) r t
  have hcdata (t : Text) := Text.after?_append_cons
    (w := Text.ofString "![CDATA[") (q := CodePoint.ofChar '?') (by decide) r t
  simp only [ofText, hcomment, hcdata]
  cases Text.after? (Text.ofString "!--") r with
  | some body => rfl
  | none =>
    cases Text.after? (Text.ofString "![CDATA[") r with
    | some body => rfl
    | none =>
      cases r with
      | nil => rfl
      | cons c r =>
        simp only [Option.map_none, List.cons_append]
        split_ifs <;> rfl

end Construct

/-! ### Brackets inside instructions -/

/-- A `<` inside a processing instruction: where it stands, and what it would begin outside. -/
structure InnerBracket where
  position : Position
  construct : Construct

namespace InnerBracket

/-- The brackets in the body of an instruction that begins at a place. -/
def ofBody (p : Position) : Text → List InnerBracket
  | [] => []
  | c :: r =>
    if c = CodePoint.ofChar '<' then
      ⟨p, (Construct.ofText (r ++ Text.ofString "?>")).1⟩ :: ofBody (p.next c) r
    else ofBody (p.next c) r

/-- The first of some brackets that misleads the search. -/
def misleading? (bs : List InnerBracket) : Option InnerBracket := bs.find? (·.construct.misleads)

theorem misleading?_cons_of_misleads {b : InnerBracket} (bs : List InnerBracket)
    (h : b.construct.misleads = true) : misleading? (b :: bs) = some b := by
  rw [misleading?, List.find?_cons, h]

theorem misleading?_cons_of_not_misleads {b : InnerBracket} (bs : List InnerBracket)
    (h : b.construct.misleads = false) : misleading? (b :: bs) = misleading? bs := by
  rw [misleading?, List.find?_cons, h]
  rfl

end InnerBracket

namespace Piece

/-- The brackets inside a piece that begins at a place, if it is an instruction. -/
def brackets (p : Position) : Piece → List InnerBracket
  | instruction body _ => InnerBracket.ofBody (p.past (Text.ofString "<?")) body
  | _ => []

/-- The brackets inside the instructions among pieces that begin at a place, in order. -/
def bracketsOfAll (p : Position) : List Piece → List InnerBracket
  | [] => []
  | w :: ps => w.brackets p ++ bracketsOfAll (p.past w.render) ps

end Piece

namespace Text

/-! ### What the search passes over -/

theorem strayFrom_of_ne (total : Nat) {c : CodePoint} (r : Text) (h : c ≠ CodePoint.ofChar '<') :
    strayFrom total (c :: r) = strayFrom total r := by
  rw [strayFrom, if_neg h]

/-- A bracket that does not mislead is passed over alone. -/
theorem strayFrom_of_not_misleads (total : Nat) {r : Text}
    (h : (Construct.ofText r).1.misleads = false) :
    strayFrom total (CodePoint.ofChar '<' :: r) = strayFrom total r := by
  have hstray : (Construct.ofText r).1 ≠ .stray := fun hs => by
    rw [hs] at h
    exact Bool.noConfusion h
  have hafter : afterBracket r = r := by
    rw [afterBracket]
    split
    · next hr => rw [hr] at h; exact Bool.noConfusion h
    · next hr => rw [hr] at h; exact Bool.noConfusion h
    · rfl
  rw [strayFrom, if_pos rfl, if_neg hstray, hafter]

/-- A piece of text in which the search finds nothing, whatever follows it: the search goes on just
after it. -/
def IsCalm (t : Text) : Prop :=
  ∀ total rest, strayFrom total (t ++ rest) = strayFrom total rest

theorem IsCalm.append {s t : Text} (hs : IsCalm s) (ht : IsCalm t) : IsCalm (s ++ t) := by
  intro total rest
  rw [List.append_assoc, hs, ht]

theorem isCalm_prose {t : Text} (h : CodePoint.ofChar '<' ∉ t) : IsCalm t := by
  intro total rest
  induction t with
  | nil => rfl
  | cons c t ih =>
    rw [List.cons_append, strayFrom_of_ne total _ (Ne.symm (List.ne_of_not_mem_cons h)),
      ih (List.not_mem_of_not_mem_cons h)]

/-- One bracket, when what it begins does not mislead and has no bracket of its own. -/
theorem isCalm_bracket {t : Text} (ht : CodePoint.ofChar '<' ∉ t)
    (h : ∀ rest, (Construct.ofText (t ++ rest)).1.misleads = false) :
    IsCalm (CodePoint.ofChar '<' :: t) := by
  intro total rest
  rw [List.cons_append, strayFrom_of_not_misleads total (h rest), isCalm_prose ht]

/-- A construct that is passed over up to its closing delimiter, whatever its body looks like. -/
theorem isCalm_delimited (opening lead : Text) (last : CodePoint) {body : Text}
    (hstray : ∀ r, (Construct.ofText (opening ++ r)).1 ≠ .stray)
    (hafter : ∀ r, afterBracket (opening ++ r) = skipPast (lead ++ [last]) r)
    (hlast : last ∉ lead) (hbody : ¬ (lead ++ [last]) <:+: body) :
    IsCalm (CodePoint.ofChar '<' :: (opening ++ (body ++ (lead ++ [last])))) := by
  intro total rest
  rw [List.cons_append, List.append_assoc, strayFrom, if_pos rfl, if_neg (hstray _), hafter,
    skipPast_append hlast hbody]

theorem isCalm_comment {body : Text} (h : ¬ ofString "--" <:+: body) :
    IsCalm (ofString "<!--" ++ (body ++ ofString "-->")) := by
  refine isCalm_delimited (ofString "!--") (ofString "--") (CodePoint.ofChar '>')
    (fun r => ?_) (fun r => ?_) (by decide) fun hend => h ?_
  · rw [Construct.ofText_comment]
    exact Construct.noConfusion
  · rw [afterBracket, Construct.ofText_comment]
    rfl
  · exact (List.prefix_append _ _).isInfix.trans hend

theorem isCalm_cdata {body : Text} (h : ¬ ofString "]]>" <:+: body) :
    IsCalm (ofString "<![CDATA[" ++ (body ++ ofString "]]>")) := by
  refine isCalm_delimited (ofString "![CDATA[") (ofString "]]") (CodePoint.ofChar '>')
    (fun r => ?_) (fun r => ?_) (by decide) h
  · rw [Construct.ofText_cdata]
    exact Construct.noConfusion
  · rw [afterBracket, Construct.ofText_cdata]
    rfl

end Text

/-! ### Tags -/

theorem XmlName.bracket_notMem (name : XmlName) : CodePoint.ofChar '<' ∉ name.text := by
  intro h
  have hval := name.val_mem _ h
  rw [show (CodePoint.ofChar '<').val = 0x3C from rfl] at hval
  omega

theorem Spacing.bracket_notMem (gap : Spacing) : CodePoint.ofChar '<' ∉ gap.text :=
  fun h => absurd (gap.isSpace _ h) (by decide)

theorem WrittenAttribute.bracket_notMem {a : WrittenAttribute}
    (h : CodePoint.ofChar '<' ∉ a.value) : CodePoint.ofChar '<' ∉ a.render := by
  have hquote : CodePoint.ofChar '<' ≠ a.quote := fun hq => absurd (hq ▸ a.isQuote) (by decide)
  simp [render, lead, a.gap.bracket_notMem, a.name.bracket_notMem, a.beforeEquals.bracket_notMem,
    a.afterEquals.bracket_notMem, hquote, h]
  decide

namespace WrittenTag

theorem bracket_notMem_body {tag : WrittenTag}
    (h : ∀ a ∈ tag.attributes, CodePoint.ofChar '<' ∉ a.value) :
    CodePoint.ofChar '<' ∉ tag.body := by
  rw [body, List.mem_append, not_or]
  refine ⟨fun hmem => ?_, tag.trailing.bracket_notMem⟩
  obtain ⟨a, ha, hmem⟩ := List.mem_flatMap.mp hmem
  exact a.bracket_notMem (h a ha) hmem

theorem bracket_notMem_slash (closed : Option Spacing) : CodePoint.ofChar '<' ∉ slash closed := by
  cases closed with
  | none => exact List.not_mem_nil
  | some gap => exact List.not_mem_cons_of_ne_of_not_mem (by decide) gap.bracket_notMem

theorem isCalm_render {tag : WrittenTag} (closed : Option Spacing)
    (h : ∀ a ∈ tag.attributes, CodePoint.ofChar '<' ∉ a.value) :
    Text.IsCalm (tag.render closed) := by
  refine Text.isCalm_bracket ?_ fun rest => ?_
  · simp [tag.name.bracket_notMem, bracket_notMem_body h, bracket_notMem_slash]
    decide
  · rw [List.append_assoc, Construct.ofText_name]
    rfl

theorem isCalm_renderClosing (tag : WrittenTag) (gap : Spacing) :
    Text.IsCalm (tag.renderClosing gap) := by
  refine Text.isCalm_bracket ?_ fun rest => ?_
  · simp [tag.name.bracket_notMem, gap.bracket_notMem]
    decide
  · rw [List.cons_append, Construct.ofText_cons _ (by decide), if_neg (by decide), if_pos rfl]
    rfl

end WrittenTag

/-! ### What the search finds -/

namespace Text

/-- The place of an offset of a text. -/
def locateIn (text : Text) (offset : Nat) : Position := (LineIndex.ofText text).locate offset

/-- In a piece of text that stands after `before` the search finds a place, or it finds nothing and
goes on just after it, whatever follows. -/
def Shows (before t : Text) (found : Option Position) : Prop :=
  ∀ text rest, text = before ++ (t ++ rest) →
    (strayFrom text.length (t ++ rest)).map (locateIn text)
      = found.or ((strayFrom text.length rest).map (locateIn text))

theorem IsCalm.shows {t : Text} (h : IsCalm t) (before : Text) : Shows before t none := by
  intro text rest _
  rw [h, Option.none_or]

/-- **Pieces in a row.** The second matters only when nothing is found in the first. -/
theorem Shows.append {before s t : Text} {first second : Option Position}
    (hs : Shows before s first) (ht : first = none → Shows (before ++ s) t second) :
    Shows before (s ++ t) (first.or second) := by
  intro text rest htext
  rw [List.append_assoc] at htext ⊢
  rw [hs text (t ++ rest) htext]
  cases first with
  | some p => rfl
  | none =>
    simp only [Option.none_or]
    exact ht rfl text rest (by rw [htext, List.append_assoc])

/-- A bracket that seems to begin nothing is what is found. -/
theorem shows_stray (before : Text) {r : Text}
    (h : ∀ rest, (Construct.ofText (r ++ rest)).1 = .stray) :
    Shows before (CodePoint.ofChar '<' :: r) (some (Position.origin.past before)) := by
  intro text rest htext
  have hplace : locateIn text before.length = Position.origin.past before :=
    LineIndex.locate_ofText ⟨_, htext.symm⟩ rfl
  have hoffset : text.length - (CodePoint.ofChar '<' :: (r ++ rest)).length = before.length := by
    rw [htext, List.length_append]
    exact Nat.add_sub_cancel _ _
  rw [List.cons_append, strayFrom, if_pos rfl, if_pos (h rest), hoffset, Option.map_some, hplace]
  rfl

/-- A bracket that does not mislead is passed over alone. -/
theorem Shows.bracket {before r : Text} {found : Option Position}
    (h : ∀ rest, (Construct.ofText (r ++ rest)).1.misleads = false)
    (hr : Shows (before ++ [CodePoint.ofChar '<']) r found) :
    Shows before (CodePoint.ofChar '<' :: r) found := by
  intro text rest htext
  rw [List.cons_append, strayFrom_of_not_misleads _ (h rest)]
  exact hr text rest (by rw [htext]; simp)

/-- **The body of an instruction** up to its end: the first bracket that misleads is what is found,
if it seems to begin nothing. -/
theorem shows_body (before body : Text)
    (h : ∀ b ∈ InnerBracket.misleading? (InnerBracket.ofBody (Position.origin.past before) body),
      b.construct = .stray) :
    Shows before (body ++ ofString "?>")
      ((InnerBracket.misleading?
        (InnerBracket.ofBody (Position.origin.past before) body)).map (·.position)) := by
  induction body generalizing before with
  | nil => exact IsCalm.shows (isCalm_prose (by decide)) before
  | cons c body ih =>
    have hrest := ih (before ++ [c])
    rw [Position.past_append] at hrest
    rw [InnerBracket.ofBody] at h ⊢
    by_cases hc : c = CodePoint.ofChar '<'
    · subst hc
      have hbegins (rest : Text) : (Construct.ofText (body ++ ofString "?>" ++ rest)).1
          = (Construct.ofText (body ++ ofString "?>")).1 := by
        rw [List.append_assoc]
        exact (Construct.ofText_question body _).trans (Construct.ofText_question body _).symm
      rw [if_pos rfl] at h ⊢
      cases hmisleads : (Construct.ofText (body ++ ofString "?>")).1.misleads with
      | true =>
        rw [InnerBracket.misleading?_cons_of_misleads _ hmisleads] at h ⊢
        exact shows_stray before fun rest => (hbegins rest).trans (h _ rfl)
      | false =>
        rw [InnerBracket.misleading?_cons_of_not_misleads _ hmisleads] at h ⊢
        have hpassed (rest : Text) :
            (Construct.ofText (body ++ ofString "?>" ++ rest)).1.misleads = false := by
          rw [hbegins, hmisleads]
        exact (hrest h).bracket hpassed
    · rw [if_neg hc] at h ⊢
      have hcalm : IsCalm [c] := isCalm_prose (by simpa using Ne.symm hc)
      exact (hcalm.shows before).append fun _ => hrest h

theorem shows_instruction (before body : Text)
    (h : ∀ b ∈ InnerBracket.misleading? (InnerBracket.ofBody
      ((Position.origin.past before).past (ofString "<?")) body), b.construct = .stray) :
    Shows before (ofString "<?" ++ (body ++ ofString "?>"))
      ((InnerBracket.misleading? (InnerBracket.ofBody
        ((Position.origin.past before).past (ofString "<?")) body)).map (·.position)) := by
  have hopening : IsCalm (ofString "<?") := isCalm_bracket (by decide) fun rest => by
    show (Construct.ofText (CodePoint.ofChar '?' :: rest)).1.misleads = false
    rw [Construct.ofText_cons rest (by decide), if_pos rfl]
    rfl
  rw [← Position.past_append] at h ⊢
  exact (hopening.shows before).append fun _ => shows_body (before ++ ofString "<?") body h

/-- One piece: only an instruction shows anything. -/
theorem shows_render (before : Text) (w : Piece)
    (hvalues : ∀ value ∈ w.values, CodePoint.ofChar '<' ∉ value)
    (h : ∀ b ∈ InnerBracket.misleading? (w.brackets (Position.origin.past before)),
      b.construct = .stray) :
    Shows before w.render
      ((InnerBracket.misleading? (w.brackets (Position.origin.past before))).map (·.position)) := by
  cases w with
  | opening tag closed =>
    have hcalm := tag.isCalm_render closed fun a ha => hvalues _ (List.mem_map_of_mem ha)
    exact hcalm.shows before
  | closing tag gap => exact (tag.isCalm_renderClosing gap).shows before
  | prose t noTag => exact (isCalm_prose noTag).shows before
  | comment body noHyphens _ => exact (isCalm_comment noHyphens).shows before
  | cdata body noEnd => exact (isCalm_cdata noEnd).shows before
  | instruction body noEnd => exact shows_instruction before body h

/-- Pieces in a row show what the first of them shows that shows anything. -/
theorem shows_renderAll (before : Text) (ps : List Piece)
    (hvalues : ∀ w ∈ ps, ∀ value ∈ w.values, CodePoint.ofChar '<' ∉ value)
    (h : ∀ b ∈ InnerBracket.misleading? (Piece.bracketsOfAll (Position.origin.past before) ps),
      b.construct = .stray) :
    Shows before (Piece.renderAll ps)
      ((InnerBracket.misleading?
        (Piece.bracketsOfAll (Position.origin.past before) ps)).map (·.position)) := by
  induction ps generalizing before with
  | nil => exact IsCalm.shows (isCalm_prose List.not_mem_nil) before
  | cons w ps ih =>
    have hrest := ih (before ++ w.render) fun v hv => hvalues v (List.mem_cons_of_mem w hv)
    have hfirst := shows_render before w (hvalues w List.mem_cons_self)
    rw [Position.past_append] at hrest
    rw [Piece.bracketsOfAll, InnerBracket.misleading?, List.find?_append] at h ⊢
    rw [Piece.renderAll_cons, Option.map_or]
    refine (hfirst fun b hb => h b ?_).append fun hnone => hrest fun b hb => h b ?_
    · rw [Option.mem_def] at hb ⊢
      exact Option.or_eq_some_iff.mpr (Or.inl hb)
    · rw [Option.mem_def] at hb ⊢
      exact Option.or_eq_some_iff.mpr (Or.inr ⟨Option.map_eq_none_iff.mp hnone, hb⟩)

theorem strayBracket?_eq (t : Text) :
    strayBracket? t = (strayFrom t.length t).map (locateIn t) := by
  rw [strayBracket?]
  cases strayFrom t.length t <;> rfl

end Text

namespace MalformedPlace

/-- **Where a document in pieces shows its mistake,** if it has one, and if no value between quotes
has a bracket. No tag, no prose, no comment and no section shows anything. The first bracket in an
instruction that misleads the search is taken for the mistake when it seems to begin nothing;
without one that misleads, it is the tags that are looked at, and they are those that were
written. -/
theorem ofText_pieces (ps : List Piece)
    (hvalues : ∀ w ∈ ps, ∀ value ∈ w.values, CodePoint.ofChar '<' ∉ value)
    (hfirst : ∀ b ∈ InnerBracket.misleading? (Piece.bracketsOfAll Position.origin ps),
      b.construct = .stray) :
    Text.strayBracket? (Piece.renderAll ps)
      = (InnerBracket.misleading? (Piece.bracketsOfAll Position.origin ps)).map (·.position) ∧
    ofText (Piece.renderAll ps)
      = match InnerBracket.misleading? (Piece.bracketsOfAll Position.origin ps) with
        | some b => .stray b.position
        | none =>
          match Balance.mismatch? (Piece.tagsOfAll Position.origin ps) with
          | some (problem, position) => .unbalanced problem position
          | none => .elsewhere := by
  have hshows := Text.shows_renderAll [] ps hvalues hfirst (Piece.renderAll ps) [] (by simp)
  rw [List.append_nil, Text.strayFrom, Option.map_none, Option.or_none,
    ← Text.strayBracket?_eq] at hshows
  refine ⟨hshows, ?_⟩
  rw [ofText, hshows, Tag.ofText_eq_tagsOfAll, show Position.origin.past [] = Position.origin from rfl]
  cases InnerBracket.misleading? (Piece.bracketsOfAll Position.origin ps) with
  | some b => rfl
  | none => rfl

/-- A tag without attributes, for a segment of text. -/
def segment : WrittenTag := .plain ⟨Text.ofString "seg", by decide⟩

/-- An opening tag that nothing closes, before a comment and an instruction. -/
def unclosedThen (body : Text) (noEnd : ¬ Text.ofString "?>" <:+: body) : List Piece :=
  [.opening segment none, .comment (Text.ofString "1 < 2") (by decide +kernel) (by decide),
    .instruction body noEnd]

/-- The tag is shown when the instruction holds tags, and a bracket when it holds a comparison. -/
theorem ofText_pieces_unclosed :
    ofText (Text.ofString "<seg><!--1 < 2--><?p <b/>?>")
      = .unbalanced (.unclosed (Text.ofString "seg")) ⟨1, 1⟩ ∧
    ofText (Text.ofString "<seg><!--1 < 2--><?p 1 < 2?>") = .stray ⟨1, 24⟩ := by
  have htag := (ofText_pieces (unclosedThen (Text.ofString "p <b/>") (by decide +kernel))
    (by decide +kernel) (by decide +kernel)).2
  have hcomparison := (ofText_pieces (unclosedThen (Text.ofString "p 1 < 2") (by decide +kernel))
    (by decide +kernel) (by decide +kernel)).2
  rw [show Piece.renderAll _ = Text.ofString "<seg><!--1 < 2--><?p <b/>?>" by decide +kernel]
    at htag
  rw [show Piece.renderAll _ = Text.ofString "<seg><!--1 < 2--><?p 1 < 2?>" by decide +kernel]
    at hcomparison
  exact ⟨htag.trans (by decide +kernel), hcomparison.trans (by decide +kernel)⟩

/-- A comparison in an instruction is taken for the mistake of a document whose tags all match. -/
theorem stray_in_instruction :
    Text.strayBracket? (Piece.renderAll
      [.opening segment none, .instruction (Text.ofString "p 1 < 2") (by decide +kernel),
        .closing segment Spacing.none]) = some ⟨1, 12⟩ := by
  decide +kernel

end MalformedPlace

end MarkupGrammar
