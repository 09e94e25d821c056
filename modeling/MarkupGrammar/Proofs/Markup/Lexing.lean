import MarkupGrammar.Proofs.Markup.Scan

/-!
# Lexing undoes writing

The scanner of tags never sees a manuscript, only its text, in which a comment may hold a tag and a
quoted value a comment. It still finds the manuscript's own tags: each construct, once entered, is
left at the delimiter that its author put at its end, so that the scan is back between constructs
where the next one begins. `TagSpan.Finds` says this of one piece of text, whatever stands before
and after it, and pieces in a row are found in a row.

## Main results

* `Attribute.ofText_body` — the attributes of a tag, read from its body alone
* `Tag.ofText_renderAll` — the tags of the text of a manuscript are the tags of the manuscript
-/

namespace MarkupGrammar

/-! ### Attributes -/

namespace AttributeSpan

theorem valueAfterEquals_quoted (gap : Spacing) {q : CodePoint} {value : Text}
    (hq : q.isQuote = true) (h : q ∉ value) (rest : Text) :
    valueAfterEquals (gap.text ++ q :: (value ++ q :: rest)) = (value, rest) := by
  have hval := CodePoint.val_of_isQuote hq
  have hspace : q.isMarkupSpace = false := by
    rcases hval with hval | hval <;> simp [CodePoint.isMarkupSpace, hval]
  have hvalue : ∀ c ∈ value, (c != q) = true := by
    intro c hc
    rw [bne_iff_ne]
    rintro rfl
    exact h hc
  have hstop : Text.Stops (· != q) (q :: rest) := Text.stops_cons (bne_self_eq_false q)
  rw [valueAfterEquals, Text.dropWhile_append gap.isSpace (Text.stops_cons hspace)]
  simp only [hq, if_true, Text.takeWhile_append hvalue hstop, Text.dropWhile_append hvalue hstop,
    List.drop_one, List.tail_cons]

theorem valueAfterName_written (a : WrittenAttribute) (rest : Text) :
    valueAfterName (a.beforeEquals.text ++ CodePoint.ofChar '=' ::
      (a.afterEquals.text ++ a.quote :: (a.value ++ a.quote :: rest))) = (some a.value, rest) := by
  have hstop : Text.Stops CodePoint.isMarkupSpace (CodePoint.ofChar '=' ::
      (a.afterEquals.text ++ a.quote :: (a.value ++ a.quote :: rest))) :=
    Text.stops_cons (by decide)
  rw [valueAfterName, Text.dropWhile_append a.beforeEquals.isSpace hstop]
  simp only [if_true, valueAfterEquals_quoted a.afterEquals a.isQuote a.isFree]

theorem scanFrom_spacing (total : Nat) (gap : Spacing) (rest : Text) :
    scanFrom total (gap.text ++ rest) = scanFrom total rest := by
  obtain ⟨text, hspace⟩ := gap
  induction text with
  | nil => rfl
  | cons c text ih =>
    have hgap : c.isAttributeGap = true := by
      rw [CodePoint.isAttributeGap, hspace c List.mem_cons_self, Bool.true_or]
    rw [List.cons_append, scanFrom, if_pos hgap]
    exact ih fun d hd => hspace d (List.mem_cons_of_mem c hd)

/-- A name is read up to its end, with the value that follows it. -/
theorem scanFrom_name (total : Nat) (name : XmlName) {rest : Text}
    (hrest : Text.Stops CodePoint.continuesAttributeName rest) :
    scanFrom total (name.text ++ rest)
      = ⟨name.text, (valueAfterName rest).1, total - (name.text ++ rest).length⟩
        :: scanFrom total (valueAfterName rest).2 := by
  obtain ⟨text, hname⟩ := name
  have hcontinues := XmlName.continuesAttributeName ⟨text, hname⟩
  cases text with
  | nil => exact absurd hname Bool.false_ne_true
  | cons c text =>
    have hval := XmlName.val_mem ⟨c :: text, hname⟩ c List.mem_cons_self
    have htext : ∀ d ∈ text, d.continuesAttributeName = true :=
      fun d hd => hcontinues d (List.mem_cons_of_mem c hd)
    have hgap : c.isAttributeGap = false := by
      simp [CodePoint.isAttributeGap, CodePoint.isMarkupSpace]
      omega
    have hequals : c ≠ CodePoint.ofChar '=' := by
      refine CodePoint.ne_ofChar ?_
      show c.val ≠ 0x3D
      omega
    rw [List.cons_append, scanFrom, hgap, if_neg Bool.false_ne_true, if_neg hequals,
      Text.takeWhile_append htext hrest, Text.dropWhile_append htext hrest]

/-- **One attribute.** It is found with its value at its name, wherever it stands. -/
theorem scanFrom_render (done rest : Text) (a : WrittenAttribute) :
    scanFrom (done ++ (a.render ++ rest)).length (a.render ++ rest)
      = ⟨a.name.text, some a.value, (done ++ a.gap.text).length⟩
        :: scanFrom (done ++ (a.render ++ rest)).length rest := by
  have hshape : a.render ++ rest = a.gap.text ++ (a.name.text
      ++ (a.beforeEquals.text ++ CodePoint.ofChar '='
        :: (a.afterEquals.text ++ a.quote :: (a.value ++ a.quote :: rest)))) := by
    rw [WrittenAttribute.render, WrittenAttribute.lead]
    simp
  rw [hshape, scanFrom_spacing, scanFrom_name _ a.name
      (Text.stops_spacing CodePoint.continuesAttributeName_of_isMarkupSpace
        a.beforeEquals.isSpace (Text.stops_cons (by decide))),
    valueAfterName_written]
  -- the offset of a name is the length of the whole less that of what begins with it
  simp only [List.length_append, List.cons.injEq, AttributeSpan.mk.injEq, and_true, true_and]
  omega

/-- The attributes of a text of which a part is done already. -/
theorem map_locate_scanFrom {text before : Text} (done : Text)
    (as : List WrittenAttribute) (trailing : Spacing)
    (h : before ++ (done ++ (WrittenAttribute.renderAll as ++ trailing.text)) <+: text) :
    (scanFrom (done ++ (WrittenAttribute.renderAll as ++ trailing.text)).length
        (WrittenAttribute.renderAll as ++ trailing.text)).map
      (locate (LineIndex.ofText text) before.length)
      = WrittenAttribute.attributesFrom ((Position.origin.past before).past done) as := by
  -- on the attributes that are left: what is done grows by the text of each
  induction as generalizing done with
  | nil =>
    have hnone := scanFrom_spacing (done ++ trailing.text).length trailing []
    rw [List.append_nil, scanFrom] at hnone
    rw [WrittenAttribute.renderAll, List.flatMap_nil, List.nil_append, hnone]
    rfl
  | cons a as ih =>
    have hcons : WrittenAttribute.renderAll (a :: as) ++ trailing.text
        = a.render ++ (WrittenAttribute.renderAll as ++ trailing.text) := by
      rw [WrittenAttribute.renderAll, List.flatMap_cons, List.append_assoc]
      rfl
    rw [hcons] at h ⊢
    have hname : before ++ (done ++ a.gap.text) <+: text := by
      refine List.IsPrefix.trans ?_ h
      rw [WrittenAttribute.render]
      simp
    have hposition : (LineIndex.ofText text).locate
        ((before.length : Int) + ((done ++ a.gap.text).length : Nat))
          = Position.origin.past (before ++ (done ++ a.gap.text)) :=
      LineIndex.locate_ofText hname (by simp)
    have hrest := ih (done ++ a.render) (by rw [List.append_assoc]; exact h)
    rw [List.append_assoc] at hrest
    rw [scanFrom_render, List.map_cons, hrest, locate, hposition, WrittenAttribute.attributesFrom]
    simp

end AttributeSpan

namespace Attribute

@[simp] theorem ofText_nil (index : LineIndex) (offset : Int) : ofText index offset [] = [] := by
  rw [ofText, AttributeSpan.scan, AttributeSpan.scanFrom, List.map_nil]

/-- **The attributes of a tag.** They are read from its body, each at its place in the document. -/
theorem ofText_body {text before : Text} (tag : WrittenTag) (h : before ++ tag.body <+: text) :
    ofText (LineIndex.ofText text) before.length tag.body
      = WrittenAttribute.attributesFrom (Position.origin.past before) tag.attributes :=
  AttributeSpan.map_locate_scanFrom [] tag.attributes tag.trailing h

end Attribute

/-! ### Finding the tags of a piece of text -/

namespace TagSpan

/-- A piece of text that stands after `before` is found to have these tags, whatever follows it: the
scan goes on just after it. -/
def Finds (before t : Text) (tags : List Tag) : Prop :=
  ∀ text rest, text = before ++ (t ++ rest) →
    (scanFrom text.length (t ++ rest)).map (locate (LineIndex.ofText text))
      = tags ++ (scanFrom text.length rest).map (locate (LineIndex.ofText text))

theorem finds_nil (before : Text) : Finds before [] [] := fun _ _ _ => rfl

/-- **Pieces in a row are found in a row.** -/
theorem Finds.append {before s t : Text} {first second : List Tag} (hs : Finds before s first)
    (ht : Finds (before ++ s) t second) : Finds before (s ++ t) (first ++ second) := by
  intro text rest htext
  rw [List.append_assoc] at htext ⊢
  rw [hs text (t ++ rest) htext, ht text rest (by rw [htext, List.append_assoc]), List.append_assoc]

/-- What the scanner passes over has no tags. -/
theorem finds_passed {before t : Text}
    (h : ∀ total rest, scanFrom total (t ++ rest) = scanFrom total rest) : Finds before t [] := by
  intro text rest _
  rw [h]
  rfl

/-- The scan begins a construct at a `<`. -/
theorem scanFrom_construct (total : Nat) (r : Text) :
    scanFrom total (CodePoint.ofChar '<' :: r)
      = (step total r).1.toList ++ scanFrom total (step total r).2 := by
  rw [scanFrom, if_pos rfl]

theorem finds_prose (before : Text) {t : Text} (h : CodePoint.ofChar '<' ∉ t) :
    Finds before t [] := by
  refine finds_passed fun total rest => ?_
  induction t with
  | nil => rfl
  | cons c t ih =>
    have hc : c ≠ CodePoint.ofChar '<' := fun hc => h (hc ▸ List.mem_cons_self)
    rw [List.cons_append, scanFrom, if_neg hc]
    exact ih fun ht => h (List.mem_cons_of_mem c ht)

/-- A construct that is passed over up to its closing delimiter has no tags, whatever its body looks
like. -/
theorem finds_delimited (before opening lead : Text) (last : CodePoint) {body : Text}
    (hstep : ∀ total r, step total (opening ++ r) = (none, Text.skipPast (lead ++ [last]) r))
    (hlast : last ∉ lead) (hbody : ¬ (lead ++ [last]) <:+: body) :
    Finds before (CodePoint.ofChar '<' :: (opening ++ (body ++ (lead ++ [last])))) [] := by
  refine finds_passed fun total rest => ?_
  rw [List.cons_append, scanFrom_construct, List.append_assoc, hstep,
    Text.skipPast_append hlast hbody]
  rfl

theorem finds_comment (before : Text) {body : Text} (h : ¬ Text.ofString "--" <:+: body) :
    Finds before (Text.ofString "<!--" ++ (body ++ Text.ofString "-->")) [] := by
  refine finds_delimited before (Text.ofString "!--") (Text.ofString "--")
    (CodePoint.ofChar '>') (fun total r => ?_) (by decide) fun hend => h ?_
  · rw [step, Construct.ofText_comment]
    rfl
  · exact (List.prefix_append _ _).isInfix.trans hend

theorem finds_cdata (before : Text) {body : Text} (h : ¬ Text.ofString "]]>" <:+: body) :
    Finds before (Text.ofString "<![CDATA[" ++ (body ++ Text.ofString "]]>")) [] := by
  refine finds_delimited before (Text.ofString "![CDATA[") (Text.ofString "]]")
    (CodePoint.ofChar '>') (fun total r => ?_) (by decide) h
  rw [step, Construct.ofText_cdata]
  rfl

theorem finds_instruction (before : Text) {body : Text} (h : ¬ Text.ofString "?>" <:+: body) :
    Finds before (Text.ofString "<?" ++ (body ++ Text.ofString "?>")) [] := by
  refine finds_delimited before (Text.ofString "?") (Text.ofString "?")
    (CodePoint.ofChar '>') (fun total r => ?_) (by decide) h
  show step total (CodePoint.ofChar '?' :: r) = _
  rw [step, Construct.ofText_cons r (by decide), if_pos rfl]
  rfl

/-! ### Finding a tag -/

/-- What the scanner sees of a tag that opens an element. Its end is the `>` after its quoted
values, and its attribute text is its body without the slash. -/
theorem step_render {text before : Text} (tag : WrittenTag) (closed : Option Spacing) (rest : Text)
    (h : text = before ++ CodePoint.ofChar '<' :: (tag.name.text
      ++ (tag.body ++ WrittenTag.slash closed ++ CodePoint.ofChar '>' :: rest))) :
    step text.length (tag.name.text
        ++ (tag.body ++ WrittenTag.slash closed ++ CodePoint.ofChar '>' :: rest))
      = (some ⟨if closed.isSome then .selfClosing else .opening, tag.name.text, before.length,
          text.length - rest.length, tag.body,
          (before ++ CodePoint.ofChar '<' :: tag.name.text).length⟩, rest) := by
  have hstops := tag.stops_body closed rest
  have hcut := ((isPassed_body tag).append (isPassed_slash closed)).cutTag_stop rest
  have hlength := congrArg List.length h
  simp only [List.length_append, List.length_cons] at hlength
  rw [step, Construct.ofText_name]
  simp only [startTag, Text.takeWhile_append tag.name.continuesTagName hstops,
    Text.dropWhile_append tag.name.continuesTagName hstops, hcut, splitSlash_written,
    Option.getD_some, List.length_append, List.length_cons]
  congr 3 <;> omega

/-- **One tag that opens an element.** It is found at its `<`, with the attributes of its body. -/
theorem finds_render (before : Text) (tag : WrittenTag) (closed : Option Spacing) :
    Finds before (tag.render closed)
      [tag.tag (if closed.isSome then .selfClosing else .opening)
        (Position.origin.past before)] := by
  intro text rest htext
  have hshape : tag.render closed ++ rest = CodePoint.ofChar '<' :: (tag.name.text
      ++ (tag.body ++ WrittenTag.slash closed ++ CodePoint.ofChar '>' :: rest)) := by
    rw [WrittenTag.render]
    simp
  rw [hshape] at htext ⊢
  have hplace : (LineIndex.ofText text).locate before.length = Position.origin.past before :=
    LineIndex.locate_ofText ⟨_, htext.symm⟩ rfl
  have hattributes : Attribute.ofText (LineIndex.ofText text)
        (before ++ CodePoint.ofChar '<' :: tag.name.text).length tag.body
      = WrittenAttribute.attributesFrom
          (Position.origin.past (before ++ CodePoint.ofChar '<' :: tag.name.text))
          tag.attributes := by
    refine Attribute.ofText_body tag ?_
    rw [htext]
    simp
  rw [scanFrom_construct, step_render tag closed rest htext]
  simp only [Option.toList_some, List.singleton_append, List.map_cons, locate, attributes, hplace,
    hattributes, Position.past_append]
  rfl

/-- **One tag that closes an element.** It has no attributes. -/
theorem finds_renderClosing (before : Text) (tag : WrittenTag) (closing : Spacing) :
    Finds before (tag.renderClosing closing)
      [⟨.closing, tag.name.text, Position.origin.past before, []⟩] := by
  intro text rest htext
  have hshape : tag.renderClosing closing ++ rest = CodePoint.ofChar '<' :: CodePoint.ofChar '/'
      :: (tag.name.text ++ (closing.text ++ CodePoint.ofChar '>' :: rest)) := by
    rw [WrittenTag.renderClosing]
    simp
  rw [hshape] at htext ⊢
  have hstops : Text.Stops CodePoint.continuesTagName
      (closing.text ++ CodePoint.ofChar '>' :: rest) :=
    Text.stops_spacing CodePoint.continuesTagName_of_isMarkupSpace closing.isSpace
      (Text.stops_cons (by decide))
  have hname : tag.name.text.isEmpty = false := List.isEmpty_eq_false_iff.mpr tag.name.ne_nil
  have hplace : (LineIndex.ofText text).locate before.length = Position.origin.past before :=
    LineIndex.locate_ofText ⟨_, htext.symm⟩ rfl
  have hstart : text.length
      - (tag.name.text ++ (closing.text ++ CodePoint.ofChar '>' :: rest)).length - 2
        = before.length := by
    rw [htext]
    simp only [List.length_append, List.length_cons]
    omega
  have hstep : step text.length (CodePoint.ofChar '/'
        :: (tag.name.text ++ (closing.text ++ CodePoint.ofChar '>' :: rest)))
      = (some ⟨.closing, tag.name.text, before.length, text.length - rest.length, [], 0⟩,
          rest) := by
    rw [step, Construct.ofText_cons _ (by decide), if_neg (by decide), if_pos rfl]
    simp only [endTag, Text.takeWhile_append tag.name.continuesTagName hstops,
      Text.dropWhile_append tag.name.continuesTagName hstops,
      (isPassed_spacing closing).cutTag_stop rest, Option.getD_some, hname, hstart,
      if_neg Bool.false_ne_true]
  rw [scanFrom_construct, hstep]
  simp only [Option.toList_some, List.singleton_append, List.map_cons, locate, attributes, hplace,
    Attribute.ofText_nil]

end TagSpan

/-! ### Finding the tags of a manuscript -/

namespace Passage

mutual

/-- A passage has the tags that its author wrote, each element with those of its content between its
own. -/
theorem finds_tags (before : Text) (w : Passage) :
    TagSpan.Finds before w.render (w.tags (Position.origin.past before)) := by
  cases w with
  | element tag content closing =>
    -- the content stands after the opening tag, the closing tag after both
    have hcontent := finds_tagsOfAll (before ++ tag.render none) content
    have hclosing := TagSpan.finds_renderClosing (before ++ tag.render none ++ renderAll content)
      tag closing
    rw [Position.past_append, Position.past_append] at hclosing
    rw [Position.past_append] at hcontent
    rw [render, tags]
    exact (TagSpan.finds_render before tag none).append (hcontent.append hclosing)
  | emptyElement tag afterSlash =>
    rw [render, tags]
    exact TagSpan.finds_render before tag (some afterSlash)
  | prose t noTag =>
    rw [render, tags]
    exact TagSpan.finds_prose before noTag
  | comment body noHyphens noLastHyphen =>
    rw [render, tags]
    exact TagSpan.finds_comment before noHyphens
  | cdata body noEnd =>
    rw [render, tags]
    exact TagSpan.finds_cdata before noEnd
  | instruction body noEnd =>
    rw [render, tags]
    exact TagSpan.finds_instruction before noEnd

/-- Passages in a row have the tags of each. -/
theorem finds_tagsOfAll (before : Text) (ws : List Passage) :
    TagSpan.Finds before (renderAll ws) (tagsOfAll (Position.origin.past before) ws) := by
  cases ws with
  | nil =>
    rw [renderAll, tagsOfAll]
    exact TagSpan.finds_nil before
  | cons w ws =>
    have hrest := finds_tagsOfAll (before ++ w.render) ws
    rw [Position.past_append] at hrest
    rw [renderAll, tagsOfAll]
    exact (finds_tags before w).append hrest

end

end Passage

namespace Tag

/-- **Lexing undoes writing.** The tags of the text of a manuscript are the tags of the manuscript:
in order, of the right kinds and names, at the right places and with the right attributes. -/
theorem ofText_renderAll (ws : List Passage) :
    ofText (Passage.renderAll ws) = Passage.tagsOfAll Position.origin ws := by
  have hfinds := Passage.finds_tagsOfAll [] ws (Passage.renderAll ws) [] (by simp)
  rw [List.append_nil, TagSpan.scanFrom, List.map_nil, List.append_nil] at hfinds
  exact hfinds

example : ofText (Text.ofString "<!-- <a> --><p n='a>b'\n m = \"/\"/>") =
    [⟨.selfClosing, Text.ofString "p", ⟨1, 13⟩,
      [⟨Text.ofString "n", some (Text.ofString "a>b"), ⟨1, 16⟩⟩,
       ⟨Text.ofString "m", some (Text.ofString "/"), ⟨2, 2⟩⟩]⟩] := by
  decide +kernel

end Tag

end MarkupGrammar
