import MarkupGrammar.Proofs.Markup.Manuscript

/-!
# Scanning what was written

Each operation of the tag scanner on the piece of text that it is meant for, whatever follows: a
run of code points up to the first that does not continue it, a delimiter after a text that does
not hold it, the end of a tag after its quoted values, the slash that closes an element at once.

## Main results

* `Text.takeWhile_append`, `Text.dropWhile_append` — a run ends where the rest stops it
* `Text.cutAt?_append` — the first occurrence of a delimiter whose last code point is its own
* `TagSpan.isPassed_body` — the search for the end of a tag passes over its attributes
* `TagSpan.splitSlash_written` — the slash of a tag, told from those in its values
* `Construct.ofText_name`, `Construct.ofText_comment`, `Construct.ofText_cdata` — what a `<` begins
-/

namespace MarkupGrammar

/-! ### Names and spaces -/

namespace CodePoint

/-- Where the code points of names lie, those of markup lying in between. -/
theorem val_of_continuesXmlName {c : CodePoint}
    (h : (c.continuesXmlName || c.val = 0x3A) = true) :
    c.val = 0x2D ∨ c.val = 0x2E ∨ 0x30 ≤ c.val ∧ c.val ≤ 0x3A ∨ 0x41 ≤ c.val ∧ c.val ≤ 0x5A ∨
      c.val = 0x5F ∨ 0x61 ≤ c.val ∧ c.val ≤ 0x7A ∨ 0xB7 ≤ c.val := by
  simp [continuesXmlName, beginsXmlName, isAsciiLetter, isAsciiUpper, isAsciiLower, isAsciiDigit,
    within] at h
  omega

theorem val_of_beginsXmlName {c : CodePoint} (h : (c.beginsXmlName || c.val = 0x3A) = true) :
    c.val = 0x3A ∨ 0x41 ≤ c.val ∧ c.val ≤ 0x5A ∨ c.val = 0x5F ∨
      0x61 ≤ c.val ∧ c.val ≤ 0x7A ∨ 0xC0 ≤ c.val := by
  simp [beginsXmlName, isAsciiLetter, isAsciiUpper, isAsciiLower, within] at h
  omega

theorem val_of_isMarkupSpace {c : CodePoint} (h : c.isMarkupSpace = true) :
    c.val = 0x20 ∨ c.val = 0x09 ∨ c.val = 0x0D ∨ c.val = 0x0A := by
  simpa [isMarkupSpace, or_assoc] using h

theorem val_of_isQuote {c : CodePoint} (h : c.isQuote = true) : c.val = 0x22 ∨ c.val = 0x27 := by
  simpa [isQuote] using h

theorem continuesTagName_of_isMarkupSpace {c : CodePoint} (h : c.isMarkupSpace = true) :
    c.continuesTagName = false := by
  rw [continuesTagName, h]
  rfl

theorem continuesAttributeName_of_isMarkupSpace {c : CodePoint} (h : c.isMarkupSpace = true) :
    c.continuesAttributeName = false := by
  rw [continuesAttributeName, h]
  rfl

theorem ne_ofChar {c : CodePoint} {d : Char} (h : c.val ≠ d.toNat) : c ≠ ofChar d :=
  fun hc => h (congrArg val hc)

end CodePoint

namespace XmlName

theorem ne_nil (name : XmlName) : name.text ≠ [] := by
  intro h
  have hname := name.isName
  rw [h] at hname
  exact Bool.false_ne_true hname

/-- The code points of a name are no white space, no quote and none of the delimiters of a tag. -/
theorem val_mem (name : XmlName) : ∀ c ∈ name.text,
    c.val = 0x2D ∨ c.val = 0x2E ∨ 0x30 ≤ c.val ∧ c.val ≤ 0x3A ∨ 0x41 ≤ c.val ∧ c.val ≤ 0x5A ∨
      c.val = 0x5F ∨ 0x61 ≤ c.val ∧ c.val ≤ 0x7A ∨ 0xB7 ≤ c.val := by
  intro c hc
  obtain ⟨text, hname⟩ := name
  cases text with
  | nil => exact nomatch hc
  | cons d r =>
    rw [Text.isXmlName, Bool.and_eq_true, List.all_eq_true] at hname
    rcases List.mem_cons.mp hc with rfl | hc
    · have hval := CodePoint.val_of_beginsXmlName hname.1
      omega
    · exact CodePoint.val_of_continuesXmlName (hname.2 c hc)

theorem continuesTagName (name : XmlName) : ∀ c ∈ name.text, c.continuesTagName = true := by
  intro c hc
  have hval := name.val_mem c hc
  simp [CodePoint.continuesTagName, CodePoint.isMarkupSpace]
  omega

theorem continuesAttributeName (name : XmlName) :
    ∀ c ∈ name.text, c.continuesAttributeName = true := by
  intro c hc
  have hval := name.val_mem c hc
  simp [CodePoint.continuesAttributeName, CodePoint.isMarkupSpace]
  omega

end XmlName

/-! ### Runs -/

namespace Text

variable {p : CodePoint → Bool}

/-- A text at which a run ends: it is empty, or its first code point does not continue the run. -/
def Stops (p : CodePoint → Bool) (t : Text) : Prop := ∀ c ∈ t.head?, p c = false

theorem stops_cons {c : CodePoint} {t : Text} (h : p c = false) : Stops p (c :: t) := by
  intro d hd
  obtain rfl := Option.some.inj hd
  exact h

/-- White space stops a run that no white space continues. -/
theorem stops_spacing {gap t : Text}
    (hp : ∀ {c : CodePoint}, c.isMarkupSpace = true → p c = false)
    (hgap : ∀ c ∈ gap, c.isMarkupSpace = true) (ht : Stops p t) : Stops p (gap ++ t) := by
  cases gap with
  | nil => exact ht
  | cons c gap => exact stops_cons (hp (hgap c List.mem_cons_self))

theorem takeWhile_append {s t : Text} (hs : ∀ c ∈ s, p c = true) (ht : Stops p t) :
    (s ++ t).takeWhile p = s := by
  rw [List.takeWhile_append_of_pos hs]
  cases t with
  | nil => rw [List.takeWhile_nil, List.append_nil]
  | cons c t => rw [List.takeWhile_cons_of_neg (by simp [ht c rfl]), List.append_nil]

theorem dropWhile_append {s t : Text} (hs : ∀ c ∈ s, p c = true) (ht : Stops p t) :
    (s ++ t).dropWhile p = t := by
  rw [List.dropWhile_append_of_pos hs]
  cases t with
  | nil => rfl
  | cons c t => rw [List.dropWhile_cons_of_neg (by simp [ht c rfl])]

/-! ### Delimiters -/

theorem after?_append (mark rest : Text) : after? mark (mark ++ rest) = some rest :=
  after?_eq_some_iff.mpr rfl

/-- A delimiter does not begin inside a text that does not hold it, even with the delimiter after
the text: it would end inside itself, where its last code point is not. -/
theorem after?_eq_none_of_not_infix {lead body rest : Text} {last c : CodePoint}
    (hlast : last ∉ lead) (h : ¬ (lead ++ [last]) <:+: c :: body) :
    after? (lead ++ [last]) (c :: body ++ (lead ++ [last]) ++ rest) = none := by
  cases hafter : after? (lead ++ [last]) (c :: body ++ (lead ++ [last]) ++ rest) with
  | none => rfl
  | some r =>
    have heq := after?_eq_some_iff.mp hafter
    rcases Nat.lt_or_ge body.length lead.length with hshort | hlong
    · -- the text is a proper beginning of the delimiter, which is left inside `lead`
      have hat : (c :: body ++ (lead ++ [last]) ++ rest)[lead.length]?
          = (lead ++ [last] ++ r)[lead.length]? := by rw [heq]
      rw [List.append_assoc, List.getElem?_append_right (by simp; omega),
        List.getElem?_append_left (by rw [List.length_append, List.length_cons]; omega),
        List.getElem?_append_left (by rw [List.length_cons]; omega),
        List.getElem?_append_left (by simp), List.getElem?_concat_length] at hat
      exact absurd (List.mem_of_getElem? hat) hlast
    · refine absurd ?_ h
      have hmark : (lead ++ [last]) <+: c :: body ++ (lead ++ [last]) ++ rest := by
        rw [heq]; exact List.prefix_append _ _
      have hbody : c :: body <+: c :: body ++ (lead ++ [last]) ++ rest := by
        rw [List.append_assoc]; exact List.prefix_append _ _
      exact (List.prefix_of_prefix_length_le hmark hbody (by simp; omega)).isInfix

/-- **The first occurrence of a delimiter** is the one after a text that does not hold it. -/
theorem cutAt?_append {lead body rest : Text} {last : CodePoint} (hlast : last ∉ lead)
    (h : ¬ (lead ++ [last]) <:+: body) :
    cutAt? (lead ++ [last]) (body ++ (lead ++ [last]) ++ rest) = some (body, rest) := by
  induction body with
  | nil =>
    have hafter := after?_append (lead ++ [last]) rest
    rw [List.nil_append]
    cases hmark : lead ++ [last] ++ rest with
    | nil => simp at hmark
    | cons d t => rw [hmark] at hafter; rw [cutAt?, hafter]
  | cons c body ih =>
    have hnone : after? (lead ++ [last]) (c :: body ++ (lead ++ [last]) ++ rest) = none :=
      after?_eq_none_of_not_infix hlast h
    have hbody : ¬ (lead ++ [last]) <:+: body :=
      fun hin => h (hin.trans (List.suffix_cons c body).isInfix)
    rw [List.cons_append, List.cons_append] at hnone ⊢
    rw [cutAt?, hnone, ih hbody]
    rfl

theorem skipPast_append {lead body : Text} {last : CodePoint} (hlast : last ∉ lead)
    (h : ¬ (lead ++ [last]) <:+: body) (rest : Text) :
    skipPast (lead ++ [last]) (body ++ (lead ++ [last]) ++ rest) = rest := by
  rw [skipPast, cutAt?_append hlast h]

end Text

/-! ### The end of a tag -/

namespace TagSpan

/-- What the search for the end of a tag passes over, so that it goes on outside quotes. -/
def IsPassed (t : Text) : Prop :=
  ∀ r, cutTag none (t ++ r) = (t ++ (cutTag none r).1, (cutTag none r).2)

theorem isPassed_nil : IsPassed [] := fun _ => rfl

theorem IsPassed.append {s t : Text} (hs : IsPassed s) (ht : IsPassed t) : IsPassed (s ++ t) := by
  intro r
  rw [List.append_assoc, hs (t ++ r), ht r, List.append_assoc]

theorem isPassed_plain {t : Text} (h : ∀ c ∈ t, c ≠ CodePoint.ofChar '>' ∧ c.isQuote = false) :
    IsPassed t := by
  intro r
  induction t with
  | nil => rfl
  | cons c t ih =>
    obtain ⟨hstop, hquote⟩ := h c List.mem_cons_self
    have ht := ih fun d hd => h d (List.mem_cons_of_mem c hd)
    rw [List.cons_append, cutTag, if_neg hstop, hquote, if_neg Bool.false_ne_true, ht]
    rfl

/-- Inside quotes only the quote itself matters. -/
theorem cutTag_quoted {q : CodePoint} {value : Text} (h : q ∉ value) (r : Text) :
    cutTag (some q) (value ++ q :: r) = (value ++ q :: (cutTag none r).1, (cutTag none r).2) := by
  induction value with
  | nil => rw [List.nil_append, cutTag, if_pos rfl]; rfl
  | cons c value ih =>
    have hc : c ≠ q := fun hc => h (hc ▸ List.mem_cons_self)
    have hvalue := ih fun hq => h (List.mem_cons_of_mem c hq)
    rw [List.cons_append, cutTag, if_neg hc, hvalue]
    rfl

theorem isPassed_quoted {q : CodePoint} {value : Text} (hq : q.isQuote = true) (h : q ∉ value) :
    IsPassed (q :: (value ++ [q])) := by
  intro r
  have hstop : q ≠ CodePoint.ofChar '>' := by
    rintro rfl
    exact absurd hq (by decide)
  rw [List.cons_append, List.append_assoc, cutTag, if_neg hstop, hq, if_pos rfl]
  simp only [List.cons_append, List.nil_append, cutTag_quoted h, List.append_assoc]

theorem isPassed_spacing (gap : Spacing) : IsPassed gap.text := by
  refine isPassed_plain fun c hc => ?_
  have hval := CodePoint.val_of_isMarkupSpace (gap.isSpace c hc)
  refine ⟨CodePoint.ne_ofChar ?_, ?_⟩
  · show c.val ≠ 0x3E
    omega
  · simp [CodePoint.isQuote]
    omega

theorem isPassed_name (name : XmlName) : IsPassed name.text := by
  refine isPassed_plain fun c hc => ?_
  have hval := name.val_mem c hc
  refine ⟨CodePoint.ne_ofChar ?_, ?_⟩
  · show c.val ≠ 0x3E
    omega
  · simp [CodePoint.isQuote]
    omega

theorem isPassed_attribute (a : WrittenAttribute) : IsPassed a.render := by
  have hequals : IsPassed [CodePoint.ofChar '='] := isPassed_plain (by decide)
  have hlead : IsPassed a.lead :=
    (isPassed_name a.name).append ((isPassed_spacing a.beforeEquals).append
      (hequals.append (isPassed_spacing a.afterEquals)))
  exact (isPassed_spacing a.gap).append (hlead.append (isPassed_quoted a.isQuote a.isFree))

/-- **Quoted values hide what they hold:** no `>` in a tag's attributes ends the tag. -/
theorem isPassed_body (tag : WrittenTag) : IsPassed tag.body := by
  refine IsPassed.append ?_ (isPassed_spacing tag.trailing)
  induction tag.attributes with
  | nil => exact isPassed_nil
  | cons a as ih => exact (isPassed_attribute a).append ih

theorem IsPassed.cutTag_stop {t : Text} (h : IsPassed t) (r : Text) :
    cutTag none (t ++ CodePoint.ofChar '>' :: r) = (t, some r) := by
  rw [h, cutTag, if_pos rfl, List.append_nil]

/-! ### The slash of an element closed at once -/

end TagSpan

namespace Text

theorem trimEnd_append_spacing (t : Text) (gap : Spacing) :
    trimEnd (t ++ gap.text) = trimEnd t := by
  have hblank : ∀ c ∈ gap.text.reverse, c.isBlank = true := fun c hc =>
    CodePoint.isBlank_of_isMarkupSpace (gap.isSpace c (List.mem_reverse.mp hc))
  rw [trimEnd, dropEndWhile, List.reverse_append, List.dropWhile_append_of_pos hblank]
  rfl

theorem trimEnd_concat {c : CodePoint} (t : Text) (h : c.isBlank = false) :
    trimEnd (t ++ [c]) = t ++ [c] := by
  rw [trimEnd, dropEndWhile, List.reverse_append, List.reverse_singleton, List.singleton_append,
    List.dropWhile_cons_of_neg (by simp [h]), List.reverse_cons, List.reverse_reverse]

theorem endsWith_slash_concat (t : Text) (c : CodePoint) :
    endsWith (ofString "/") (t ++ [c]) = (CodePoint.ofChar '/' == c) := by
  rw [endsWith, List.isSuffixOf, List.reverse_append]
  show List.isPrefixOf [CodePoint.ofChar '/'] (c :: t.reverse) = _
  simp [List.isPrefixOf]

end Text

namespace WrittenAttribute

/-- Attributes are blank or end in a quote. -/
theorem renderAll_eq (as : List WrittenAttribute) :
    renderAll as = [] ∨ ∃ t q, q.isQuote = true ∧ renderAll as = t ++ [q] := by
  induction as with
  | nil => exact Or.inl rfl
  | cons a as ih =>
    refine Or.inr ?_
    have hcons : renderAll (a :: as) = a.render ++ renderAll as := rfl
    rcases ih with hnil | ⟨t, q, hq, ht⟩
    · refine ⟨a.gap.text ++ (a.lead ++ a.quote :: a.value), a.quote, a.isQuote, ?_⟩
      rw [hcons, hnil, render]
      simp
    · exact ⟨a.render ++ t, q, hq, by rw [hcons, ht, List.append_assoc]⟩

end WrittenAttribute

namespace TagSpan

theorem splitSlash_slash (t : Text) (afterSlash : Spacing) :
    splitSlash (t ++ CodePoint.ofChar '/' :: afterSlash.text) = (t, true) := by
  have htrim : Text.trimEnd (t ++ CodePoint.ofChar '/' :: afterSlash.text)
      = t ++ [CodePoint.ofChar '/'] := by
    rw [List.append_cons, Text.trimEnd_append_spacing, Text.trimEnd_concat t (by decide)]
  rw [splitSlash, htrim]
  simp only [Text.endsWith_slash_concat, beq_self_eq_true, if_true, List.dropLast_concat]

/-- A slash in the last value is not the slash of the tag: the quote stands after it. -/
theorem splitSlash_body (tag : WrittenTag) : splitSlash tag.body = (tag.body, false) := by
  have hends : Text.endsWith (Text.ofString "/") (Text.trimEnd tag.body) = false := by
    rw [WrittenTag.body, Text.trimEnd_append_spacing]
    rcases WrittenAttribute.renderAll_eq tag.attributes with hnil | ⟨t, q, hq, ht⟩
    · rw [hnil]
      decide
    · have hval := CodePoint.val_of_isQuote hq
      have hblank : q.isBlank = false := by
        rcases hval with hval | hval <;> simp [CodePoint.isBlank, CodePoint.blanks, hval]
      have hslash : CodePoint.ofChar '/' ≠ q := by
        rintro rfl
        exact absurd hq (by decide)
      rw [ht, Text.trimEnd_concat t hblank, Text.endsWith_slash_concat]
      exact beq_eq_false_iff_ne.mpr hslash
  rw [splitSlash]
  simp only [hends, if_neg Bool.false_ne_true]

/-- **The slash is found where it was written,** and only there. -/
theorem splitSlash_written (tag : WrittenTag) (closed : Option Spacing) :
    splitSlash (tag.body ++ WrittenTag.slash closed) = (tag.body, closed.isSome) := by
  cases closed with
  | none =>
    rw [WrittenTag.slash, List.append_nil]
    exact splitSlash_body tag
  | some afterSlash => exact splitSlash_slash tag.body afterSlash

theorem isPassed_slash (closed : Option Spacing) : IsPassed (WrittenTag.slash closed) := by
  cases closed with
  | none => exact isPassed_nil
  | some afterSlash =>
    have hslash : IsPassed [CodePoint.ofChar '/'] := isPassed_plain (by decide)
    exact hslash.append (isPassed_spacing afterSlash)

end TagSpan

/-- The name of a tag ends where its attributes begin, or its slash, or its end. -/
theorem WrittenTag.stops_body (tag : WrittenTag) (closed : Option Spacing) (rest : Text) :
    Text.Stops CodePoint.continuesTagName
      (tag.body ++ slash closed ++ CodePoint.ofChar '>' :: rest) := by
  have hslash : Text.Stops CodePoint.continuesTagName
      (slash closed ++ CodePoint.ofChar '>' :: rest) := by
    cases closed with
    | none => exact Text.stops_cons (by decide)
    | some afterSlash => exact Text.stops_cons (by decide)
  obtain ⟨name, attributes, trailing⟩ := tag
  rw [List.append_assoc]
  cases attributes with
  | nil =>
    exact Text.stops_spacing CodePoint.continuesTagName_of_isMarkupSpace trailing.isSpace hslash
  | cons a as =>
    cases hgap : a.gap.text with
    | nil => exact absurd hgap a.gap_ne_nil
    | cons c gap =>
      have hc : c.isMarkupSpace = true := a.gap.isSpace c (hgap ▸ List.mem_cons_self)
      rw [body, WrittenAttribute.renderAll, List.flatMap_cons, WrittenAttribute.render, hgap]
      exact Text.stops_cons (CodePoint.continuesTagName_of_isMarkupSpace hc)

/-! ### What begins with a tag's `<` -/

namespace Construct

theorem ofText_comment (r : Text) : ofText (Text.ofString "!--" ++ r) = (.comment, r) := by
  simp only [ofText, Text.after?_append]

theorem ofText_cdata (r : Text) : ofText (Text.ofString "![CDATA[" ++ r) = (.cdata, r) := by
  have hcomment : Text.after? (Text.ofString "!--") (Text.ofString "![CDATA[" ++ r) = none := rfl
  simp only [ofText, hcomment, Text.after?_append]

theorem after?_eq_none_of_ne {c d : CodePoint} {lead r : Text} (h : c ≠ d) :
    Text.after? (c :: lead) (d :: r) = none := by
  show (if c == d then Text.after? lead r else none) = none
  rw [if_neg (by simpa using h)]

/-- A code point other than `!` decides alone what begins. -/
theorem ofText_cons {c : CodePoint} (r : Text) (h : c ≠ CodePoint.ofChar '!') :
    ofText (c :: r) = if c = CodePoint.ofChar '?' then (.instruction, r)
      else if c = CodePoint.ofChar '/' then (.endTag, r)
      else if c.beginsName then (.startTag, c :: r)
      else (.stray, c :: r) := by
  have hcomment : Text.after? (Text.ofString "!--") (c :: r) = none :=
    after?_eq_none_of_ne (Ne.symm h)
  have hcdata : Text.after? (Text.ofString "![CDATA[") (c :: r) = none :=
    after?_eq_none_of_ne (Ne.symm h)
  rw [ofText, hcomment, hcdata]
  simp only [if_neg h]

theorem ofText_name (name : XmlName) (r : Text) :
    ofText (name.text ++ r) = (.startTag, name.text ++ r) := by
  obtain ⟨text, hname⟩ := name
  cases text with
  | nil => exact absurd hname Bool.false_ne_true
  | cons c text =>
    rw [Text.isXmlName, Bool.and_eq_true] at hname
    have hval := CodePoint.val_of_beginsXmlName hname.1
    have hne : ∀ d : Char, d.toNat < 0x30 ∨ d.toNat = 0x3F → c ≠ CodePoint.ofChar d :=
      fun d hd => CodePoint.ne_ofChar (by omega)
    have hbegins : c.beginsName = true := by
      simp [CodePoint.beginsName, CodePoint.isAsciiLetter, CodePoint.isAsciiUpper,
        CodePoint.isAsciiLower]
      omega
    rw [List.cons_append, ofText_cons _ (hne '!' (by decide)), if_neg (hne '?' (by decide)),
      if_neg (hne '/' (by decide)), if_pos hbegins]

end Construct

end MarkupGrammar
