import MarkupGrammar.Proofs.Check.Placement
import MarkupGrammar.Proofs.Check.Repair
import MarkupGrammar.Proofs.Grammar.Table
import Mathlib.Data.List.Pairwise

/-!
# Enumerated values

An attribute may enumerate its values, and the check compares them with the value in the document.
The two are not of one kind: a grammar holds values, a document their spellings, in which XML asks
for references in place of some characters. The check takes a spelling as it stands. So a value that
needs no references is accepted wherever it is allowed, and one that needs them only if its spelling
is among the enumerated values too.

That a defect is one of an attribute is seen from its place, which belongs to no other attribute of
the document.

## Main definitions

* `Text.escaped` — how a value is spelled between quotes
* `WrittenTag.placeOf` — where an attribute of a written tag stands

## Main results

* `TagSpan.eq_of_position_eq` — a place is that of one attribute
* `TagSpan.locate_eq_tag` — the tag that is found where a tag was written is the tag that was written
* `Schema.invalidValue_iff_isMisvalued` — when a document has a defect of an attribute's value
* `Schema.acceptsSpelling_iff` — which spellings of an allowed value are accepted
-/

namespace MarkupGrammar

/-! ### Places of attributes -/

namespace TagSpan

variable {document : Text} {span other : TagSpan}

/-- Tags that cover an offset together are one tag. -/
theorem eq_of_covers (h : span ∈ scan document) (hother : other ∈ scan document) {offset : Nat}
    (hstart : span.start < offset) (hstop : offset < span.stop)
    (hstart' : other.start < offset) (hstop' : offset < other.stop) : span = other := by
  have hdisjoint : (scan document).Pairwise fun a b => a.stop ≤ b.start ∨ b.stop ≤ a.start :=
    (pairwise_scan document).imp Or.inl
  have hsymm : Std.Symm fun a b : TagSpan => a.stop ≤ b.start ∨ b.stop ≤ a.start :=
    ⟨fun _ _ => Or.symm⟩
  by_contra hne
  rcases hdisjoint.forall h hother hne with hle | hle
  · omega
  · omega

/-- **A place is that of one attribute.** -/
theorem eq_of_position_eq (h : span ∈ scan document) (hother : other ∈ scan document)
    {a b : Attribute} (ha : a ∈ span.attributes (LineIndex.ofText document))
    (hb : b ∈ other.attributes (LineIndex.ofText document)) (hposition : a.position = b.position) :
    span = other ∧ a = b := by
  obtain ⟨aSpan, haSpan, rfl⟩ := List.mem_map.mp ha
  obtain ⟨bSpan, hbSpan, rfl⟩ := List.mem_map.mp hb
  obtain ⟨⟨haName, -⟩, haStart, haStop⟩ := standsAt_attribute h haSpan
  obtain ⟨⟨hbName, -⟩, hbStart, hbStop⟩ := standsAt_attribute hother hbSpan
  have haLength := List.length_pos_iff.mpr haName
  have hbLength := List.length_pos_iff.mpr hbName
  have haLe := (liesIn_of_mem_scan h).stop_le
  have hbLe := (liesIn_of_mem_scan hother).stop_le
  have hoffset : span.attrStart + aSpan.start = other.attrStart + bSpan.start := by
    have hplace : (LineIndex.ofText document).locate (span.attrStart + aSpan.start : Nat)
        = (LineIndex.ofText document).locate (other.attrStart + bSpan.start : Nat) := by
      simpa [AttributeSpan.locate] using hposition
    exact LineIndex.eq_of_locate_eq (by omega) (by omega) hplace
  obtain rfl := eq_of_covers h hother haStart (by omega) (by omega) (by omega)
  have hsymm : Std.Symm fun a b : AttributeSpan => a.start ≠ b.start := ⟨fun _ _ => Ne.symm⟩
  have hdistinct : (AttributeSpan.scan span.attrText).Pairwise fun a b => a.start ≠ b.start :=
    (AttributeSpan.pairwise_scan span.attrText).imp Nat.ne_of_lt
  have hspans : aSpan = bSpan := by
    by_contra hne
    exact hdistinct.forall haSpan hbSpan hne (by omega)
  exact ⟨rfl, congrArg _ hspans⟩

/-! ### Written tags in a document -/

/-- **The tag that is found where a tag was written is the tag that was written.** -/
theorem locate_eq_tag {front rest : Text} {tag : WrittenTag} {closed : Option Spacing}
    (hdocument : document = front ++ (tag.render closed ++ rest)) (h : span ∈ scan document)
    (hstart : span.start = front.length) :
    span.locate (LineIndex.ofText document)
      = tag.tag (if closed.isSome then .selfClosing else .opening)
          (Position.origin.past front) := by
  obtain ⟨passed, r, hpassed, hlength, hstep⟩ := exists_step_of_mem_scan h
  obtain ⟨-, hrender⟩ := List.append_inj (hpassed.symm.trans hdocument) (hlength.trans hstart)
  have hfinds := finds_render front tag closed document rest hdocument
  rw [← hrender, scanFrom_construct, hstep] at hfinds
  exact (List.cons.inj hfinds).1

end TagSpan

/-- Each attribute of a written tag is one of the tag's, behind those before it. -/
theorem WrittenAttribute.mem_attributesFrom (p : Position) (before after : List WrittenAttribute)
    (a : WrittenAttribute) :
    (⟨a.name.text, some a.value, p.past (renderAll before ++ a.gap.text)⟩ : Attribute)
      ∈ attributesFrom p (before ++ a :: after) := by
  induction before generalizing p with
  | nil => exact List.mem_cons_self
  | cons b before ih =>
    have hrest := ih (p.past b.render)
    rw [← Position.past_append, ← List.append_assoc] at hrest
    exact List.mem_cons_of_mem _ hrest

/-- Where an attribute of a tag stands when the tag is written behind `front`, and the attribute
behind those before it. -/
def WrittenTag.placeOf (front : Text) (tag : WrittenTag) (before : List WrittenAttribute)
    (a : WrittenAttribute) : Position :=
  Position.origin.past (front ++ CodePoint.ofChar '<' :: tag.name.text
    ++ (WrittenAttribute.renderAll before ++ a.gap.text))

/-! ### Spelling -/

/-- How a code point is spelled in a value between two quotes. -/
def CodePoint.escaped (quote c : CodePoint) : Text :=
  if c = ofChar '&' then Text.ofString "&amp;"
  else if c = ofChar '<' then Text.ofString "&lt;"
  else if c = quote then
    if quote = ofChar '"' then Text.ofString "&quot;" else Text.ofString "&apos;"
  else [c]

theorem CodePoint.escaped_ne_nil (quote c : CodePoint) : escaped quote c ≠ [] := by
  unfold escaped
  split
  · exact List.cons_ne_nil _ _
  · split
    · exact List.cons_ne_nil _ _
    · split
      · split <;> exact List.cons_ne_nil _ _
      · exact List.cons_ne_nil _ _

/-- The quote itself is written as a reference. -/
theorem CodePoint.quote_not_mem_escaped {quote : CodePoint} (h : quote.isQuote = true)
    (c : CodePoint) : quote ∉ escaped quote c := by
  obtain rfl | rfl : quote = ofChar '"' ∨ quote = ofChar '\'' := by
    obtain ⟨val, hlt⟩ := quote
    rcases val_of_isQuote h with rfl | rfl
    · exact Or.inl rfl
    · exact Or.inr rfl
  all_goals
    unfold escaped
    split
    · decide
    · split
      · decide
      · split
        · decide
        · next hne => exact fun hmem => hne (List.mem_singleton.mp hmem).symm

namespace Text

/-- How a value is spelled between two quotes. -/
def escaped (quote : CodePoint) (v : Text) : Text := v.flatMap (CodePoint.escaped quote)

theorem escaped_cons (quote c : CodePoint) (v : Text) :
    escaped quote (c :: v) = CodePoint.escaped quote c ++ escaped quote v :=
  List.flatMap_cons

theorem escaped_ne_nil (quote : CodePoint) {v : Text} (h : v ≠ []) : escaped quote v ≠ [] := by
  cases v with
  | nil => exact absurd rfl h
  | cons c v =>
    rw [escaped_cons]
    exact List.append_ne_nil_of_left_ne_nil (CodePoint.escaped_ne_nil quote c) _

/-- A spelling does not end the value before its time. -/
theorem quote_not_mem_escaped {quote : CodePoint} (h : quote.isQuote = true) (v : Text) :
    quote ∉ escaped quote v := by
  intro hmem
  obtain ⟨c, -, hc⟩ := List.mem_flatMap.mp hmem
  exact CodePoint.quote_not_mem_escaped h c hc

/-- A value without characters that XML asks to be written as references is its own spelling. -/
theorem escaped_eq_self {quote : CodePoint} {v : Text}
    (h : ∀ c ∈ v, c ≠ CodePoint.ofChar '&' ∧ c ≠ CodePoint.ofChar '<' ∧ c ≠ quote) :
    escaped quote v = v := by
  induction v with
  | nil => rfl
  | cons c v ih =>
    obtain ⟨hamp, hlt, hquote⟩ := h c List.mem_cons_self
    have hc : CodePoint.escaped quote c = [c] := by
      rw [CodePoint.escaped, if_neg hamp, if_neg hlt, if_neg hquote]
    rw [escaped_cons, hc, ih fun d hd => h d (List.mem_cons_of_mem c hd)]
    rfl

end Text

/-! ### Defects of values -/

variable {Name : Type} [Label Name]

namespace Schema

variable {s : Schema Name}

/-- What is reported of a tag as it opens an element, or stands for one, is reported of the
document. -/
theorem exists_parent_of_mem {tags : List Tag} {tag : Tag} (h : tag ∈ tags)
    (hkind : tag.kind ≠ .closing) :
    ∃ parent, ∀ d ∈ s.checkOpening parent tag, d ∈ s.checkTags tags := by
  obtain ⟨before, after, rfl⟩ := List.append_of_mem h
  refine ⟨(s.openedBy [] before).head?, fun d hd => ?_⟩
  rw [checkTags, walk_append, walk]
  refine List.mem_append_right _ (List.mem_append_left _ ?_)
  rcases step_cases s (s.openedBy [] before) tag with ⟨-, hstep⟩ | ⟨-, hstep⟩ |
    ⟨hclosing, -⟩ | ⟨hclosing, -⟩
  · rw [hstep]
    exact hd
  · rw [hstep]
    exact List.mem_append_left _ hd
  · exact absurd hclosing hkind
  · exact absurd hclosing hkind

/-- **When a document has a defect of a value:** when the attribute at its place has a value other
than those that its definition enumerates. -/
theorem invalidValue_iff_isMisvalued (s : Schema Name) {document : Text} {span : TagSpan}
    (h : span ∈ TagSpan.scan document) {attr : Attribute}
    (hattr : attr ∈ span.attributes (LineIndex.ofText document)) :
    (∃ d ∈ s.checkStructure document,
        d.finding.isInvalidValue = true ∧ d.position = attr.position) ↔
      span.kind ≠ .closing ∧
        ∃ value allowed, IsMisvalued (s.attributesOf (Label.ofText span.name)) attr value allowed := by
  constructor
  · rintro ⟨d, hd, hinvalid, hposition⟩
    cases listsFrom_of_mem_checkTags hd with
    | values htag hkind hother hmisvalued =>
      obtain ⟨other, hotherSpan, rfl⟩ := List.mem_map.mp htag
      obtain ⟨rfl, rfl⟩ := TagSpan.eq_of_position_eq h hotherSpan hattr hother hposition.symm
      exact ⟨hkind, _, _, hmisvalued⟩
    | children htag hm => exact absurd hinvalid Bool.false_ne_true
    | nothing hplain => exact absurd hinvalid (Bool.eq_false_iff.mp hplain.2)
  · rintro ⟨hkind, value, allowed, hmisvalued⟩
    have htag : span.locate (LineIndex.ofText document) ∈ Tag.ofText document :=
      List.mem_map_of_mem h
    obtain ⟨parent, hreported⟩ := exists_parent_of_mem (s := s) htag hkind
    refine ⟨⟨.invalidValue value attr.name allowed, attr.position⟩, hreported _ ?_, rfl, rfl⟩
    have hd : (⟨.invalidValue value attr.name allowed, attr.position⟩ : Diagnostic Name)
        ∈ checkAttribute (s.attributesOf (Label.ofText span.name))
          (span.locate (LineIndex.ofText document)) attr :=
      mem_checkAttribute_iff.mpr (Or.inr ⟨value, allowed, hmisvalued, rfl⟩)
    obtain ⟨spec, hfind, -⟩ := hmisvalued.enumerates
    cases helement : s.element? (Label.ofText span.name) with
    | none =>
      simp [attributesOf, helement] at hfind
    | some e =>
      have helement' : s.element? (Label.ofText (span.locate (LineIndex.ofText document)).name)
          = some e := helement
      rw [checkOpening, helement']
      exact List.mem_append_right _ (List.mem_append_left _
        (List.mem_flatMap.mpr ⟨attr, hattr, hd⟩))

/-- A well-formed document is checked if it has a tag. -/
theorem validate_eq_checked {document : Text} (hformed : checkWellFormed document = none)
    (htag : CodePoint.ofChar '<' ∈ document) :
    s.validate document = .checked (s.checkStructure document) := by
  have hblank : document.isBlank = false := by
    refine Bool.eq_false_iff.mpr fun hblank => ?_
    exact nomatch List.all_eq_true.mp hblank _ htag
  rw [validate, hblank, hformed]
  rfl

/-- An attribute whose definition enumerates values, and that has a value, is at fault if this is
not among them. -/
theorem isMisvalued_iff [LawfulLabel Name] {declared : List (AttributeSpec Name)}
    {attr : Attribute} {spec : AttributeSpec Name} {allowed : List Name} {value : Text}
    (hspec : (declared.find? fun a => a.name == Label.ofText attr.name) = some spec)
    (hvalues : spec.values = some allowed) (hallowed : allowed ≠ [])
    (hvalue : attr.value = some value) (hne : value ≠ []) :
    (∃ value allowed, IsMisvalued declared attr value allowed) ↔
      isNamespaceDeclaration attr.name = false ∧ Label.ofText value ∉ allowed := by
  have htext : Label.IsText (Label.ofText value : Name) := ⟨value, rfl⟩
  have helem := htext.elem_iff allowed
  constructor
  · rintro ⟨value', allowed', h⟩
    obtain ⟨spec', hspec', hvalues'⟩ := h.enumerates
    obtain rfl := Option.some.inj (hspec.symm.trans hspec')
    obtain rfl := Option.some.inj (hvalues.symm.trans hvalues')
    obtain rfl := Option.some.inj (hvalue.symm.trans h.value_eq)
    exact ⟨h.not_namespace, mt helem.mpr (Bool.eq_false_iff.mp h.not_elem)⟩
  · rintro ⟨hnamespace, hnot⟩
    exact ⟨value, allowed, hnamespace, ⟨spec, hspec, hvalues⟩, hallowed, hvalue, hne,
      Bool.eq_false_iff.mpr (mt helem.mp hnot)⟩

/-- **Which spellings of an allowed value are accepted.** In a well-formed document take an
attribute of a tag, whose definition enumerates values, and spell one of these in it. It is at fault
only if its spelling is not among them as well. So nothing is at fault if the value needs no
references. -/
theorem acceptsSpelling_iff [LawfulLabel Name] (s : Schema Name) {document front rest : Text}
    (hformed : checkWellFormed document = none) {tag : WrittenTag} {closed : Option Spacing}
    (hdocument : document = front ++ (tag.render closed ++ rest))
    (hfound : ∃ span ∈ TagSpan.scan document, span.start = front.length)
    {before after : List WrittenAttribute} {a : WrittenAttribute}
    (hattributes : tag.attributes = before ++ a :: after) {spec : AttributeSpec Name}
    (hspec : (s.attributesOf (Label.ofText tag.name.text)).find?
      (fun b => b.name == Label.ofText a.name.text) = some spec)
    {allowed : List Name} (hvalues : spec.values = some allowed) {v : Text}
    (hallowed : Label.ofText v ∈ allowed) (hne : v ≠ []) (hvalue : a.value = v.escaped a.quote) :
    s.validate document = .checked (s.checkStructure document) ∧
    ((∃ d ∈ s.checkStructure document,
        d.finding.isInvalidValue = true ∧ d.position = tag.placeOf front before a) ↔
      isNamespaceDeclaration a.name.text = false ∧
        Label.ofText (v.escaped a.quote) ∉ allowed) ∧
    ((∀ c ∈ v, c ≠ CodePoint.ofChar '&' ∧ c ≠ CodePoint.ofChar '<' ∧ c ≠ a.quote) →
      ∀ d ∈ s.checkStructure document, d.position = tag.placeOf front before a →
        d.finding.isInvalidValue = false) := by
  obtain ⟨span, hspan, hstart⟩ := hfound
  have htag := TagSpan.locate_eq_tag hdocument hspan hstart
  have hname : span.name = tag.name.text := congrArg Tag.name htag
  have hkind : span.kind ≠ .closing := by
    rw [show span.kind = _ from congrArg Tag.kind htag]
    cases closed <;> exact nofun
  have hattr : (⟨a.name.text, some a.value, tag.placeOf front before a⟩ : Attribute)
      ∈ span.attributes (LineIndex.ofText document) := by
    rw [show span.attributes _ = _ from congrArg Tag.attributes htag]
    have hmem := WrittenAttribute.mem_attributesFrom
      ((Position.origin.past front).past (CodePoint.ofChar '<' :: tag.name.text)) before after a
    rw [← Position.past_append, ← Position.past_append, ← hattributes, Position.past_append] at hmem
    exact hmem
  have hiff : (∃ d ∈ s.checkStructure document,
        d.finding.isInvalidValue = true ∧ d.position = tag.placeOf front before a) ↔
      isNamespaceDeclaration a.name.text = false ∧
        Label.ofText (v.escaped a.quote) ∉ allowed := by
    rw [invalidValue_iff_isMisvalued s hspan hattr, hname, and_iff_right hkind, ← hvalue]
    exact isMisvalued_iff hspec hvalues (List.ne_nil_of_mem hallowed) rfl
      (hvalue ▸ Text.escaped_ne_nil a.quote hne)
  refine ⟨validate_eq_checked hformed ?_, hiff, fun hplain d hd hposition => ?_⟩
  · rw [hdocument]
    exact List.mem_append_right _ (List.mem_append_left _ List.mem_cons_self)
  · refine Bool.eq_false_iff.mpr fun hinvalid => ?_
    obtain ⟨-, hnot⟩ := hiff.mp ⟨d, hd, hinvalid, hposition⟩
    rw [Text.escaped_eq_self hplain] at hnot
    exact hnot hallowed

/-- The kind of a word, which is one of two. -/
def kindOfWord : AttributeSpec Text :=
  ⟨Text.ofString "t", false, some [Text.ofString "A&B", Text.ofString "plain"], none, none, none,
    none⟩

/-- A schema of words. -/
def words : Schema Text :=
  Schema.ofElements (Text.ofString "words") (Text.ofString "Words")
    [⟨Text.ofString "w", none, [], [], [kindOfWord], some .sequence,
      .model ⟨.sequence, [], Bounds.once⟩⟩]

theorem attributesOf_words : words.attributesOf (Label.ofText (Text.ofString "w")) = [kindOfWord] := by
  cbv

/-- The tag of a word, with its kind spelled between quotation marks. -/
def wordTag (kind : Text) : WrittenTag where
  name := ⟨Text.ofString "w", rfl⟩
  attributes :=
    [{ gap := ⟨[CodePoint.ofChar ' '], List.forall_mem_singleton.mpr rfl⟩
       gap_ne_nil := List.cons_ne_nil _ _
       name := ⟨Text.ofString "t", rfl⟩
       beforeEquals := ⟨[], List.forall_mem_nil _⟩
       afterEquals := ⟨[], List.forall_mem_nil _⟩
       quote := CodePoint.ofChar '"'
       isQuote := rfl
       value := kind.escaped (CodePoint.ofChar '"')
       isFree := Text.quote_not_mem_escaped rfl kind }]
  trailing := ⟨[], List.forall_mem_nil _⟩

/-- A kind that needs no references is accepted. -/
theorem acceptsSpelling_plain :
    words.validate (Text.ofString "<w t=\"plain\"/>")
      = .checked (words.checkStructure (Text.ofString "<w t=\"plain\"/>")) ∧
    ∀ d ∈ words.checkStructure (Text.ofString "<w t=\"plain\"/>"),
      d.position = ⟨1, 4⟩ → d.finding.isInvalidValue = false := by
  have hspec : (words.attributesOf (Label.ofText (Text.ofString "w"))).find?
      (fun b => b.name == Label.ofText (Text.ofString "t")) = some kindOfWord := by
    rw [attributesOf_words]
    rfl
  have hspan : ⟨.selfClosing, Text.ofString "w", 0, 14, Text.ofString " t=\"plain\"", 2⟩
      ∈ TagSpan.scan (Text.ofString "<w t=\"plain\"/>") := by
    decide +kernel
  have hdocument : Text.ofString "<w t=\"plain\"/>"
      = [] ++ ((wordTag (Text.ofString "plain")).render (some ⟨[], List.forall_mem_nil _⟩) ++ []) := by
    decide +kernel
  have hattributes : (wordTag (Text.ofString "plain")).attributes = [] ++ [_] := rfl
  have hallowed : Label.ofText (Text.ofString "plain")
      ∈ [Text.ofString "A&B", Text.ofString "plain"] := by
    decide +kernel
  have hspelled := acceptsSpelling_iff words (by decide +kernel) hdocument ⟨_, hspan, rfl⟩
    hattributes hspec rfl hallowed (List.cons_ne_nil _ _) rfl
  exact ⟨hspelled.1, hspelled.2.2 (by decide +kernel)⟩

/-- A kind with an ampersand is allowed, but its spelling in XML is not accepted. -/
theorem rejects_ampersand :
    checkWellFormed (Text.ofString "<w t=\"A&amp;B\"/>") = none ∧
    words.attributesOf (Label.ofText (Text.ofString "w")) = [kindOfWord] ∧
    kindOfWord.values = some [Text.ofString "A&B", Text.ofString "plain"] ∧
    (wordTag (Text.ofString "A&B")).render (some ⟨[], List.forall_mem_nil _⟩)
      = Text.ofString "<w t=\"A&amp;B\"/>" ∧
    (words.checkStructure (Text.ofString "<w t=\"A&amp;B\"/>")).map
        (fun d => (d.finding.isInvalidValue, d.position)) = [(true, ⟨1, 4⟩)] := by
  have htags : Tag.ofText (Text.ofString "<w t=\"A&amp;B\"/>")
      = [⟨.selfClosing, Text.ofString "w", ⟨1, 1⟩,
          [⟨Text.ofString "t", some (Text.ofString "A&amp;B"), ⟨1, 4⟩⟩]⟩] := by
    decide +kernel
  refine ⟨by decide +kernel, attributesOf_words, rfl, by decide +kernel, ?_⟩
  rw [checkStructure, htags, checkTags, walk, walk, step]
  simp only [checkOpening, checkAttributes, attributesOf_words]
  decide +kernel

end Schema

end MarkupGrammar
