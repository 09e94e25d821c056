import MarkupGrammar.Check.Report
import MarkupGrammar.Proofs.Check.Balance
import MarkupGrammar.Proofs.Check.Run
import MarkupGrammar.Proofs.Reading

/-!
# Where defects are shown

An author is led to the place of a defect, so there has to be something to see. Each defect of a
document is one of a tag that opens an element or stands for a whole one: of the element itself, of
a child that does not fit, or of the parent that misses one. It is shown at the `<` of that tag, or
at the name of one of the tag's attributes. This holds of any text, well formed or not.

A place goes a long way before it is shown: from the scanner to a tag, from the tag to an open
element or to a child that the element records, from there to a defect, and from the defect to a
report. The way is followed in three steps, from the check to tags (`IsOfTag`), from tags to the
text (`StandsIn`), and from defects to reports.

## Main results

* `isOfTag_of_mem_checkTags` — every defect is one of a tag
* `standsIn_checkStructure` — where the defects of a document are shown, and its mistakes if it is
  not well formed
-/

namespace MarkupGrammar

variable {Name : Type} [Label Name]

/-! ### Defects of a tag -/

/-- A defect that a tag has as it opens an element or stands for one. -/
inductive Diagnostic.IsOfOpening (tag : Tag) : Diagnostic Name → Prop where
  | unknownElement : IsOfOpening tag ⟨.unknownElement tag.name, tag.position⟩
  | invalidNesting (parent : Text) :
    IsOfOpening tag ⟨.invalidNesting tag.name parent, tag.position⟩
  | unknownAttribute {attr : Attribute} (hattr : attr ∈ tag.attributes) :
    IsOfOpening tag ⟨.unknownAttribute attr.name tag.name, attr.position⟩
  | invalidValue {attr : Attribute} (hattr : attr ∈ tag.attributes) (value : Text)
    (allowed : List Name) : IsOfOpening tag ⟨.invalidValue value attr.name allowed, attr.position⟩
  | missingAttribute (attr : Name) :
    IsOfOpening tag ⟨.missingAttribute attr tag.name, tag.position⟩
  | selfClosing (required : List Name) :
    IsOfOpening tag ⟨.selfClosing tag.name required, tag.position⟩

/-- A defect of a tag: one that it has from the start, one that the element which it opens has at
its end, or one of a child in the element around it. -/
inductive Diagnostic.IsOfTag (tag : Tag) : Diagnostic Name → Prop where
  | opening {d : Diagnostic Name} (h : d.IsOfOpening tag) : IsOfTag tag d
  | missingChild (child : Name) : IsOfTag tag ⟨.missingChild tag.name child, tag.position⟩
  | unclosed : IsOfTag tag ⟨.unclosed tag.name, tag.position⟩
  | child {parent : Text} {finding : Finding Name}
    (h : finding.IsOfChild parent (Label.ofText tag.name)) : IsOfTag tag ⟨finding, tag.position⟩

namespace Schema

variable {s : Schema Name}

theorem isOfOpening_of_mem_checkOpening {parent : Option (OpenTag Name)} {tag : Tag}
    {d : Diagnostic Name} (hd : d ∈ s.checkOpening parent tag) : d.IsOfOpening tag := by
  rcases mem_checkOpening_cases hd with rfl | ⟨name, rfl⟩ | ⟨attr, hattr, hd⟩ | ⟨name, rfl⟩
  · exact .unknownElement
  · exact .invalidNesting name
  · rcases mem_checkAttribute_iff.mp hd with ⟨-, -, rfl⟩ | ⟨value, allowed, -, rfl⟩
    · exact .unknownAttribute hattr
    · exact .invalidValue hattr value allowed
  · exact .missingAttribute name

theorem isOfOpening_of_mem_checkSelfClosing {spec : Option (ElementSpec Name)} {tag : Tag}
    {d : Diagnostic Name} (hd : d ∈ checkSelfClosing spec tag) : d.IsOfOpening tag := by
  obtain ⟨m, -, rfl⟩ := exists_of_mem_checkSelfClosing hd
  exact .selfClosing m.requiredChildren

/-! ### From the check to tags -/

end Schema

/-- An open element and the children that it has recorded are of tags. -/
structure OpenTag.IsOf (tags : List Tag) (frame : OpenTag Name) : Prop where
  element : ∃ tag ∈ tags, tag.kind ≠ .closing ∧ tag.name = frame.name ∧
    tag.position = frame.position
  children : ∀ child ∈ frame.reversedChildren, ∃ tag ∈ tags, tag.kind ≠ .closing ∧
    Label.ofText tag.name = child.name ∧ tag.position = child.position

namespace Schema

variable {s : Schema Name}

/-- What is wrong with the children of an element is the defect of one that it has recorded, or its
own. -/
theorem isOfTag_of_mem_checkClosing {tags : List Tag} {frame : OpenTag Name} (h : frame.IsOf tags)
    {d : Diagnostic Name} (hd : d ∈ checkClosing frame) :
    ∃ tag ∈ tags, tag.kind ≠ .closing ∧ d.IsOfTag tag := by
  rcases mem_checkClosing_cases hd with ⟨child, hchild, hplace, hfinding⟩ | ⟨name, rfl⟩
  · obtain ⟨finding, position⟩ := d
    obtain rfl : position = child.position := hplace
    obtain ⟨tag, htag, hkind, hname, hposition⟩ := h.children child hchild
    rw [← hname] at hfinding
    exact ⟨tag, htag, hkind, hposition ▸ .child hfinding⟩
  · obtain ⟨tag, htag, hkind, hname, hposition⟩ := h.element
    exact ⟨tag, htag, hkind, hname ▸ hposition ▸ .missingChild name⟩

/-- **Every defect is one of a tag** that opens an element or stands for a whole one. -/
theorem isOfTag_of_mem_checkTags {tags : List Tag} {d : Diagnostic Name}
    (hd : d ∈ s.checkTags tags) : ∃ tag ∈ tags, tag.kind ≠ .closing ∧ d.IsOfTag tag := by
  refine forall_mem_walk (P := OpenTag.IsOf tags)
    (Q := fun d => ∃ tag ∈ tags, tag.kind ≠ .closing ∧ d.IsOfTag tag)
    ?_ ?_ ?_ ?_ ?_ ?_ (List.forall_mem_nil _) d hd
  case refine_1 =>
    intro tag htag hkind
    have hne : tag.kind ≠ .closing := by simp [hkind]
    exact ⟨⟨tag, htag, hne, rfl, rfl⟩, fun child hchild => nomatch hchild⟩
  case refine_2 =>
    intro tag htag hkind frame hframe
    refine ⟨hframe.element, fun child hchild => ?_⟩
    rcases List.mem_cons.mp hchild with rfl | hchild
    · exact ⟨tag, htag, hkind, rfl, rfl⟩
    · exact hframe.children child hchild
  case refine_3 =>
    intro tag htag hkind parent d hd
    exact ⟨tag, htag, hkind, .opening (isOfOpening_of_mem_checkOpening hd)⟩
  case refine_4 =>
    intro tag htag hkind d hd
    have hne : tag.kind ≠ .closing := by simp [hkind]
    exact ⟨tag, htag, hne, .opening (isOfOpening_of_mem_checkSelfClosing hd)⟩
  case refine_5 =>
    intro frame hframe d hd
    exact isOfTag_of_mem_checkClosing hframe hd
  case refine_6 =>
    intro frame hframe
    obtain ⟨tag, htag, hkind, hname, hposition⟩ := hframe.element
    exact ⟨tag, htag, hkind, hname ▸ hposition ▸ .unclosed⟩

end Schema

/-! ### From tags to the text -/

namespace Finding

/-- The attribute at whose name a finding is shown; all other findings are shown at a tag. -/
def attribute? : Finding Name → Option Text
  | .unknownAttribute attr _ => some attr
  | .invalidValue _ attr _ => some attr
  | _ => none

/-- A finding about an element of some name: the element is not as it should be, or not fit for the
element around it. -/
def IsAbout (name : Text) : Finding Name → Prop
  | .unknownElement element => element = name
  | .unknownAttribute _ element => element = name
  | .invalidValue .. => True
  | .invalidNesting child _ => child = name
  | .missingAttribute _ element => element = name
  | .missingChild parent _ => parent = name
  | .selfClosing element _ => element = name
  | .unclosed element => element = name
  | finding => ∃ parent, finding.IsOfChild parent (Label.ofText name)

theorem IsOfChild.isAbout {parent name : Text} {finding : Finding Name}
    (h : finding.IsOfChild parent (Label.ofText name)) : finding.IsAbout name := by
  cases finding <;> first | exact ⟨parent, h⟩ | exact h.elim

theorem IsOfChild.attribute?_eq {parent : Text} {child : Name} {finding : Finding Name}
    (h : finding.IsOfChild parent child) : finding.attribute? = none := by
  cases finding <;> first | rfl | exact h.elim

end Finding

/-- A piece of text stands at an offset of a text. -/
structure Text.StandsAt (piece : Text) (offset : Nat) (text : Text) : Prop where
  ne_nil : piece ≠ []
  prefix_drop : piece <+: text.drop offset

theorem Text.StandsAt.lt_length {piece text : Text} {offset : Nat} (h : piece.StandsAt offset text) :
    offset < text.length := by
  refine Nat.lt_of_not_le fun hle => h.ne_nil ?_
  have hprefix := h.prefix_drop
  rw [List.drop_eq_nil_of_le hle] at hprefix
  exact List.prefix_nil.mp hprefix

/-- A defect stands in a document, at an offset, with a tag of the document that is no closing tag:
at the name of an attribute inside the tag, if it is one of an attribute, or at the tag's `<`, which
the name of the element follows. -/
structure Diagnostic.StandsIn (document : Text) (d : Diagnostic Name) (offset : Nat)
    (span : TagSpan) : Prop where
  mem_scan : span ∈ TagSpan.scan document
  kind_ne_closing : span.kind ≠ .closing
  isAbout : d.finding.IsAbout span.name
  lt_length : offset < document.length
  position_eq : d.position = (LineIndex.ofText document).locate offset
  at_attribute : ∀ attr, d.finding.attribute? = some attr →
    attr.StandsAt offset document ∧ span.start < offset ∧ offset + attr.length ≤ span.stop
  at_tag : d.finding.attribute? = none →
    Text.StandsAt (Text.ofString "<" ++ span.name) offset document ∧ offset = span.start

namespace TagSpan

variable {document : Text} {span : TagSpan}

/-- At the offset of a tag stand its opener and its name. -/
theorem standsAt_opener (h : span ∈ scan document) :
    (opener span.kind ++ span.name).StandsAt span.start document := by
  refine ⟨?_, (liesIn_of_mem_scan h).begins⟩
  exact List.append_ne_nil_of_right_ne_nil _ (liesIn_of_mem_scan h).name_ne_nil

/-- At the offset of a tag that is no closing tag stand a `<` and the tag's name. -/
theorem standsAt_start (h : span ∈ scan document) (hkind : span.kind ≠ .closing) :
    Text.StandsAt (Text.ofString "<" ++ span.name) span.start document := by
  have hopener : opener span.kind = Text.ofString "<" := by
    cases hcase : span.kind with
    | closing => exact absurd hcase hkind
    | opening => rfl
    | selfClosing => rfl
  rw [← hopener]
  exact standsAt_opener h

/-- What is read as an attribute of a tag stands inside the tag, behind its `<`. -/
theorem standsAt_attribute (h : span ∈ scan document) {attrSpan : AttributeSpan}
    (hattrSpan : attrSpan ∈ AttributeSpan.scan span.attrText) :
    attrSpan.name.StandsAt (span.attrStart + attrSpan.start) document ∧
      span.start < span.attrStart + attrSpan.start ∧
      span.attrStart + attrSpan.start + attrSpan.name.length ≤ span.stop := by
  have hlies := AttributeSpan.liesIn_of_mem_scan hattrSpan
  have hle := hlies.name_le
  rcases (liesIn_of_mem_scan h).attributes with hnil | ⟨hstart, ⟨behind, hbehind⟩, hstop⟩
  · rw [hnil] at hattrSpan
    simp [AttributeSpan.scan, AttributeSpan.scanFrom] at hattrSpan
  · have hbegins : attrSpan.name <+: document.drop (span.attrStart + attrSpan.start) := by
      rw [← List.drop_drop, ← hbehind, List.drop_append_of_le_length (by omega)]
      exact hlies.begins.trans (List.prefix_append _ behind)
    refine ⟨⟨hlies.name_ne_nil, hbegins⟩, ?_, ?_⟩
    · omega
    · omega

/-- An attribute of a tag is at the place where it is read. -/
theorem exists_standsAt_of_mem_attributes (h : span ∈ scan document) {attr : Attribute}
    (hattr : attr ∈ span.attributes (LineIndex.ofText document)) :
    ∃ offset : Nat, attr.position = (LineIndex.ofText document).locate offset ∧
      attr.name.StandsAt offset document ∧ span.start < offset ∧
      offset + attr.name.length ≤ span.stop := by
  obtain ⟨attrSpan, hattrSpan, rfl⟩ := List.mem_map.mp hattr
  exact ⟨span.attrStart + attrSpan.start, by simp [AttributeSpan.locate],
    standsAt_attribute h hattrSpan⟩

end TagSpan

namespace Diagnostic

variable {document : Text} {span : TagSpan} {d : Diagnostic Name}

/-- A defect that is shown at a tag stands at the tag's `<`. -/
theorem standsIn_of_attribute?_eq_none (h : span ∈ TagSpan.scan document)
    (hkind : span.kind ≠ .closing) (habout : d.finding.IsAbout span.name)
    (hposition : d.position = (LineIndex.ofText document).locate span.start)
    (hnone : d.finding.attribute? = none) : d.StandsIn document span.start span where
  mem_scan := h
  kind_ne_closing := hkind
  isAbout := habout
  lt_length := (TagSpan.standsAt_start h hkind).lt_length
  position_eq := hposition
  at_attribute := fun _ hattr => nomatch hnone.symm.trans hattr
  at_tag := fun _ => ⟨TagSpan.standsAt_start h hkind, rfl⟩

/-- A defect that is shown at an attribute stands at the attribute's name. -/
theorem exists_standsIn_of_attribute?_eq_some (h : span ∈ TagSpan.scan document)
    (hkind : span.kind ≠ .closing) (habout : d.finding.IsAbout span.name) {attr : Attribute}
    (hattr : attr ∈ span.attributes (LineIndex.ofText document))
    (hposition : d.position = attr.position) (hsome : d.finding.attribute? = some attr.name) :
    ∃ offset, d.StandsIn document offset span := by
  obtain ⟨offset, hplace, hstands, hinside⟩ := TagSpan.exists_standsAt_of_mem_attributes h hattr
  refine ⟨offset, h, hkind, habout, hstands.lt_length, hposition.trans hplace, ?_, ?_⟩
  · intro name hname
    obtain rfl := Option.some.inj (hsome.symm.trans hname)
    exact ⟨hstands, hinside⟩
  · exact fun hnone => nomatch hsome.symm.trans hnone

/-- A defect of a tag stands in the document that the tag was read from. -/
theorem IsOfTag.exists_standsIn (h : span ∈ TagSpan.scan document) (hkind : span.kind ≠ .closing)
    (hd : d.IsOfTag (span.locate (LineIndex.ofText document))) :
    ∃ offset, d.StandsIn document offset span := by
  cases hd with
  | opening hd =>
    cases hd with
    | unknownAttribute hattr =>
      exact exists_standsIn_of_attribute?_eq_some h hkind rfl hattr rfl rfl
    | invalidValue hattr value allowed =>
      exact exists_standsIn_of_attribute?_eq_some h hkind trivial hattr rfl rfl
    | unknownElement => exact ⟨_, standsIn_of_attribute?_eq_none h hkind rfl rfl rfl⟩
    | invalidNesting parent => exact ⟨_, standsIn_of_attribute?_eq_none h hkind rfl rfl rfl⟩
    | missingAttribute attr => exact ⟨_, standsIn_of_attribute?_eq_none h hkind rfl rfl rfl⟩
    | selfClosing required => exact ⟨_, standsIn_of_attribute?_eq_none h hkind rfl rfl rfl⟩
  | missingChild child => exact ⟨_, standsIn_of_attribute?_eq_none h hkind rfl rfl rfl⟩
  | unclosed => exact ⟨_, standsIn_of_attribute?_eq_none h hkind rfl rfl rfl⟩
  | child hfinding =>
    exact ⟨_, standsIn_of_attribute?_eq_none h hkind hfinding.isAbout rfl hfinding.attribute?_eq⟩

end Diagnostic

/-! ### From defects to reports -/

/-- A report has the words, the place and the kind of its defect, and reports are in the order of
the defects. -/
theorem Diagnostic.map_of_mapM_report {limits : PreviewLimits} {ds : List (Diagnostic Name)}
    {reports : List Report} (h : ds.mapM (report limits) = .ok reports) :
    reports.map (fun r => (r.message, r.position, r.code))
      = ds.map fun d => (d.finding.message? limits, some d.position, d.finding.code) := by
  induction ds generalizing reports with
  | nil =>
    obtain rfl := Except.ok.inj h
    rfl
  | cons d ds ih =>
    rw [List.mapM_cons] at h
    obtain ⟨r, hr, h⟩ := exists_of_bind_eq_ok h
    obtain ⟨rs, hrs, h⟩ := exists_of_bind_eq_ok h
    obtain rfl := Except.ok.inj h
    have hhead : (r.message, r.position, r.code)
        = (d.finding.message? limits, some d.position, d.finding.code) := by
      rw [report] at hr
      cases hmessage : d.finding.message? limits with
      | none =>
        rw [hmessage] at hr
        exact nomatch hr
      | some message =>
        rw [hmessage] at hr
        obtain rfl := Except.ok.inj hr
        rfl
    rw [List.map_cons, List.map_cons, hhead, ih hrs]

/-! ### Mistakes of a document that is not well formed -/

namespace Text

theorem afterBracket_suffix (r : Text) : afterBracket r <:+ r := by
  have hbody := Construct.ofText_suffix r
  unfold afterBracket
  split
  · next body hcomment =>
    rw [hcomment] at hbody
    exact (skipPast_suffix _ body).trans hbody
  · next body hcdata =>
    rw [hcdata] at hbody
    exact (skipPast_suffix _ body).trans hbody
  · exact List.suffix_refl r

/-- What is found in the rest of a text is a `<` of the text. -/
theorem standsAt_of_strayFrom {text r : Text} (hr : r <:+ text) {offset : Nat}
    (h : strayFrom text.length r = some offset) : StandsAt (ofString "<") offset text := by
  induction r using strayFrom.induct with
  | case1 =>
    rw [strayFrom] at h
    exact nomatch h
  | case2 r hstray =>
    rw [strayFrom, if_pos rfl, if_pos hstray] at h
    obtain ⟨before, rfl⟩ := hr
    have hoffset : before.length = offset := by
      rw [← Option.some.inj h, List.length_append]
      omega
    refine ⟨List.cons_ne_nil _ _, ?_⟩
    rw [← hoffset, List.drop_left]
    exact List.prefix_append (ofString "<") r
  | case3 r hstray ih =>
    rw [strayFrom, if_pos rfl, if_neg hstray] at h
    exact ih (((afterBracket_suffix r).trans (List.suffix_cons _ r)).trans hr) h
  | case4 c r hc ih =>
    rw [strayFrom, if_neg hc] at h
    exact ih ((List.suffix_cons c r).trans hr) h

end Text

namespace Schema

/-- **Every defect of a document is shown at something in it,** whatever the document looks like: at
the name of an attribute inside a tag, or at the `<` of a tag, which the tag's name follows. Reports
are shown where the defects are. The mistakes of a document that is not well formed are shown at a
`<` too: one that begins no markup, or that of a tag without a counterpart. -/
theorem standsIn_checkStructure (s : Schema Name) (document : Text) :
    (∀ d ∈ s.checkStructure document, ∃ offset span, d.StandsIn document offset span) ∧
    (∀ limits reports, (Validation.checked (s.checkStructure document)).reports limits = .ok reports →
      reports.map (fun r => (r.message, r.position, r.code))
        = (s.checkStructure document).map fun d =>
            (d.finding.message? limits, some d.position, d.finding.code)) ∧
    (∀ position, Text.strayBracket? document = some position → ∃ offset : Nat,
      position = (LineIndex.ofText document).locate offset ∧
        Text.StandsAt (Text.ofString "<") offset document) ∧
    ∀ problem position, Balance.mismatch? (Tag.ofText document) = some (problem, position) →
      ∃ span ∈ TagSpan.scan document,
        position = (LineIndex.ofText document).locate span.start ∧
        match problem with
        | .orphan name => Text.StandsAt (Text.ofString "</" ++ name) span.start document
        | .unclosed name => Text.StandsAt (Text.ofString "<" ++ name) span.start document := by
  refine ⟨fun d hd => ?_, fun limits reports h => Diagnostic.map_of_mapM_report h,
    fun position h => ?_, fun problem position h => ?_⟩
  · obtain ⟨tag, htag, hkind, hd⟩ := isOfTag_of_mem_checkTags hd
    obtain ⟨span, hspan, rfl⟩ := List.mem_map.mp htag
    obtain ⟨offset, hstands⟩ := hd.exists_standsIn hspan hkind
    exact ⟨offset, span, hstands⟩
  · obtain ⟨_, hstray, rfl⟩ := Option.map_eq_some_iff.mp h
    obtain ⟨offset, hoffset, heq⟩ := Option.bind_eq_some_iff.mp hstray
    obtain rfl := Option.some.inj heq
    exact ⟨offset, rfl, Text.standsAt_of_strayFrom (List.suffix_refl document) hoffset⟩
  · obtain ⟨tag, htag, hposition, hproblem⟩ := Balance.exists_of_mismatch? h
    obtain ⟨span, hspan, rfl⟩ := List.mem_map.mp htag
    have hstands := TagSpan.standsAt_opener hspan
    refine ⟨span, hspan, hposition, ?_⟩
    rcases hproblem with ⟨hkind, rfl⟩ | ⟨hkind, rfl⟩
    · rwa [show span.kind = .closing from hkind] at hstands
    · rwa [show span.kind = .opening from hkind] at hstands

/-- A list with an attribute that it may not have, and without an end; a `<` that begins no
markup. -/
theorem standsIn_unclosedList :
    ((lists.checkStructure (Text.ofString "<list\n n='1'>")).map fun d =>
      (d.finding.code, d.position)) = [("unknown_attribute", ⟨2, 2⟩), ("unclosed_tag", ⟨1, 1⟩)] ∧
    (∀ d ∈ lists.checkStructure (Text.ofString "<list\n n='1'>"),
      ∃ offset span, d.StandsIn (Text.ofString "<list\n n='1'>") offset span) ∧
    Text.strayBracket? (Text.ofString "1 < 2") = some ⟨1, 3⟩ ∧
    ∃ offset : Nat, (⟨1, 3⟩ : Position) = (LineIndex.ofText (Text.ofString "1 < 2")).locate offset ∧
      Text.StandsAt (Text.ofString "<") offset (Text.ofString "1 < 2") := by
  have hstray : Text.strayBracket? (Text.ofString "1 < 2") = some ⟨1, 3⟩ := by decide +kernel
  have htags : Tag.ofText (Text.ofString "<list\n n='1'>")
      = [⟨.opening, Text.ofString "list", ⟨1, 1⟩,
          [⟨Text.ofString "n", some (Text.ofString "1"), ⟨2, 2⟩⟩]⟩] := by
    decide +kernel
  refine ⟨?_, (standsIn_checkStructure lists _).1, hstray,
    (standsIn_checkStructure lists _).2.2.1 _ hstray⟩
  have hattributes : lists.attributesOf (Label.ofText (Text.ofString "list")) = [] := by cbv
  rw [checkStructure, htags, checkTags, walk, walk, step]
  simp only [checkOpening, checkAttributes, hattributes]
  decide +kernel

end Schema

end MarkupGrammar
