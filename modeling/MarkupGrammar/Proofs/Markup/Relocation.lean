import MarkupGrammar.Proofs.Markup.Lexing

/-!
# Text in front of a document

When a text is put in front of a document, its lines are counted on: a place on the first line of
the document moves to the line where the text in front ends, and to the right of it; any other place
keeps its column. If the scan passes over the text in front, the tags are those of the document, at
the places that they have moved to.

The scanner reckons with offsets from the end of the text, and with a line index of the whole, so
neither of the two runs is part of the other: they are compared step by step.

## Main results

* `LineIndex.locate_append_right` — the place of an offset behind a text in front
* `Tag.ofText_append` — the tags behind a text that is passed over
-/

namespace MarkupGrammar

namespace Position

/-- Where a place of a document moves when the document begins at `start` and not at the first place
of a text. -/
def behind (start p : Position) : Position :=
  if p.line = 1 then ⟨start.line, start.column + (p.column - 1)⟩
  else ⟨start.line + (p.line - 1), p.column⟩

end Position

/-! ### Lines -/

namespace LineIndex

theorem startsAfter_add (k offset : Nat) (t : Text) :
    startsAfter (k + offset) t = (startsAfter offset t).map (k + ·) := by
  induction t generalizing offset with
  | nil => rfl
  | cons c t ih =>
    rw [startsAfter, startsAfter, Nat.add_assoc, ih]
    split <;> rfl

/-- The lines that start at or before an offset behind a text: those of the text, and those that
start at or before the offset in what follows. -/
theorem takeWhile_starts_append (before t : Text) {offset : Int} (h : 0 ≤ offset) :
    (0 :: startsAfter 0 (before ++ t)).takeWhile
        (fun start : Nat => decide ((start : Int) ≤ before.length + offset))
      = (0 :: startsAfter 0 before) ++ ((startsAfter 0 t).takeWhile
          fun start : Nat => decide ((start : Int) ≤ offset)).map (before.length + ·) := by
  have hbehind : startsAfter (0 + before.length) t
      = (startsAfter 0 t).map (before.length + ·) := by
    rw [Nat.zero_add, ← startsAfter_add, Nat.add_zero]
  have hstarts : ∀ start ∈ 0 :: startsAfter 0 before,
      decide ((start : Int) ≤ before.length + offset) = true := by
    intro start hstart
    have hle : start ≤ before.length := by
      rcases List.mem_cons.mp hstart with rfl | hstart
      · exact Nat.zero_le _
      · have := (mem_startsAfter hstart).2
        omega
    exact decide_eq_true (by omega)
  have htest : ((fun start : Nat => decide ((start : Int) ≤ before.length + offset))
      ∘ (before.length + ·)) = fun start : Nat => decide ((start : Int) ≤ offset) := by
    funext start
    simp
  rw [startsAfter_append, hbehind, ← List.cons_append, List.takeWhile_append_of_pos hstarts,
    List.takeWhile_map, htest]

/-- **The place of an offset behind a text.** Lines are counted on from where the text ends. -/
theorem locate_append_right (before t : Text) {offset : Int} (h : 0 ≤ offset) :
    (ofText (before ++ t)).locate (before.length + offset)
      = (Position.origin.past before).behind ((ofText t).locate offset) := by
  have hbefore : Position.origin.past before = _ := past_eq 1 0 0 before
  have hfirst : (0 :: startsAfter 0 t).takeWhile
        (fun start : Nat => decide ((start : Int) ≤ offset))
      = 0 :: (startsAfter 0 t).takeWhile fun start : Nat => decide ((start : Int) ≤ offset) :=
    List.takeWhile_cons_of_pos (by simpa using h)
  rw [Nat.zero_add] at hbefore
  simp only [locate, ofText, takeWhile_starts_append before t h, hfirst, hbefore, Position.behind]
  rcases List.eq_nil_or_concat
    ((startsAfter 0 t).takeWhile fun start : Nat => decide ((start : Int) ≤ offset))
    with hnil | ⟨earlier, start, hlast⟩
  · -- the offset is on the line on which the text ends
    rw [hnil, List.map_nil, List.append_nil]
    simp only [List.getLastD_cons, List.getLastD_nil, List.length_cons, List.length_nil, if_pos,
      Position.mk.injEq]
    omega
  · have hshift : (0 :: startsAfter 0 before) ++ (earlier ++ [start]).map (before.length + ·)
        = ((0 :: startsAfter 0 before) ++ earlier.map (before.length + ·))
          ++ [before.length + start] := by
      simp
    rw [hlast, List.concat_eq_append, hshift, List.getLastD_concat, ← List.cons_append,
      List.getLastD_concat, if_neg (by simp)]
    simp only [List.length_append, List.length_cons, List.length_map, List.length_nil,
      Position.mk.injEq]
    omega

end LineIndex

/-! ### Tags -/

section

variable (f : Position → Position)

/-- The attribute with its place moved. -/
def Attribute.relocate (a : Attribute) : Attribute := { a with position := f a.position }

/-- The tag with its places moved. -/
def Tag.relocate (tag : Tag) : Tag :=
  { tag with position := f tag.position, attributes := tag.attributes.map (Attribute.relocate f) }

@[simp] theorem Attribute.name_relocate (a : Attribute) : (a.relocate f).name = a.name := rfl

@[simp] theorem Attribute.value_relocate (a : Attribute) : (a.relocate f).value = a.value := rfl

@[simp] theorem Attribute.position_relocate (a : Attribute) :
    (a.relocate f).position = f a.position := rfl

@[simp] theorem Tag.kind_relocate (tag : Tag) : (tag.relocate f).kind = tag.kind := rfl

@[simp] theorem Tag.name_relocate (tag : Tag) : (tag.relocate f).name = tag.name := rfl

@[simp] theorem Tag.position_relocate (tag : Tag) :
    (tag.relocate f).position = f tag.position := rfl

@[simp] theorem Tag.attributes_relocate (tag : Tag) :
    (tag.relocate f).attributes = tag.attributes.map (Attribute.relocate f) := rfl

end

namespace Construct

/-- What begins an end tag is its slash. -/
theorem eq_of_ofText_endTag {r body : Text} (h : ofText r = (.endTag, body)) :
    r = CodePoint.ofChar '/' :: body := by
  unfold ofText at h
  cases hcomment : Text.after? (Text.ofString "!--") r with
  | some body => simp [hcomment] at h
  | none =>
    cases hcdata : Text.after? (Text.ofString "![CDATA[") r with
    | some body => simp [hcomment, hcdata] at h
    | none =>
      cases r with
      | nil => simp [hcomment, hcdata] at h
      | cons c r =>
        simp only [hcomment, hcdata] at h
        split at h
        · exact nomatch h
        · split at h
          · exact nomatch h
          · split at h
            · next hslash => rw [hslash, (Prod.mk.inj h).2]
            · split at h <;> exact nomatch h

end Construct

namespace TagSpan

section

variable (before text : Text)

/-- The attributes of a tag behind a text. -/
theorem attributes_append (offset : Nat) (attrText : Text) :
    Attribute.ofText (LineIndex.ofText (before ++ text)) ((before.length + offset : Nat) : Int)
        attrText
      = (Attribute.ofText (LineIndex.ofText text) offset attrText).map
          (Attribute.relocate (Position.origin.past before).behind) := by
  rw [Attribute.ofText, Attribute.ofText, List.map_map]
  refine List.map_congr_left fun span _ => ?_
  have hplace := LineIndex.locate_append_right before text
    (show 0 ≤ (offset : Int) + span.start by omega)
  rw [← Int.add_assoc, ← Int.natCast_add] at hplace
  rw [Function.comp_apply, AttributeSpan.locate, AttributeSpan.locate, Attribute.relocate, hplace]

/-- A tag whose offsets are counted on from the end of a text is the same tag, moved. -/
theorem locate_append (kind : TagKind) (name attrText : Text) (start stop stop' attrStart : Nat) :
    locate (LineIndex.ofText (before ++ text))
        ⟨kind, name, before.length + start, stop, attrText, before.length + attrStart⟩
      = (locate (LineIndex.ofText text) ⟨kind, name, start, stop', attrText, attrStart⟩).relocate
        (Position.origin.past before).behind := by
  have hplace := LineIndex.locate_append_right before text (Int.natCast_nonneg start)
  rw [← Int.natCast_add] at hplace
  rw [locate, attributes, attributes_append, hplace]
  rfl

/-- The end tag behind a text is the end tag, moved. -/
theorem endTag_append {body : Text} (h : body.length + 2 ≤ text.length) :
    (endTag (before ++ text).length body).2 = (endTag text.length body).2 ∧
      (endTag (before ++ text).length body).1.map (locate (LineIndex.ofText (before ++ text)))
        = ((endTag text.length body).1.map (locate (LineIndex.ofText text))).map
          (Tag.relocate (Position.origin.past before).behind) := by
  refine ⟨rfl, ?_⟩
  have hstart : (before ++ text).length - body.length - 2
      = before.length + (text.length - body.length - 2) := by
    rw [List.length_append]
    omega
  simp only [endTag]
  split
  · rfl
  · simp only [Option.map_some, locate, attributes, Attribute.ofText_nil, hstart, Int.natCast_add,
      LineIndex.locate_append_right before text (Int.natCast_nonneg _), Tag.relocate, List.map_nil]

/-- The start tag behind a text is the start tag, moved. -/
theorem startTag_append {body : Text} (h : body.length + 1 ≤ text.length) :
    (startTag (before ++ text).length body).2 = (startTag text.length body).2 ∧
      (startTag (before ++ text).length body).1.locate (LineIndex.ofText (before ++ text))
        = ((startTag text.length body).1.locate (LineIndex.ofText text)).relocate
          (Position.origin.past before).behind := by
  refine ⟨rfl, ?_⟩
  have hstart : (before ++ text).length - body.length - 1
      = before.length + (text.length - body.length - 1) := by
    rw [List.length_append]
    omega
  have hattributes : ∀ n, (before ++ text).length - body.length + n
      = before.length + (text.length - body.length + n) := by
    intro n
    rw [List.length_append]
    omega
  rw [startTag, startTag, hstart, hattributes]
  exact locate_append before text ..

/-- One step of the scan behind a text: it goes on with the same text, and the tag that it finds is
the same tag, moved. -/
theorem step_append {r : Text} (hr : r.length < text.length) :
    (step (before ++ text).length r).2 = (step text.length r).2 ∧
      (step (before ++ text).length r).1.map (locate (LineIndex.ofText (before ++ text)))
        = ((step text.length r).1.map (locate (LineIndex.ofText text))).map
          (Tag.relocate (Position.origin.past before).behind) := by
  have hlength := Construct.length_ofText_le r
  unfold step
  cases hconstruct : Construct.ofText r with
  | mk construct body =>
    rw [hconstruct] at hlength
    cases construct with
    | endTag =>
      rw [Construct.eq_of_ofText_endTag hconstruct, List.length_cons] at hr
      exact endTag_append before text (by omega)
    | startTag =>
      obtain ⟨hrest, htag⟩ := startTag_append before text
        (Nat.lt_of_le_of_lt hlength hr)
      exact ⟨hrest, congrArg some htag⟩
    | _ => exact ⟨rfl, rfl⟩

/-- The scan behind a text finds the same tags, moved. -/
theorem map_locate_scanFrom_append (r : Text) (hr : r.length ≤ text.length) :
    (scanFrom (before ++ text).length r).map (locate (LineIndex.ofText (before ++ text)))
      = ((scanFrom text.length r).map (locate (LineIndex.ofText text))).map
        (Tag.relocate (Position.origin.past before).behind) := by
  -- by the recursion of the scan, which goes on after a construct where the step says
  induction r using scanFrom.induct text.length with
  | case1 => rw [scanFrom, scanFrom]; rfl
  | case2 r ih =>
    obtain ⟨hrest, htag⟩ := step_append before text (r := r) hr
    have hle := length_step_le text.length r
    rw [List.length_cons] at hr
    rw [scanFrom_construct, scanFrom_construct, hrest]
    rw [List.map_append, List.map_append, List.map_append, ih (by omega)]
    simp only [← Option.toList_map, htag]
  | case3 c r hc ih =>
    rw [List.length_cons] at hr
    rw [scanFrom, scanFrom, if_neg hc, if_neg hc, ih (by omega)]

end

end TagSpan

namespace Tag

/-- **The tags behind a text that the scan passes over** are those of the document by itself, each
where it has moved to. -/
theorem ofText_append {before : Text}
    (h : ∀ total rest, TagSpan.scanFrom total (before ++ rest) = TagSpan.scanFrom total rest)
    (text : Text) :
    ofText (before ++ text)
      = (ofText text).map (relocate (Position.origin.past before).behind) := by
  rw [ofText, TagSpan.scan, h, TagSpan.map_locate_scanFrom_append before text text (Nat.le_refl _)]
  rfl

end Tag

end MarkupGrammar
