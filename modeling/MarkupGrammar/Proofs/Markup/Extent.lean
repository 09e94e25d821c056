import MarkupGrammar.Proofs.Markup.Relocation

/-!
# Where tags lie

The scanner reckons from the end of a text: what is left of it says how far the scan has come. This
module says where in the text its results lie. Whatever the text looks like, each tag begins at a
`<` that its name follows, and no later than it ends; the next tag begins where the last has ended
or after it; its attribute text stands behind its name and before its end, and each attribute's name
stands in it at the attribute's offset.

All of it rests on one fact about each operation of the scanner: what it leaves is the end of what
it was given.

## Main results

* `TagSpan.step_suffix` — what a step leaves is an end of what it was given
* `TagSpan.liesIn_of_mem_scan`, `AttributeSpan.liesIn_of_mem_scan` — where tags and attributes lie
* `TagSpan.pairwise_scan` — tags do not overlap
* `AttributeSpan.pairwise_scan` — attributes begin one after the other
* `Tag.pairwise_ofText` — the tags of a text stand in reading order
-/

namespace MarkupGrammar

/-! ### What is left -/

namespace Text

theorem suffix_of_after? {lead t rest : Text} (h : after? lead t = some rest) : rest <:+ t := by
  rw [after?_eq_some_iff.mp h]
  exact List.suffix_append lead rest

theorem suffix_of_cutAt? {mark t before rest : Text} (h : cutAt? mark t = some (before, rest)) :
    rest <:+ t := by
  induction t generalizing before rest with
  | nil =>
    rw [cutAt?] at h
    split at h
    · obtain ⟨-, rfl⟩ := Prod.mk.inj (Option.some.inj h)
      exact List.suffix_refl []
    · cases h
  | cons c r ih =>
    rw [cutAt?] at h
    split at h
    · next hmark =>
      obtain ⟨-, rfl⟩ := Prod.mk.inj (Option.some.inj h)
      exact suffix_of_after? hmark
    · obtain ⟨⟨b, q⟩, hcut, heq⟩ := Option.map_eq_some_iff.mp h
      obtain ⟨-, rfl⟩ := Prod.mk.inj heq
      exact (ih hcut).trans (List.suffix_cons c r)

theorem skipPast_suffix (mark t : Text) : skipPast mark t <:+ t := by
  unfold skipPast
  split
  · next hcut => exact suffix_of_cutAt? hcut
  · exact List.nil_suffix

end Text

theorem Construct.ofText_suffix (r : Text) : (Construct.ofText r).2 <:+ r := by
  unfold Construct.ofText
  split
  · next hcomment => exact Text.suffix_of_after? hcomment
  · split
    · next hcdata => exact Text.suffix_of_after? hcdata
    · split
      · exact List.suffix_refl []
      · next c body _ _ =>
        split
        · exact List.suffix_cons c body
        · split
          · exact List.suffix_cons c body
          · split
            · exact List.suffix_cons c body
            · split <;> exact List.suffix_refl _

namespace TagSpan

theorem skipDeclaration_suffix (depth : Int) (quote : Option CodePoint) (t : Text) :
    skipDeclaration depth quote t <:+ t := by
  fun_induction skipDeclaration depth quote t with
  | case1 => exact List.nil_suffix
  | case6 => exact List.suffix_cons _ _
  | _ => next ih => exact ih.trans (List.suffix_cons _ _)

/-- A tag up to its end, and what follows: together they are the text, with the `>` between them if
there is one. -/
theorem cutTag_eq (quote : Option CodePoint) (t : Text) :
    t = (cutTag quote t).1 ++ (cutTag quote t).2.elim [] (CodePoint.ofChar '>' :: ·) := by
  induction t generalizing quote with
  | nil => cases quote <;> rfl
  | cons c r ih =>
    cases quote with
    | some q =>
      rw [cutTag]
      exact congrArg (c :: ·) (ih _)
    | none =>
      rw [cutTag]
      split
      · next hc =>
        rw [hc]
        rfl
      · exact congrArg (c :: ·) (ih _)

theorem cutTag_suffix (quote : Option CodePoint) (t : Text) :
    (cutTag quote t).2.getD [] <:+ t := by
  have heq := cutTag_eq quote t
  cases hafter : (cutTag quote t).2 with
  | none => exact List.nil_suffix
  | some rest =>
    rw [hafter] at heq
    exact ⟨(cutTag quote t).1 ++ [CodePoint.ofChar '>'], by simpa using heq.symm⟩

theorem dropWhile_cutTag_suffix (body : Text) :
    (cutTag none (body.dropWhile CodePoint.continuesTagName)).2.getD [] <:+ body :=
  (cutTag_suffix none _).trans (List.dropWhile_suffix _)

/-- **What a step leaves is an end of what it was given.** -/
theorem step_suffix (total : Nat) (r : Text) : (step total r).2 <:+ r := by
  have hbody := Construct.ofText_suffix r
  unfold step
  split <;> rename_i body hconstruct <;> rw [hconstruct] at hbody <;> refine List.IsSuffix.trans ?_ hbody
  · exact Text.skipPast_suffix _ _
  · exact Text.skipPast_suffix _ _
  · exact Text.skipPast_suffix _ _
  · exact skipDeclaration_suffix 0 none body
  · exact dropWhile_cutTag_suffix body
  · exact dropWhile_cutTag_suffix body
  · exact List.suffix_refl body

/-! ### Tags -/

/-- What a tag begins with. -/
def opener : TagKind → Text
  | .closing => Text.ofString "</"
  | .opening => Text.ofString "<"
  | .selfClosing => Text.ofString "<"

/-- Where a tag lies in a text. -/
structure LiesIn (text : Text) (span : TagSpan) : Prop where
  name_ne_nil : span.name ≠ []
  /-- At its offset stand its opener and its name. -/
  begins : opener span.kind ++ span.name <+: text.drop span.start
  /-- It ends behind its name, and in the text. -/
  name_lt_stop : span.start + span.name.length < span.stop
  stop_le : span.stop ≤ text.length
  /-- If it has an attribute text, this follows its name and ends before it does. -/
  attributes : span.attrText = [] ∨ span.attrStart = span.start + 1 + span.name.length ∧
    span.attrText <+: text.drop span.attrStart ∧
    span.attrStart + span.attrText.length ≤ span.stop

end TagSpan

theorem Text.trimEnd_prefix (t : Text) : trimEnd t <+: t := by
  have hreverse : t.reverse.dropWhile CodePoint.isBlank <:+ t.reverse := List.dropWhile_suffix _
  have hprefix := List.reverse_prefix.mpr hreverse
  rwa [List.reverse_reverse] at hprefix

theorem CodePoint.continuesTagName_of_beginsName {c : CodePoint} (h : c.beginsName = true) :
    c.continuesTagName = true := by
  simp [beginsName, isAsciiLetter, isAsciiUpper, isAsciiLower] at h
  simp [continuesTagName, isMarkupSpace]
  omega

/-- What begins a start tag is a code point that begins names. -/
theorem Construct.exists_of_ofText_startTag {r body : Text} (h : ofText r = (.startTag, body)) :
    body = r ∧ ∃ c t, r = c :: t ∧ c.beginsName = true := by
  unfold ofText at h
  cases hcomment : Text.after? (Text.ofString "!--") r with
  | some body => simp [hcomment] at h
  | none =>
    cases hcdata : Text.after? (Text.ofString "![CDATA[") r with
    | some body => simp [hcomment, hcdata] at h
    | none =>
      cases r with
      | nil => simp [hcomment, hcdata] at h
      | cons c t =>
        simp only [hcomment, hcdata] at h
        split at h
        · exact nomatch h
        · split at h
          · exact nomatch h
          · split at h
            · exact nomatch h
            · split at h
              · next hbegins => exact ⟨(Prod.mk.inj h).2.symm, c, t, rfl, hbegins⟩
              · exact nomatch h

namespace TagSpan

theorem splitSlash_prefix (body : Text) : (splitSlash body).1 <+: body := by
  unfold splitSlash
  dsimp only
  split
  · exact (List.dropLast_prefix _).trans (Text.trimEnd_prefix body)
  · exact List.prefix_refl body

/-- A tag behind its opener: its name, what stands before its end, and what is left with its end. -/
theorem exists_cut (body : Text) : ∃ tail,
    body = body.takeWhile CodePoint.continuesTagName
        ++ ((cutTag none (body.dropWhile CodePoint.continuesTagName)).1 ++ tail) ∧
      ((cutTag none (body.dropWhile CodePoint.continuesTagName)).2.getD []).length ≤ tail.length := by
  refine ⟨(cutTag none (body.dropWhile CodePoint.continuesTagName)).2.elim []
    (CodePoint.ofChar '>' :: ·), ?_, ?_⟩
  · rw [← cutTag_eq, List.takeWhile_append_dropWhile]
  · cases (cutTag none (body.dropWhile CodePoint.continuesTagName)).2 with
    | none => exact Nat.le_refl _
    | some rest => exact Nat.le_succ _

/-- The start tag that is read behind a `<`. -/
theorem startTag_liesIn {before body text : Text} {c : CodePoint} {t : Text}
    (htext : text = before ++ CodePoint.ofChar '<' :: body) (hbody : body = c :: t)
    (hc : c.beginsName = true) : (startTag text.length body).1.LiesIn text := by
  obtain ⟨tail, hcut, htail⟩ := exists_cut body
  have hname : body.takeWhile CodePoint.continuesTagName ≠ [] := by
    rw [hbody, List.takeWhile_cons_of_pos (CodePoint.continuesTagName_of_beginsName hc)]
    exact List.cons_ne_nil _ _
  unfold startTag
  generalize body.takeWhile CodePoint.continuesTagName = name at *
  generalize cutTag none (body.dropWhile CodePoint.continuesTagName) = cut at *
  obtain ⟨inside, rest⟩ := cut
  have hattrs := splitSlash_prefix inside
  have hattrsLength := hattrs.length_le
  have hlength : text.length = before.length + (body.length + 1) := by
    rw [htext, List.length_append, List.length_cons]
  have hparts : body.length = name.length + (inside.length + tail.length) := by
    rw [hcut, List.length_append, List.length_append]
  have hstart : text.length - body.length - 1 = before.length := by omega
  have hattrStart : text.length - body.length + name.length
      = (before ++ CodePoint.ofChar '<' :: name).length := by
    rw [List.length_append, List.length_cons]
    omega
  refine ⟨hname, ?_, ?_, Nat.sub_le _ _, Or.inr ⟨?_, ?_, ?_⟩⟩
  · have hopener : ∀ slash : Bool,
        opener (if slash then .selfClosing else .opening) = [CodePoint.ofChar '<'] := by
      intro slash
      cases slash <;> rfl
    simp only [hopener, hstart]
    rw [htext, List.drop_left, hcut]
    exact List.prefix_append (CodePoint.ofChar '<' :: name) (inside ++ tail)
  · simp only at htail ⊢
    omega
  · simp only
    omega
  · simp only [hattrStart]
    rw [htext, hcut, ← List.cons_append, ← List.append_assoc, List.drop_left]
    exact hattrs.trans (List.prefix_append _ _)
  · simp only at htail ⊢
    omega

/-- The end tag that is read behind `</`, if it has a name. -/
theorem endTag_liesIn {before body text : Text} {span : TagSpan}
    (htext : text = before ++ Text.ofString "</" ++ body)
    (hspan : (endTag text.length body).1 = some span) : span.LiesIn text := by
  obtain ⟨tail, hcut, htail⟩ := exists_cut body
  unfold endTag at hspan
  generalize body.takeWhile CodePoint.continuesTagName = name at *
  generalize cutTag none (body.dropWhile CodePoint.continuesTagName) = cut at *
  obtain ⟨inside, rest⟩ := cut
  have hlength : text.length = before.length + (body.length + 2) := by
    rw [htext, List.length_append, List.length_append, Nat.add_right_comm, Nat.add_assoc]
    rfl
  have hparts : body.length = name.length + (inside.length + tail.length) := by
    rw [hcut, List.length_append, List.length_append]
  have hstart : text.length - body.length - 2 = before.length := by omega
  simp only at hspan htail
  split at hspan
  · exact nomatch hspan
  · next hne =>
    obtain rfl := Option.some.inj hspan
    refine ⟨fun hnil => hne (List.isEmpty_iff.mpr hnil), ?_, ?_, Nat.sub_le _ _, Or.inl rfl⟩
    · simp only [opener, hstart]
      rw [htext, List.append_assoc, List.drop_left, hcut, ← List.append_assoc]
      exact List.prefix_append _ _
    · simp only
      omega

/-- A tag that is read behind a `<` lies in the text, begins at the `<`, and ends where the scan
goes on. -/
theorem step_liesIn {before r text : Text} {span : TagSpan}
    (htext : text = before ++ CodePoint.ofChar '<' :: r)
    (hspan : (step text.length r).1 = some span) :
    span.LiesIn text ∧ span.start = before.length ∧
      span.stop = text.length - (step text.length r).2.length := by
  have hlength : text.length = before.length + (r.length + 1) := by
    rw [htext, List.length_append, List.length_cons]
  unfold step at hspan ⊢
  split at hspan
  · exact nomatch hspan
  · exact nomatch hspan
  · exact nomatch hspan
  · exact nomatch hspan
  · next body hconstruct =>
    have hslash := Construct.eq_of_ofText_endTag hconstruct
    have hlies : span.LiesIn text := by
      have hopener : text = before ++ Text.ofString "</" ++ body := by
        rw [htext, hslash, List.append_assoc]
        rfl
      exact endTag_liesIn hopener hspan
    have hbody : r.length = body.length + 1 := by rw [hslash, List.length_cons]
    refine ⟨hlies, ?_⟩
    unfold endTag at hspan ⊢
    simp only at hspan ⊢
    split at hspan
    · exact nomatch hspan
    · obtain rfl := Option.some.inj hspan
      simp only [and_true]
      omega
  · next body hconstruct =>
    obtain ⟨rfl, c, t, hbody, hc⟩ := Construct.exists_of_ofText_startTag hconstruct
    obtain rfl := Option.some.inj hspan
    refine ⟨startTag_liesIn htext hbody hc, ?_, rfl⟩
    show text.length - body.length - 1 = before.length
    omega
  · exact nomatch hspan

/-- The tags in what is left of a text lie in the text: not before what is left, and none before the
end of the one before it. -/
theorem scanFrom_liesIn {before r text : Text} (htext : text = before ++ r) :
    (∀ span ∈ scanFrom text.length r, span.LiesIn text ∧ before.length ≤ span.start) ∧
      (scanFrom text.length r).Pairwise fun a b => a.stop ≤ b.start := by
  -- by the recursion of the scan, which goes on after a construct where the step says
  induction r using scanFrom.induct text.length generalizing before with
  | case1 =>
    rw [scanFrom]
    exact ⟨List.forall_mem_nil _, .nil⟩
  | case2 r ih =>
    obtain ⟨passed, hpassed⟩ := step_suffix text.length r
    have hrest : text = (before ++ CodePoint.ofChar '<' :: passed) ++ (step text.length r).2 := by
      rw [List.append_assoc, List.cons_append, hpassed]
      exact htext
    obtain ⟨hlies, hpairwise⟩ := ih hrest
    have hlength := congrArg List.length hrest
    rw [List.length_append, List.length_append, List.length_cons] at hlength
    have hbehind : ∀ span ∈ scanFrom text.length (step text.length r).2,
        before.length + (passed.length + 1) ≤ span.start := by
      intro span hspan
      have hle := (hlies span hspan).2
      rwa [List.length_append, List.length_cons] at hle
    rw [scanFrom_construct]
    cases hfound : (step text.length r).1 with
    | none =>
      refine ⟨fun span hspan => ⟨(hlies span hspan).1, ?_⟩, hpairwise⟩
      have hle := hbehind span hspan
      omega
    | some found =>
      obtain ⟨hfoundLies, hstart, hstop⟩ := step_liesIn htext hfound
      refine ⟨fun span hspan => ?_, List.pairwise_cons.mpr ⟨fun span hspan => ?_, hpairwise⟩⟩
      · rcases List.mem_cons.mp hspan with rfl | hspan
        · exact ⟨hfoundLies, Nat.le_of_eq hstart.symm⟩
        · have hle := hbehind span hspan
          exact ⟨(hlies span hspan).1, by omega⟩
      · have hle := hbehind span hspan
        omega
  | case3 c r hc ih =>
    have hrest : text = (before ++ [c]) ++ r := by rw [htext, List.append_assoc]; rfl
    obtain ⟨hlies, hpairwise⟩ := ih hrest
    rw [scanFrom, if_neg hc]
    refine ⟨fun span hspan => ⟨(hlies span hspan).1, ?_⟩, hpairwise⟩
    have hle := (hlies span hspan).2
    rw [List.length_append] at hle
    omega

/-- **Where the tags of a text lie.** -/
theorem liesIn_of_mem_scan {text : Text} {span : TagSpan} (h : span ∈ scan text) :
    span.LiesIn text :=
  ((scanFrom_liesIn (List.nil_append text).symm).1 span h).1

/-- **Tags do not overlap.** -/
theorem pairwise_scan (text : Text) : (scan text).Pairwise fun a b => a.stop ≤ b.start :=
  (scanFrom_liesIn (List.nil_append text).symm).2

/-- A tag that is found in what is left of a text is read behind a `<` of the text. -/
theorem exists_step_of_mem_scanFrom {before r text : Text} (htext : text = before ++ r)
    {span : TagSpan} (h : span ∈ scanFrom text.length r) :
    ∃ passed rest, text = passed ++ CodePoint.ofChar '<' :: rest ∧ passed.length = span.start ∧
      (step text.length rest).1 = some span := by
  induction r using scanFrom.induct text.length generalizing before with
  | case1 =>
    rw [scanFrom] at h
    exact absurd h List.not_mem_nil
  | case2 r ih =>
    rw [scanFrom_construct] at h
    rcases List.mem_append.mp h with h | h
    · have hstep := Option.mem_toList.mp h
      exact ⟨before, r, htext, (step_liesIn htext hstep).2.1.symm, hstep⟩
    · obtain ⟨passed, hpassed⟩ := step_suffix text.length r
      have hrest : text = (before ++ CodePoint.ofChar '<' :: passed) ++ (step text.length r).2 := by
        rw [List.append_assoc, List.cons_append, hpassed]
        exact htext
      exact ih hrest h
  | case3 c r hc ih =>
    rw [scanFrom, if_neg hc] at h
    have hrest : text = (before ++ [c]) ++ r := by rw [htext, List.append_assoc]; rfl
    exact ih hrest h

/-- **Each tag is read behind a `<`.** -/
theorem exists_step_of_mem_scan {text : Text} {span : TagSpan} (h : span ∈ scan text) :
    ∃ passed rest, text = passed ++ CodePoint.ofChar '<' :: rest ∧ passed.length = span.start ∧
      (step text.length rest).1 = some span :=
  exists_step_of_mem_scanFrom (List.nil_append text).symm h

end TagSpan

/-! ### Attributes -/

namespace AttributeSpan

theorem valueAfterEquals_suffix (t : Text) : (valueAfterEquals t).2 <:+ t := by
  have hgap : t.dropWhile CodePoint.isMarkupSpace <:+ t := List.dropWhile_suffix _
  unfold valueAfterEquals
  split
  · exact List.nil_suffix
  · next q r hr =>
    rw [hr] at hgap
    refine List.IsSuffix.trans ?_ hgap
    split
    · exact ((List.drop_suffix 1 _).trans (List.dropWhile_suffix _)).trans (List.suffix_cons q r)
    · exact List.dropWhile_suffix _

theorem valueAfterName_suffix (t : Text) : (valueAfterName t).2 <:+ t := by
  have hgap : t.dropWhile CodePoint.isMarkupSpace <:+ t := List.dropWhile_suffix _
  unfold valueAfterName
  split
  · exact List.nil_suffix
  · next c r hr =>
    rw [hr] at hgap
    refine List.IsSuffix.trans ?_ hgap
    split
    · exact (valueAfterEquals_suffix r).trans (List.suffix_cons c r)
    · exact List.suffix_refl _

/-- Where an attribute lies in an attribute text: its name stands at its offset. -/
structure LiesIn (text : Text) (span : AttributeSpan) : Prop where
  name_ne_nil : span.name ≠ []
  begins : span.name <+: text.drop span.start
  name_le : span.start + span.name.length ≤ text.length

/-- The attributes in what is left of an attribute text lie in the text. -/
theorem scanFrom_liesIn {text r : Text} (hr : r <:+ text) :
    ∀ span ∈ scanFrom text.length r, span.LiesIn text := by
  induction r using scanFrom.induct with
  | case1 =>
    rw [scanFrom]
    exact List.forall_mem_nil _
  | case2 c r hgap ih =>
    rw [scanFrom, if_pos hgap]
    exact ih ((List.suffix_cons c r).trans hr)
  | case3 r hgap ih =>
    rw [scanFrom, if_neg hgap, if_pos rfl]
    refine ih (((List.drop_suffix 1 _).trans (valueAfterEquals_suffix r)).trans ?_)
    exact (List.suffix_cons _ r).trans hr
  | case4 c r hgap hequals ih =>
    rw [scanFrom, if_neg hgap, if_neg hequals]
    intro span hspan
    rcases List.mem_cons.mp hspan with rfl | hspan
    · obtain ⟨before, rfl⟩ := hr
      have hname : c :: r.takeWhile CodePoint.continuesAttributeName <+: c :: r :=
        List.prefix_cons_inj c |>.mpr (List.takeWhile_prefix _)
      have hlength := hname.length_le
      have hstart : (before ++ c :: r).length - (c :: r).length = before.length := by
        rw [List.length_append]
        omega
      refine ⟨List.cons_ne_nil _ _, ?_, ?_⟩
      · simp only [hstart]
        rw [List.drop_left]
        exact hname
      · simp only [hstart]
        rw [List.length_append]
        omega
    · refine ih (((valueAfterName_suffix _).trans (List.dropWhile_suffix _)).trans ?_) span hspan
      exact (List.suffix_cons c r).trans hr

/-- **Where the attributes of an attribute text lie.** -/
theorem liesIn_of_mem_scan {text : Text} {span : AttributeSpan} (h : span ∈ scan text) :
    span.LiesIn text :=
  scanFrom_liesIn (List.suffix_refl text) span h

/-- The attributes in what is left of an attribute text begin in it, one after the other. -/
theorem scanFrom_pairwise {text r : Text} (hr : r <:+ text) :
    (∀ span ∈ scanFrom text.length r, text.length - r.length ≤ span.start) ∧
      (scanFrom text.length r).Pairwise fun a b => a.start < b.start := by
  induction r using scanFrom.induct with
  | case1 =>
    rw [scanFrom]
    exact ⟨List.forall_mem_nil _, .nil⟩
  | case2 c r hgap ih =>
    obtain ⟨hbehind, hpairwise⟩ := ih ((List.suffix_cons c r).trans hr)
    rw [scanFrom, if_pos hgap]
    refine ⟨fun span hspan => ?_, hpairwise⟩
    have hle := hbehind span hspan
    rw [List.length_cons]
    omega
  | case3 r hgap ih =>
    have hrest : (valueAfterEquals r).2.drop 1 <:+ CodePoint.ofChar '=' :: r :=
      ((List.drop_suffix 1 _).trans (valueAfterEquals_suffix r)).trans (List.suffix_cons _ r)
    obtain ⟨hbehind, hpairwise⟩ := ih (hrest.trans hr)
    rw [scanFrom, if_neg hgap, if_pos rfl]
    refine ⟨fun span hspan => ?_, hpairwise⟩
    have hle := hbehind span hspan
    have hlength := hrest.length_le
    omega
  | case4 c r hgap hequals ih =>
    have hrest : (valueAfterName (r.dropWhile CodePoint.continuesAttributeName)).2 <:+ r :=
      (valueAfterName_suffix _).trans (List.dropWhile_suffix _)
    obtain ⟨hbehind, hpairwise⟩ := ih ((hrest.trans (List.suffix_cons c r)).trans hr)
    have hlength := hrest.length_le
    have hwhole := hr.length_le
    rw [List.length_cons] at hwhole
    rw [scanFrom, if_neg hgap, if_neg hequals, List.pairwise_cons, List.forall_mem_cons,
      List.length_cons]
    refine ⟨⟨Nat.le_refl _, fun span hspan => ?_⟩, fun span hspan => ?_, hpairwise⟩
    · have hle := hbehind span hspan
      omega
    · have hle := hbehind span hspan
      show text.length - (r.length + 1) < span.start
      omega

/-- **Attributes begin one after the other.** -/
theorem pairwise_scan (text : Text) : (scan text).Pairwise fun a b => a.start < b.start :=
  (scanFrom_pairwise (List.suffix_refl text)).2

end AttributeSpan

/-! ### Reading order -/

namespace Position

variable {p q r : Position}

theorem before_iff : p.before q = true ↔ p.line < q.line ∨ p.line = q.line ∧ p.column < q.column := by
  simp [before]

theorem before_trans (hp : p.before q = true) (hq : q.before r = true) : p.before r = true := by
  rw [before_iff] at *
  omega

theorem before_next (p : Position) (c : CodePoint) : p.before (p.next c) = true := by
  rw [before_iff, next]
  split
  · exact Or.inl (Nat.lt_succ_self p.line)
  · exact Or.inr ⟨rfl, Int.lt_succ p.column⟩

/-- A place is before any that the count comes to. -/
theorem before_past (p : Position) {t : Text} (h : t ≠ []) : p.before (p.past t) = true := by
  induction t generalizing p with
  | nil => exact absurd rfl h
  | cons c t ih =>
    rw [past_cons]
    cases t with
    | nil => exact before_next p c
    | cons d t => exact before_trans (before_next p c) (ih (p.next c) (List.cons_ne_nil d t))

end Position

/-- **Offsets in order are places in order.** -/
theorem LineIndex.before_locate {text : Text} {i j : Nat} (hij : i < j) (hj : j ≤ text.length) :
    ((ofText text).locate i).before ((ofText text).locate j) = true := by
  have hplace : ∀ k ≤ text.length,
      (ofText text).locate k = Position.origin.past (text.take k) := fun k hk =>
    locate_ofText (List.take_prefix k text) (by rw [List.length_take_of_le hk])
  have hsplit : text.take j = text.take i ++ (text.drop i).take (j - i) := by
    rw [← List.take_add, Nat.add_sub_cancel' (Nat.le_of_lt hij)]
  have hne : (text.drop i).take (j - i) ≠ [] := by
    intro hnil
    have hlength := congrArg List.length hnil
    rw [List.length_take, List.length_drop, List.length_nil] at hlength
    omega
  rw [hplace i (by omega), hplace j hj, hsplit, Position.past_append]
  exact Position.before_past _ hne

/-- **A place is that of one offset.** -/
theorem LineIndex.eq_of_locate_eq {text : Text} {i j : Nat} (hi : i ≤ text.length)
    (hj : j ≤ text.length) (h : (ofText text).locate i = (ofText text).locate j) : i = j := by
  rcases Nat.lt_trichotomy i j with hlt | heq | hlt
  · have hbefore := before_locate hlt hj
    rw [h, Position.before_iff] at hbefore
    omega
  · exact heq
  · have hbefore := before_locate hlt hi
    rw [h, Position.before_iff] at hbefore
    omega

/-- **The tags of a text stand in reading order,** each before all that follow. -/
theorem Tag.pairwise_ofText (text : Text) :
    (ofText text).Pairwise fun a b => a.position.before b.position = true := by
  refine List.pairwise_map.mpr ((TagSpan.pairwise_scan text).imp_of_mem ?_)
  intro a b ha hb hab
  have hstart := (TagSpan.liesIn_of_mem_scan ha).name_lt_stop
  have hstop := (TagSpan.liesIn_of_mem_scan hb).name_lt_stop
  have hle := (TagSpan.liesIn_of_mem_scan hb).stop_le
  exact LineIndex.before_locate (by omega) (by omega)

end MarkupGrammar
