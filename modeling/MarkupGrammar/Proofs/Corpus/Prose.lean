import MarkupGrammar.Corpus.Description
import MarkupGrammar.Proofs.Json.Object
import MarkupGrammar.Proofs.Reading
import MarkupGrammar.Proofs.Text.Words

/-!
# Descriptions in normal form

An entry of a corpus may have a short description, which is collapsed, and a description in markup,
of which the tags go and the first line of what is left is collapsed. Whatever the texts say, the
description that the entry gets is not empty and has single spaces only.

## Tags in prose

A tag is a `<`, anything but a `>`, and a `>`. Tags overlap where a `<` stands in one, and taking
one out could leave another. `Text.LiesInTag` says of an offset whether it is in any tag at all, and
the code points that are left when tags go are those at the other offsets. No tag is among them:
what is left has no `<` with a `>` behind it, and trimming, cutting at a line break and collapsing
take away code points and add spaces, which makes none.

## Nothing is lost

Every line break is blank. So what is left begins, once it is trimmed, with a line that is not
blank, and there is no description only where all that is left is blank.

## Main results

* `Text.strips_stripTags` — how tags go, one after the other
* `Text.Strips.mem_iff`, `Text.Strips.not_sublist` — what is left when they have gone
* `Text.firstProse_eq_none_iff` — when there is no prose
* `Json.description_normal` — the descriptions of entries
-/

namespace MarkupGrammar

namespace Text

/-! ### Tags in prose -/

/-- A tag as it stands in prose: a `<`, anything but a `>`, and a `>`. -/
def IsTag (u : Text) : Prop :=
  ∃ inside, CodePoint.ofChar '>' ∉ inside ∧
    u = CodePoint.ofChar '<' :: (inside ++ [CodePoint.ofChar '>'])

/-- An offset lies in a tag of a text. -/
def LiesInTag (t : Text) (k : Nat) : Prop :=
  ∃ before tag after, t = before ++ (tag ++ after) ∧ IsTag tag ∧ before.length ≤ k ∧
    k < before.length + tag.length

/-- A text with its tags taken out from left to right. A code point stays where no tag begins. -/
inductive Strips : Text → Text → Prop
  | nil : Strips [] []
  | keep {c : CodePoint} {r s : Text}
      (hc : c = CodePoint.ofChar '<' → CodePoint.ofChar '>' ∉ r) (hr : Strips r s) :
      Strips (c :: r) (c :: s)
  | drop {tag rest s : Text} (htag : IsTag tag) (hrest : Strips rest s) : Strips (tag ++ rest) s

theorem IsTag.sublist {u : Text} (h : IsTag u) :
    [CodePoint.ofChar '<', CodePoint.ofChar '>'].Sublist u := by
  obtain ⟨inside, -, rfl⟩ := h
  exact (List.sublist_append_right inside [CodePoint.ofChar '>']).cons_cons _

/-- How tags go, one after the other. -/
theorem strips_stripTags (t : Text) : Strips t (stripTags t) := by
  induction t using stripTags.induct with
  | case1 =>
    rw [stripTags]
    exact .nil
  | case2 r hnone ih =>
    rw [stripTags, if_pos rfl]
    have hfree : CodePoint.ofChar '>' ∉ r := fun hmem => by
      simpa using List.dropWhile_eq_nil_iff.mp hnone _ hmem
    split
    · exact .keep (fun _ => hfree) ih
    · next hsome => exact absurd (hnone.symm.trans hsome) (List.cons_ne_nil _ _).symm
  | case3 r d rest hsome _ ih =>
    have hd : d = CodePoint.ofChar '>' := by
      have hhead := List.head?_dropWhile_not (· != CodePoint.ofChar '>') r
      rw [hsome] at hhead
      simpa using hhead
    have hsplit := List.takeWhile_append_dropWhile (p := (· != CodePoint.ofChar '>')) (l := r)
    rw [hsome, hd] at hsplit
    have htag : IsTag (CodePoint.ofChar '<' :: (r.takeWhile (· != CodePoint.ofChar '>')
        ++ [CodePoint.ofChar '>'])) :=
      ⟨_, fun hmem => by simpa using List.mem_takeWhile_imp hmem, rfl⟩
    have hstrips := Strips.drop htag ih
    rw [List.cons_append, List.append_assoc, List.singleton_append, hsplit] at hstrips
    rw [stripTags, if_pos rfl]
    split
    · next hnone => exact absurd (hnone.symm.trans hsome) (List.cons_ne_nil _ _).symm
    · next hsome' =>
      obtain ⟨-, rfl⟩ := List.cons.inj (hsome'.symm.trans hsome)
      exact hstrips
  | case4 c r hc ih =>
    rw [stripTags, if_neg hc]
    exact .keep (fun h => absurd h hc) ih

theorem Strips.sublist {t s : Text} (h : Strips t s) : s.Sublist t := by
  induction h with
  | nil => exact List.Sublist.refl []
  | keep _ _ ih => exact ih.cons_cons _
  | drop _ _ ih => exact ih.trans (List.sublist_append_right _ _)

/-- **What is left has no `<` with a `>` behind it.** -/
theorem Strips.not_sublist {t s : Text} (h : Strips t s) :
    ¬ [CodePoint.ofChar '<', CodePoint.ofChar '>'].Sublist s := by
  induction h with
  | nil => exact fun hsub => nomatch hsub
  | keep hc hr ih =>
    intro hsub
    cases hsub with
    | cons _ hsub => exact ih hsub
    | cons_cons _ hsub =>
      exact hc rfl (hr.sublist.subset (hsub.subset (List.mem_singleton.mpr rfl)))
  | drop _ _ ih => exact ih

/-! ### Offsets in tags -/

/-- No tag begins at a code point that stays. -/
theorem liesInTag_cons_iff {c : CodePoint} {r : Text}
    (hc : c = CodePoint.ofChar '<' → CodePoint.ofChar '>' ∉ r) (k : Nat) :
    LiesInTag (c :: r) k ↔ ∃ j, k = j + 1 ∧ LiesInTag r j := by
  constructor
  · rintro ⟨before, tag, after, heq, ⟨inside, hinside, rfl⟩, hle, hlt⟩
    cases before with
    | nil =>
      obtain ⟨rfl, rfl⟩ := List.cons.inj heq
      exact absurd (by simp) (hc rfl)
    | cons d before =>
      obtain ⟨rfl, rfl⟩ := List.cons.inj heq
      rw [List.length_cons] at hle hlt
      refine ⟨k - 1, by omega, before, _, after, rfl, ⟨inside, hinside, rfl⟩, by omega, by omega⟩
  · rintro ⟨j, rfl, before, tag, after, rfl, htag, hle, hlt⟩
    exact ⟨c :: before, tag, after, rfl, htag, by rw [List.length_cons]; omega,
      by rw [List.length_cons]; omega⟩

/-- Only the last code point of a tag is a `>`. -/
theorem IsTag.exists_eq_append {u : Text} (h : IsTag u) :
    ∃ stem, CodePoint.ofChar '>' ∉ stem ∧ u = stem ++ [CodePoint.ofChar '>'] := by
  obtain ⟨inside, hinside, rfl⟩ := h
  refine ⟨CodePoint.ofChar '<' :: inside, fun hmem => ?_, rfl⟩
  exact (List.mem_cons.mp hmem).elim (fun heq => absurd heq (by decide)) hinside

/-- A tag that begins in another ends with it. -/
theorem IsTag.append_eq {tag tag' before after rest : Text} (h : IsTag tag) (h' : IsTag tag')
    (heq : before ++ (tag' ++ after) = tag ++ rest) :
    tag.length ≤ before.length ∨ before.length + tag'.length = tag.length := by
  obtain ⟨stem, hstem, rfl⟩ := h.exists_eq_append
  obtain ⟨stem', hstem', rfl⟩ := h'.exists_eq_append
  rcases List.append_eq_append_iff.mp heq with ⟨cut, htag, hrest⟩ | ⟨cut, hbefore, -⟩
  · rcases List.eq_nil_or_concat cut with rfl | ⟨cut, c, rfl⟩
    · exact Or.inl (by rw [htag, List.append_nil])
    · -- the first `>` behind the beginning of the second is the end of both
      rw [List.concat_eq_append, ← List.append_assoc] at htag
      obtain ⟨rfl, hc⟩ := List.append_inj' htag rfl
      obtain rfl := List.singleton_inj.mp hc
      rw [List.concat_eq_append, List.append_assoc, List.append_assoc, List.singleton_append,
        List.singleton_append] at hrest
      have hcut : CodePoint.ofChar '>' ∉ cut := fun hmem => hstem (List.mem_append_right _ hmem)
      have hlength : stem'.length = cut.length := by
        simpa [List.idxOf_append, hstem', hcut]
          using congrArg (List.idxOf (CodePoint.ofChar '>')) hrest
      right
      simp only [List.length_append, hlength]
      omega
  · exact Or.inl (by simp [hbefore])

/-- A tag at the beginning of a text covers its own offsets. -/
theorem liesInTag_append_of_lt {tag : Text} (h : IsTag tag) (rest : Text) {k : Nat}
    (hk : k < tag.length) : LiesInTag (tag ++ rest) k :=
  ⟨[], tag, rest, rfl, h, Nat.zero_le k, by rwa [List.length_nil, Nat.zero_add]⟩

/-- Behind a tag lie in tags the offsets that lie in tags of the rest. -/
theorem liesInTag_append_iff {tag : Text} (h : IsTag tag) (rest : Text) (k : Nat) :
    LiesInTag (tag ++ rest) (tag.length + k) ↔ LiesInTag rest k := by
  constructor
  · rintro ⟨before, tag', after, heq, htag', hle, hlt⟩
    rcases h.append_eq htag' heq.symm with hpast | hend
    · obtain ⟨cut, rfl⟩ : tag <+: before :=
        List.prefix_of_prefix_length_le (List.prefix_append tag rest)
          (heq ▸ List.prefix_append before _) hpast
      rw [List.append_assoc] at heq
      rw [List.length_append] at hle hlt
      exact ⟨cut, tag', after, List.append_cancel_left heq, htag', by omega, by omega⟩
    · omega
  · rintro ⟨before, tag', after, rfl, htag', hle, hlt⟩
    refine ⟨tag ++ before, tag', after, (List.append_assoc _ _ _).symm, htag', ?_, ?_⟩ <;>
      rw [List.length_append] <;> omega

/-- **What is left stood outside all tags,** and all that did is left. -/
theorem Strips.mem_iff {t s : Text} (h : Strips t s) (x : CodePoint) :
    x ∈ s ↔ ∃ k, t[k]? = some x ∧ ¬ LiesInTag t k := by
  induction h with
  | nil => simp
  | @keep c r s hc hr ih =>
    rw [List.mem_cons, ih]
    constructor
    · rintro (rfl | ⟨k, hk, hout⟩)
      · refine ⟨0, rfl, fun hin => ?_⟩
        obtain ⟨j, hj, -⟩ := (liesInTag_cons_iff hc 0).mp hin
        exact nomatch hj
      · refine ⟨k + 1, hk, fun hin => ?_⟩
        obtain ⟨j, hj, hin⟩ := (liesInTag_cons_iff hc (k + 1)).mp hin
        obtain rfl := Nat.succ.inj hj
        exact hout hin
    · rintro ⟨k, hk, hout⟩
      cases k with
      | zero => exact Or.inl (Option.some.inj hk).symm
      | succ k =>
        exact Or.inr ⟨k, hk, fun hin => hout ((liesInTag_cons_iff hc _).mpr ⟨k, rfl, hin⟩)⟩
  | @drop tag rest s htag hrest ih =>
    rw [ih]
    constructor
    · rintro ⟨k, hk, hout⟩
      refine ⟨tag.length + k, ?_, mt (liesInTag_append_iff htag rest k).mp hout⟩
      rwa [List.getElem?_append_right (Nat.le_add_right _ _), Nat.add_sub_cancel_left]
    · rintro ⟨k, hk, hout⟩
      have hle : tag.length ≤ k :=
        Nat.le_of_not_lt fun hlt => hout (liesInTag_append_of_lt htag rest hlt)
      obtain ⟨j, rfl⟩ := Nat.exists_eq_add_of_le hle
      rw [List.getElem?_append_right hle, Nat.add_sub_cancel_left] at hk
      exact ⟨j, hk, mt (liesInTag_append_iff htag rest j).mpr hout⟩

/-! ### The first line of prose -/

theorem isBlank_of_isLineBreak {c : CodePoint} (h : c.isLineBreak = true) : c.isBlank = true := by
  have hsub : ∀ n ∈ CodePoint.lineBreaks, n ∈ CodePoint.blanks := by decide
  exact List.contains_iff_mem.mpr (hsub _ (List.contains_iff_mem.mp h))

theorem isInfix_trim (t : Text) : trim t <:+: t :=
  (List.rdropWhile_prefix _ (p := CodePoint.isBlank)).isInfix.trans
    (List.dropWhile_suffix CodePoint.isBlank).isInfix

/-- What is left of a text without the blanks at its beginning begins with no blank. -/
theorem isBlank_of_trimStart_eq_cons {t r : Text} {c : CodePoint} (h : trimStart t = c :: r) :
    c.isBlank = false := by
  have hhead := List.head?_dropWhile_not CodePoint.isBlank t
  rw [← trimStart, h, List.head?_cons] at hhead
  simpa using hhead

/-- A trimmed text begins with a code point that is no blank. -/
theorem isBlank_of_trim_eq_cons {t u : Text} {c : CodePoint} (h : trim t = c :: u) :
    c.isBlank = false := by
  have hbegins : c :: u <+: trimStart t := h ▸ List.rdropWhile_prefix _ (p := CodePoint.isBlank)
  obtain ⟨v, hv⟩ := hbegins
  exact isBlank_of_trimStart_eq_cons hv.symm

theorem trim_eq_nil_iff {t : Text} : trim t = [] ↔ ∀ c ∈ t, c.isBlank = true := by
  refine ⟨fun h => ?_, trim_of_forall⟩
  have hblank : ∀ c ∈ trimStart t, c.isBlank = true := fun c hc =>
    List.dropWhile_eq_nil_iff.mp (List.reverse_eq_nil_iff.mp h) c (List.mem_reverse.mpr hc)
  cases hstart : trimStart t with
  | nil => exact List.dropWhile_eq_nil_iff.mp hstart
  | cons c r =>
    have hc := isBlank_of_trimStart_eq_cons hstart
    rw [hblank c (hstart ▸ List.mem_cons_self)] at hc
    exact nomatch hc

/-- There is no prose where nothing is left but blanks, and only there. -/
theorem firstProse_eq_none_iff {t : Text} :
    firstProse t = none ↔
      ∀ (k : Nat) (c : CodePoint), t[k]? = some c → ¬ LiesInTag t k → c.isBlank = true := by
  have hleft : (∀ (k : Nat) (c : CodePoint), t[k]? = some c → ¬ LiesInTag t k → c.isBlank = true)
      ↔ ∀ c ∈ stripTags t, c.isBlank = true :=
    ⟨fun h c hc => by
      obtain ⟨k, hk, hout⟩ := ((strips_stripTags t).mem_iff c).mp hc
      exact h k c hk hout,
    fun h k c hk hout => h c (((strips_stripTags t).mem_iff c).mpr ⟨k, hk, hout⟩)⟩
  rw [hleft, ← trim_eq_nil_iff, firstProse]
  split
  · next hnil => exact ⟨fun _ => hnil, fun _ => rfl⟩
  · next hne =>
    obtain ⟨c, u, hu⟩ := List.exists_cons_of_ne_nil hne
    refine ⟨fun h => ?_, fun h => absurd h hne⟩
    have hc := isBlank_of_trim_eq_cons hu
    -- the line that is collapsed has the code point that trimming has come to
    have hline : c ∈ firstLine (trim (stripTags t)) := by
      rw [hu, firstLine, List.takeWhile_cons_of_pos]
      · exact List.mem_cons_self
      · cases hbreak : c.isLineBreak with
        | false => rfl
        | true => exact absurd (isBlank_of_isLineBreak hbreak) (by simp [hc])
    exact absurd (collapse_eq_none_iff.mp h c hline) (by simp [hc])

/-- What is collapsed has a `<` with a `>` behind it where the text had. -/
theorem sublist_of_collapse {t u : Text} (h : collapse t = some u)
    (hsub : [CodePoint.ofChar '<', CodePoint.ofChar '>'].Sublist u) :
    [CodePoint.ofChar '<', CodePoint.ofChar '>'].Sublist t := by
  have hwords : AreWords t (words t) := areWords_iff.mpr rfl
  rw [collapse_of_areWords hwords] at h
  split at h
  · exact nomatch h
  · obtain rfl := Option.some.inj h
    have hfilter := hsub.filter fun c => !c.isBlank
    rw [(areWords_spaced hwords.forall_mem).filter_eq, ← hwords.filter_eq] at hfilter
    exact hfilter.trans List.filter_sublist

/-- **No tag is in the prose.** -/
theorem not_sublist_of_firstProse {t u : Text} (h : firstProse t = some u) :
    ¬ [CodePoint.ofChar '<', CodePoint.ofChar '>'].Sublist u := by
  rw [firstProse] at h
  split at h
  · exact nomatch h
  · intro hsub
    refine (strips_stripTags t).not_sublist ((sublist_of_collapse h hsub).trans ?_)
    exact (List.takeWhile_sublist _).trans (isInfix_trim _).sublist

theorem collapse_of_firstProse {t u : Text} (h : firstProse t = some u) :
    collapse u = some u := by
  rw [firstProse] at h
  split at h
  · exact nomatch h
  · exact collapse_eq_self_of_collapse h

end Text

namespace Json

/-! ### Entries -/

/-- A description in markup as corpora write it: not at all, as a text, or as a list that begins
with the text that counts. -/
inductive IsDescription : Json → Option Text → Prop
  | null : IsDescription .null none
  | text (t : Text) : IsDescription (.text t) (some t)
  | nil : IsDescription (.array []) none
  | cons (t : Text) (rest : List Json) : IsDescription (.array (.text t :: rest)) (some t)

/-- What an entry is described by, given its short description and the one in markup: the short one
collapsed, unless it is blank, else prose of the other. -/
structure Describes (short desc d : Option Text) : Prop where
  /-- A description has no more than single spaces, and is not empty. -/
  normal : ∀ u ∈ d, u ≠ [] ∧ u.collapse = some u
  /-- A short description comes first. -/
  short_first : ∀ u, short.bind Text.collapse = some u → d = some u
  /-- An entry that says nothing is described by nothing. -/
  nothing : short.bind Text.collapse = none → desc = none → d = none
  /-- No tag is left of a description in markup. -/
  no_tag : short.bind Text.collapse = none → ∀ t, desc = some t → ∀ u ∈ d,
    ∀ tag, Text.IsTag tag → ¬ tag <:+: u
  /-- It is lost only where nothing but blanks stands outside its tags. -/
  lost_iff : short.bind Text.collapse = none → ∀ t, desc = some t →
    (d = none ↔ ∀ (k : Nat) (c : CodePoint), t[k]? = some c → ¬ Text.LiesInTag t k →
      c.isBlank = true)

theorem collapsedField_of_text {key : String} {entry : Json} {short : Option Text}
    (h : entry.get key = .ok (short.elim .null .text)) :
    entry.collapsedField key = .ok (short.bind Text.collapse) := by
  rw [collapsedField, h]
  cases short with
  | none => rfl
  | some t =>
    cases t with
    | nil => rfl
    | cons c t => rfl

/-- Descriptions that are given as texts are read: the short one collapsed, or prose of the
other. -/
theorem description_of_texts {entry v : Json} {short desc : Option Text}
    (hshort : entry.get "shortDesc" = .ok (short.elim .null .text))
    (hv : entry.get "desc" = .ok v) (hdesc : IsDescription v desc) :
    entry.description = .ok ((short.bind Text.collapse).or (desc.bind Text.firstProse)) := by
  rw [description, collapsedField_of_text hshort, ok_bind]
  cases short.bind Text.collapse with
  | some u => rfl
  | none =>
    simp only [hv, ok_bind]
    cases hdesc <;> rfl

theorem describes_or (short desc : Option Text) :
    Describes short desc ((short.bind Text.collapse).or (desc.bind Text.firstProse)) where
  normal u hu := by
    have hfixed : u.collapse = some u := by
      rcases Option.or_eq_some_iff.mp hu with hshort | ⟨-, hprose⟩
      · obtain ⟨t, -, ht⟩ := Option.bind_eq_some_iff.mp hshort
        exact Text.collapse_eq_self_of_collapse ht
      · obtain ⟨t, -, ht⟩ := Option.bind_eq_some_iff.mp hprose
        exact Text.collapse_of_firstProse ht
    refine ⟨?_, hfixed⟩
    rintro rfl
    exact nomatch hfixed
  short_first u hu := by rw [hu, Option.some_or]
  nothing hshort hdesc := by rw [hshort, hdesc]; rfl
  no_tag hshort t ht u hu tag htag hin := by
    rw [hshort, ht, Option.none_or] at hu
    exact Text.not_sublist_of_firstProse hu (htag.sublist.trans hin.sublist)
  lost_iff hshort t ht := by
    rw [hshort, ht, Option.none_or]
    exact Text.firstProse_eq_none_iff

/-- **The documentation of an entry is in normal form.** A text is collapsed to its words, which
every text has, with single spaces between them, and stays as it is from then on. An entry with
texts for descriptions is described by such a text or by nothing: no tag is left in it, and nothing
was there to be kept where nothing is. -/
theorem description_normal :
    (∀ (t : Text) (ws : List Text), Text.AreWords t ws →
        t.collapse = if ws = [] then none else some (Text.spaced ws)) ∧
      (∀ t : Text, ∃! ws, Text.AreWords t ws) ∧
      (∀ t u : Text, t.collapse = some u → u.collapse = some u) ∧
      ∀ (entry v : Json) (short desc : Option Text),
        entry.get "shortDesc" = .ok (short.elim .null .text) → entry.get "desc" = .ok v →
        IsDescription v desc → ∃ d, entry.description = .ok d ∧ Describes short desc d :=
  ⟨fun _ _ => Text.collapse_of_areWords,
    fun _ => ⟨_, Text.areWords_iff.mpr rfl, fun _ h => (Text.areWords_iff.mp h).symm⟩,
    fun _ _ => Text.collapse_eq_self_of_collapse,
    fun _ _ _ _ hshort hv hdesc =>
      ⟨_, description_of_texts hshort hv hdesc, describes_or _ _⟩⟩

/-- A short description of blanks, and one in markup with a tag and three words. -/
def markedEntry : Json :=
  .object [(Text.ofString "shortDesc", .text (Text.ofString " \n")),
    (Text.ofString "desc", .array [.text (Text.ofString " <p>One  plain\tline</p>\nand more")])]

/-- The entry is described by the words of its first line. -/
theorem description_normal_markedEntry :
    markedEntry.description = .ok (some (Text.ofString "One plain line")) ∧
      ∃ d, markedEntry.description = .ok d ∧
        Describes (some (Text.ofString " \n"))
          (some (Text.ofString " <p>One  plain\tline</p>\nand more")) d :=
  ⟨by cbv, description_normal.2.2.2 markedEntry _ _ _ rfl rfl (.cons _ [])⟩

end Json

end MarkupGrammar
