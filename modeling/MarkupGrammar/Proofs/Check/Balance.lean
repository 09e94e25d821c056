import MarkupGrammar.Markup.Balance
import MarkupGrammar.Proofs.Check.Repair
import MarkupGrammar.Proofs.Markup.Extent

/-!
# Two ways to balance tags

Tags are balanced twice. The structural check keeps one stack: a closing tag closes the nearest
element of its name, and what was opened since is abandoned. The search for a mismatch lets each
closing tag take back the latest opening tag of its name and leaves all others alone, so tags may
cross. After a few crossing tags the two hold quite different tags open.

They never contradict each other: what the stack holds is always among what is not taken back, in
the same order. A tag that the stack holds and that is taken back would have to be the latest of its
name, and then it is the one that the stack closes, or lies above it.

## Main results

* `openAfter_sublist` — one more tag keeps the stack among the tags not taken back
* `leftOpen_sublist` — so at the end of the document
* `unclosed_checkStructure` — what the structural check reports as not closed, against the mismatch
-/

namespace MarkupGrammar

namespace Balance

/-! ### Taking back -/

/-- The open tags without the latest one of a name. -/
def without (name : Text) (opened : List Tag) : List Tag := (takeBack? name opened).getD opened

theorem without_cons (name : Text) (tag : Tag) (opened : List Tag) :
    without name (tag :: opened)
      = if tag.name = name then opened else tag :: without name opened := by
  rw [without, takeBack?, without]
  split
  · rfl
  · cases takeBack? name opened <;> rfl

theorem without_sublist (name : Text) (opened : List Tag) :
    (without name opened).Sublist opened := by
  induction opened with
  | nil => exact List.Sublist.refl []
  | cons tag opened ih =>
    rw [without_cons]
    split
    · exact List.sublist_cons_self tag opened
    · exact ih.cons_cons tag

/-- The open tags below the nearest one of a name, or all of them when none has it. -/
def below (name : Text) (opened : List Tag) : List Tag :=
  (splitAtNearest? name opened).elim opened Prod.snd

theorem below_cons (name : Text) (tag : Tag) (opened : List Tag) :
    below name (tag :: opened) = (if tag.name = name then opened else below name opened) ∨
      tag.name ≠ name ∧ below name opened = opened ∧
        below name (tag :: opened) = tag :: opened := by
  rw [below, splitAtNearest?, below]
  by_cases hname : tag.name = name
  · rw [if_pos hname, if_pos hname]
    exact Or.inl rfl
  · rw [if_neg hname, if_neg hname]
    cases splitAtNearest? name opened with
    | none => exact Or.inr ⟨hname, rfl, rfl⟩
    | some split => exact Or.inl rfl

theorem below_sublist (name : Text) (opened : List Tag) : (below name opened).Sublist opened := by
  induction opened with
  | nil => exact List.Sublist.refl []
  | cons tag opened ih =>
    rcases below_cons name tag opened with h | ⟨-, -, h⟩
    · rw [h]
      split
      · exact List.sublist_cons_self tag opened
      · exact ih.cons tag
    · exact h.symm ▸ List.Sublist.refl _

/-- **A closing tag keeps the stack among the tags not taken back:** whatever is taken back, the
stack has dropped it. -/
theorem below_sublist_without {opened openings : List Tag} (h : opened.Sublist openings)
    (name : Text) : (below name opened).Sublist (without name openings) := by
  induction h with
  | slnil => exact List.Sublist.refl []
  | @cons opened openings tag h ih =>
    rw [without_cons]
    split
    · exact (below_sublist name opened).trans h
    · exact ih.cons tag
  | @cons_cons opened openings tag h ih =>
    rw [without_cons]
    rcases below_cons name tag opened with hbelow | ⟨hname, hall, hbelow⟩
    · rw [hbelow]
      split
      · exact h
      · exact ih.cons tag
    · rw [hall] at ih
      rw [hbelow, if_neg hname]
      exact ih.cons_cons tag

/-! ### All tags -/

theorem openings_step (u : Unmatched) (tag : Tag) :
    (step u tag).openings =
      match tag.kind with
      | .opening => tag :: u.openings
      | .selfClosing => u.openings
      | .closing => without tag.name u.openings := by
  rw [step, without]
  cases tag.kind with
  | opening => rfl
  | selfClosing => rfl
  | closing =>
    simp only
    cases takeBack? tag.name u.openings <;> rfl

theorem orphans_step (u : Unmatched) (tag : Tag) :
    (step u tag).orphans =
      if tag.kind = .closing ∧ takeBack? tag.name u.openings = none then tag :: u.orphans
      else u.orphans := by
  rw [step]
  cases tag.kind with
  | opening => rfl
  | selfClosing => rfl
  | closing =>
    simp only
    cases takeBack? tag.name u.openings <;> rfl

/-- **One more tag** keeps the stack among the tags not taken back. -/
theorem openAfter_sublist {opened : List Tag} {u : Unmatched} (h : opened.Sublist u.openings)
    (tag : Tag) : (openAfter opened tag).Sublist (step u tag).openings := by
  rw [openings_step, openAfter]
  cases tag.kind with
  | opening => exact h.cons_cons tag
  | selfClosing => exact h
  | closing =>
    have hbelow := below_sublist_without h tag.name
    rw [below] at hbelow
    simp only
    cases hsplit : splitAtNearest? tag.name opened with
    | none =>
      rw [hsplit] at hbelow
      exact hbelow
    | some split =>
      rw [hsplit] at hbelow
      exact hbelow

/-- **What nothing closes is not taken back.** -/
theorem leftOpen_sublist (tags : List Tag) :
    (leftOpen tags).Sublist (unmatched tags).openings := by
  have hrun : ∀ (tags opened : List Tag) (u : Unmatched), opened.Sublist u.openings →
      (tags.foldl openAfter opened).Sublist (tags.foldl step u).openings := by
    intro tags
    induction tags with
    | nil => exact fun opened u h => h
    | cons tag tags ih => exact fun opened u h => ih _ _ (openAfter_sublist h tag)
  exact hrun tags [] ⟨[], []⟩ (List.Sublist.refl [])

/-- The tags not taken back are tags that were there, the latest first. -/
theorem openings_sublist (tags : List Tag) : (unmatched tags).openings.Sublist tags.reverse := by
  have hrun : ∀ (tags : List Tag) (u : Unmatched),
      (tags.foldl step u).openings.Sublist (tags.reverse ++ u.openings) := by
    intro tags
    induction tags with
    | nil => exact fun u => List.Sublist.refl _
    | cons tag tags ih =>
      intro u
      have hstep : (step u tag).openings.Sublist (tag :: u.openings) := by
        rw [openings_step]
        cases tag.kind with
        | opening => exact List.Sublist.refl _
        | selfClosing => exact List.sublist_cons_self tag _
        | closing => exact (without_sublist tag.name u.openings).cons tag
      rw [List.foldl_cons, List.reverse_cons, List.append_assoc]
      exact (ih (step u tag)).trans (hstep.append_left tags.reverse)
  have hall := hrun tags ⟨[], []⟩
  rwa [List.append_nil] at hall

/-- What has no counterpart is one of the tags: a closing tag that closed nothing, or an opening
tag. -/
theorem mem_unmatched (tags : List Tag) :
    (∀ tag ∈ (unmatched tags).orphans, tag ∈ tags ∧ tag.kind = .closing) ∧
      ∀ tag ∈ (unmatched tags).openings, tag ∈ tags ∧ tag.kind = .opening := by
  have hrun : ∀ (rest : List Tag) (u : Unmatched), (∀ tag ∈ rest, tag ∈ tags) →
      (∀ tag ∈ u.orphans, tag ∈ tags ∧ tag.kind = .closing) →
      (∀ tag ∈ u.openings, tag ∈ tags ∧ tag.kind = .opening) →
      (∀ tag ∈ (rest.foldl step u).orphans, tag ∈ tags ∧ tag.kind = .closing) ∧
        ∀ tag ∈ (rest.foldl step u).openings, tag ∈ tags ∧ tag.kind = .opening := by
    intro rest
    induction rest with
    | nil => exact fun u _ horphans hopenings => ⟨horphans, hopenings⟩
    | cons tag rest ih =>
      intro u hrest horphans hopenings
      obtain ⟨htag, hrest⟩ := List.forall_mem_cons.mp hrest
      refine ih (step u tag) hrest ?_ ?_
      · rw [orphans_step]
        split
        · next hkind => exact List.forall_mem_cons.mpr ⟨⟨htag, hkind.1⟩, horphans⟩
        · exact horphans
      · rw [openings_step]
        cases hkind : tag.kind with
        | opening => exact List.forall_mem_cons.mpr ⟨⟨htag, hkind⟩, hopenings⟩
        | selfClosing => exact hopenings
        | closing =>
          exact fun t ht => hopenings t ((without_sublist tag.name u.openings).subset ht)
  exact hrun tags ⟨[], []⟩ (fun _ h => h) (List.forall_mem_nil _) (List.forall_mem_nil _)

/-- The mismatch of tags is one of them. -/
theorem exists_of_mismatch? {tags : List Tag} {problem : TagProblem} {position : Position}
    (h : mismatch? tags = some (problem, position)) :
    ∃ tag ∈ tags, position = tag.position ∧
      (tag.kind = .closing ∧ problem = .orphan tag.name ∨
        tag.kind = .opening ∧ problem = .unclosed tag.name) := by
  obtain ⟨horphans, hopenings⟩ := mem_unmatched tags
  rw [mismatch?] at h
  split at h
  · next orphan horphan =>
    obtain ⟨rfl, rfl⟩ := Prod.mk.inj (Option.some.inj h)
    obtain ⟨hmem, hkind⟩ := horphans orphan (List.mem_of_getLast? horphan)
    exact ⟨orphan, hmem, rfl, Or.inl ⟨hkind, rfl⟩⟩
  · obtain ⟨opening, hopening, heq⟩ := Option.map_eq_some_iff.mp h
    obtain ⟨rfl, rfl⟩ := Prod.mk.inj heq
    obtain ⟨hmem, hkind⟩ := hopenings opening (List.mem_of_getLast? hopening)
    exact ⟨opening, hmem, rfl, Or.inr ⟨hkind, rfl⟩⟩

/-- Tags that stand in reading order: the last that is not taken back stands before all others. -/
theorem openings_before {tags : List Tag}
    (h : tags.Pairwise fun a b => a.position.before b.position = true) {first : Tag}
    (hfirst : (unmatched tags).openings.getLast? = some first) :
    ∀ tag ∈ (unmatched tags).openings,
      tag = first ∨ first.position.before tag.position = true := by
  intro tag htag
  have hreversed := (List.pairwise_reverse.mpr h).sublist (openings_sublist tags)
  obtain ⟨others, hothers⟩ := List.getLast?_eq_some_iff.mp hfirst
  rw [hothers] at htag hreversed
  rcases List.mem_append.mp htag with htag | htag
  · exact Or.inr ((List.pairwise_append.mp hreversed).2.2 tag htag first List.mem_cons_self)
  · exact Or.inl (List.mem_singleton.mp htag)

end Balance

/-! ### What is reported -/

namespace Finding

/-- Whether a finding says that an element is not closed. -/
def isUnclosed {Name : Type} : Finding Name → Bool
  | .unclosed _ => true
  | _ => false

end Finding

namespace Schema

variable {Name : Type} [Label Name] {s : Schema Name}

omit [Label Name] in
theorem isUnclosed_eq_false_of_noneUnclosed {ds : List (Diagnostic Name)} (h : NoneUnclosed ds) :
    ∀ d ∈ ds, d.finding.isUnclosed = false := by
  intro d hd
  cases hfinding : d.finding with
  | unclosed name => exact absurd hfinding (h d hd name)
  | _ => rfl

/-- What a repair is reported for is what its tags are. -/
theorem noneUnclosed_keptDefects (s : Schema Name) (tags : List Tag) :
    NoneUnclosed (s.keptDefects [] (repair tags)) := by
  obtain ⟨forest, hforest⟩ := wellNested_repair tags
  have hall : NoneUnclosed (s.checkTags ((repair tags).map RepairedTag.tag)) := by
    rw [hforest, checkTags_tagsOfAll]
    exact noneUnclosed_checkForest s none forest
  rw [checkTags_eq_emissions (wellNested_repair tags)] at hall
  intro d hd
  obtain ⟨e, he, hde⟩ := List.mem_flatMap.mp hd
  have hemission := (List.of_mem_zip (List.mem_filter.mp he).1).2
  exact hall d (List.mem_flatten.mpr ⟨e.2, hemission, hde⟩)

/-- The elements that are reported as not closed are those of the opening tags left open, the
outermost first. -/
theorem filter_isUnclosed_checkTags (s : Schema Name) (tags : List Tag) :
    (s.checkTags tags).filter (·.finding.isUnclosed)
      = (leftOpen tags).reverse.map Tag.unclosed := by
  have hwalk : s.checkTags tags = _ := walk_eq_keptDefects (s := s) .nil tags
  have hkept := isUnclosed_eq_false_of_noneUnclosed (noneUnclosed_keptDefects s tags)
  have hnone : (s.keptDefects [] (repair tags)).filter (·.finding.isUnclosed) = [] :=
    List.filter_eq_nil_iff.mpr fun d hd => by simp [hkept d hd]
  have hall : ((leftOpen tags).reverse.map (@Tag.unclosed Name)).filter (·.finding.isUnclosed)
      = (leftOpen tags).reverse.map Tag.unclosed := by
    refine List.filter_eq_self.mpr fun d hd => ?_
    obtain ⟨tag, -, rfl⟩ := List.mem_map.mp hd
    rfl
  rw [hwalk, List.filter_append]
  exact (congrArg₂ (· ++ ·) hnone hall).trans (List.nil_append _)

/-- An element that is reported as not closed has an opening tag that is not taken back. -/
theorem exists_opening_of_isUnclosed {tags : List Tag} {d : Diagnostic Name}
    (hd : d ∈ s.checkTags tags) (hfinding : d.finding.isUnclosed = true) :
    ∃ tag ∈ (Balance.unmatched tags).openings, tag.unclosed = d := by
  have hmem : d ∈ (s.checkTags tags).filter (·.finding.isUnclosed) :=
    List.mem_filter.mpr ⟨hd, hfinding⟩
  rw [filter_isUnclosed_checkTags] at hmem
  obtain ⟨tag, htag, rfl⟩ := List.mem_map.mp hmem
  exact ⟨tag, (Balance.leftOpen_sublist tags).subset (List.mem_reverse.mp htag), rfl⟩

/-- **The two ways to balance agree.** What the structural check of a document reports as not closed
are opening tags that the search for a mismatch does not take back, in their order. When that search
finds nothing, nothing is reported as not closed; and when it finds an opening tag, this stands
where the first element is reported as not closed, or before it. -/
theorem unclosed_checkStructure (s : Schema Name) (document : Text) :
    (∃ left : List Tag, left.Sublist (Balance.unmatched (Tag.ofText document)).openings ∧
      (s.checkStructure document).filter (·.finding.isUnclosed)
        = left.reverse.map Tag.unclosed) ∧
    (Balance.mismatch? (Tag.ofText document) = none →
      ∀ d ∈ s.checkStructure document, d.finding.isUnclosed = false) ∧
    ∀ name position,
      Balance.mismatch? (Tag.ofText document) = some (.unclosed name, position) →
        ∀ d ∈ s.checkStructure document, d.finding.isUnclosed = true →
          d.position = position ∨ position.before d.position = true := by
  refine ⟨⟨leftOpen (Tag.ofText document), Balance.leftOpen_sublist _,
    filter_isUnclosed_checkTags s _⟩, fun hnone d hd => ?_, fun name position hfound d hd hd' => ?_⟩
  · refine Bool.eq_false_iff.mpr fun hfinding => ?_
    obtain ⟨tag, htag, -⟩ := exists_opening_of_isUnclosed hd hfinding
    rw [Balance.mismatch?] at hnone
    split at hnone
    · exact nomatch hnone
    · rw [Option.map_eq_none_iff, List.getLast?_eq_none_iff] at hnone
      rw [hnone] at htag
      exact nomatch htag
  · obtain ⟨tag, htag, rfl⟩ := exists_opening_of_isUnclosed hd hd'
    rw [Balance.mismatch?] at hfound
    split at hfound
    · exact nomatch (Prod.mk.inj (Option.some.inj hfound)).1
    · obtain ⟨first, hfirst, heq⟩ := Option.map_eq_some_iff.mp hfound
      obtain ⟨-, rfl⟩ := Prod.mk.inj heq
      rcases Balance.openings_before (Tag.pairwise_ofText document) hfirst tag htag with rfl | h
      · exact Or.inl rfl
      · exact Or.inr h

/-- Tags that cross have no mismatch and leave nothing unclosed. Of two tags that are left open the
mismatch is the first, and both are reported. -/
theorem unclosed_crossing :
    Balance.mismatch? (Tag.ofText (Text.ofString "<list><item></list></item>")) = none ∧
    (∀ d ∈ lists.checkStructure (Text.ofString "<list><item></list></item>"),
      d.finding.isUnclosed = false) ∧
    Balance.mismatch? (Tag.ofText (Text.ofString "<list>\n<item>"))
      = some (.unclosed (Text.ofString "list"), ⟨1, 1⟩) ∧
    ((lists.checkStructure (Text.ofString "<list>\n<item>")).filter (·.finding.isUnclosed)).map
      (·.position) = [⟨1, 1⟩, ⟨2, 1⟩] ∧
    ∀ d ∈ lists.checkStructure (Text.ofString "<list>\n<item>"), d.finding.isUnclosed = true →
      d.position = ⟨1, 1⟩ ∨ (⟨1, 1⟩ : Position).before d.position = true := by
  have hcrossing :
      Balance.mismatch? (Tag.ofText (Text.ofString "<list><item></list></item>")) = none := by
    decide +kernel
  have hopen : Balance.mismatch? (Tag.ofText (Text.ofString "<list>\n<item>"))
      = some (.unclosed (Text.ofString "list"), ⟨1, 1⟩) := by
    decide +kernel
  refine ⟨hcrossing, (unclosed_checkStructure lists _).2.1 hcrossing, hopen, ?_,
    (unclosed_checkStructure lists _).2.2 _ _ hopen⟩
  rw [checkStructure, filter_isUnclosed_checkTags]
  decide +kernel

end Schema

end MarkupGrammar
