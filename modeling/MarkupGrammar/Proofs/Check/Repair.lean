import MarkupGrammar.Proofs.Check.Tree

/-!
# Repair of badly nested tags

A closing tag closes the nearest open element of its name; what was opened since is abandoned, and
a closing tag whose name is not open is passed over. This module says what such a check amounts to:
the tags are repaired to a forest, the forest is checked, and what the repair itself gave rise to
is not reported.

## The repair

`repair` reads the tags with the opening tags that are still open, the innermost first. It drops a
closing tag that finds none of its name, inserts a closing tag for every one that is abandoned
before the tag that abandons it, and appends one for every one that is left at the end.

## The simulation

The two runs of the check, over the tags and over their repair, keep the same stack wherever the
repair has copied a tag: an inserted closing tag closes the innermost element, so a row of them
leaves what a jump to the element below would have left. `OpenTags.Follows` ties a stack to the
opening tags that the repair holds.

## Main results

* `wellNested_repair` — a repair is well nested
* `walk_eq_keptDefects` — the simulation, from any stack
* `checkTags_eq_repair` — the defects of any tags are those of the repair, without those of the
  closing tags that it brought in, and then one for each element left open
-/

namespace MarkupGrammar

/-- A tag of a repair: one that was there, or a closing tag that the repair brought in. -/
structure RepairedTag where
  tag : Tag
  isInserted : Bool

namespace RepairedTag

/-- A tag that was there. -/
def kept (tag : Tag) : RepairedTag := ⟨tag, false⟩

/-- The closing tag brought in for an opening tag. -/
def closingFor (opening : Tag) : RepairedTag :=
  ⟨⟨.closing, opening.name, opening.position, []⟩, true⟩

end RepairedTag

/-! ### The repair -/

/-- The open tags above the nearest one of a name, and those below it. -/
def splitAtNearest? (name : Text) : List Tag → Option (List Tag × List Tag)
  | [] => none
  | t :: ts =>
    if t.name = name then some ([], ts)
    else (splitAtNearest? name ts).map fun (above, below) => (t :: above, below)

/-- The tags that are open after one more tag, the innermost first. -/
def openAfter (opened : List Tag) (tag : Tag) : List Tag :=
  match tag.kind with
  | .opening => tag :: opened
  | .selfClosing => opened
  | .closing =>
    match splitAtNearest? tag.name opened with
    | none => opened
    | some (_, below) => below

/-- What a tag becomes when some are open: a closing tag comes after those of the elements that it
abandons, or it is dropped. -/
def repairTag (opened : List Tag) (tag : Tag) : List RepairedTag :=
  match tag.kind with
  | .opening => [.kept tag]
  | .selfClosing => [.kept tag]
  | .closing =>
    match splitAtNearest? tag.name opened with
    | none => []
    | some (above, _) => above.map .closingFor ++ [.kept tag]

/-- The repair of tags inside those that are open, which are closed at the end. -/
def repairFrom : List Tag → List Tag → List RepairedTag
  | opened, [] => opened.map .closingFor
  | opened, tag :: tags => repairTag opened tag ++ repairFrom (openAfter opened tag) tags

/-- The repair of tags. -/
def repair (tags : List Tag) : List RepairedTag := repairFrom [] tags

/-- The opening tags that nothing closes or abandons, the innermost first. -/
def leftOpen (tags : List Tag) : List Tag := tags.foldl openAfter []

/-! ### The repair is well nested -/

/-- Tags that close all that is open, the innermost first, with forests between the closing tags. -/
def ClosesAll : List Tag → List Tag → Prop
  | [], tags => WellNested tags
  | t :: ts, tags => ∃ forest closing rest, tags = TagTree.tagsOfAll forest ++ closing :: rest ∧
      closing.kind = .closing ∧ closing.name = t.name ∧ ClosesAll ts rest

theorem ClosesAll.cons_tree {opened rest : List Tag} (t : TagTree) (h : ClosesAll opened rest) :
    ClosesAll opened (t.tags ++ rest) := by
  cases opened with
  | nil =>
    obtain ⟨forest, rfl⟩ := h
    exact ⟨t :: forest, rfl⟩
  | cons o os =>
    obtain ⟨forest, closing, rest', rfl, hkind, hname, h⟩ := h
    refine ⟨t :: forest, closing, rest', ?_, hkind, hname, h⟩
    rw [TagTree.tagsOfAll, List.append_assoc]

theorem ClosesAll.opening {opened rest : List Tag} {tag : Tag} (hkind : tag.kind = .opening)
    (h : ClosesAll (tag :: opened) rest) : ClosesAll opened (tag :: rest) := by
  obtain ⟨forest, closing, rest', rfl, hclosing, hname, h⟩ := h
  obtain ⟨kind, name, position, attributes⟩ := tag
  obtain ⟨kind', name', position', attributes'⟩ := closing
  subst hkind hclosing hname
  have htree := h.cons_tree (.pair name' position attributes forest position' attributes')
  simpa [TagTree.tags] using htree

theorem ClosesAll.closing {opened rest : List Tag} {t closing : Tag}
    (hkind : closing.kind = .closing) (hname : closing.name = t.name) (h : ClosesAll opened rest) :
    ClosesAll (t :: opened) (closing :: rest) :=
  ⟨[], closing, rest, rfl, hkind, hname, h⟩

/-- Closing tags brought in for the innermost open tags close them. -/
theorem ClosesAll.closingFor {opened rest : List Tag} (above : List Tag)
    (h : ClosesAll opened rest) :
    ClosesAll (above ++ opened)
      ((above.map RepairedTag.closingFor).map RepairedTag.tag ++ rest) := by
  induction above with
  | nil => exact h
  | cons t ts ih => exact ih.closing rfl rfl

theorem splitAtNearest?_eq_some {name : Text} {opened above below : List Tag}
    (h : splitAtNearest? name opened = some (above, below)) :
    ∃ t, t.name = name ∧ opened = above ++ t :: below := by
  induction opened generalizing above below with
  | nil => exact nomatch h
  | cons o os ih =>
    rw [splitAtNearest?] at h
    split at h
    · next hname =>
      obtain ⟨rfl, rfl⟩ := Prod.mk.inj (Option.some.inj h)
      exact ⟨o, hname, rfl⟩
    · obtain ⟨⟨above', below'⟩, hsplit, heq⟩ := Option.map_eq_some_iff.mp h
      obtain ⟨rfl, rfl⟩ := Prod.mk.inj heq
      obtain ⟨t, hname, rfl⟩ := ih hsplit
      exact ⟨t, hname, rfl⟩

theorem closesAll_repairFrom (opened tags : List Tag) :
    ClosesAll opened ((repairFrom opened tags).map RepairedTag.tag) := by
  induction tags generalizing opened with
  | nil =>
    have hnil : ClosesAll [] [] := ⟨[], rfl⟩
    simpa [repairFrom] using hnil.closingFor opened
  | cons tag tags ih =>
    have htail := ih (openAfter opened tag)
    rw [repairFrom, List.map_append]
    unfold repairTag openAfter at *
    cases hkind : tag.kind with
    | opening =>
      rw [hkind] at htail
      exact htail.opening hkind
    | selfClosing =>
      rw [hkind] at htail
      obtain ⟨kind, name, position, attributes⟩ := tag
      subst hkind
      exact htail.cons_tree (.selfClosing name position attributes)
    | closing =>
      simp only [hkind] at htail ⊢
      cases hsplit : splitAtNearest? tag.name opened with
      | none =>
        rw [hsplit] at htail
        exact htail
      | some split =>
        obtain ⟨above, below⟩ := split
        obtain ⟨t, hname, rfl⟩ := splitAtNearest?_eq_some hsplit
        rw [hsplit] at htail
        have hclosed := (htail.closing hkind hname.symm).closingFor above
        simpa [RepairedTag.kept] using hclosed

/-- **A repair is well nested.** -/
theorem wellNested_repair (tags : List Tag) :
    WellNested ((repair tags).map RepairedTag.tag) :=
  closesAll_repairFrom [] tags

/-! ### What each tag gives rise to -/

variable {Name : Type} [Label Name]

/-- An opening tag that is left open, as it is reported. -/
def Tag.unclosed (opening : Tag) : Diagnostic Name := ⟨.unclosed opening.name, opening.position⟩

namespace Schema

/-- The defects that each of the tags gives rise to. -/
def emissions (s : Schema Name) : OpenTags Name → List Tag → List (List (Diagnostic Name))
  | _, [] => []
  | stack, tag :: tags => (s.step stack tag).2 :: emissions s (s.step stack tag).1 tags

/-- What is open after some tags. -/
def openedBy (s : Schema Name) (stack : OpenTags Name) (tags : List Tag) : OpenTags Name :=
  tags.foldl (fun stack tag => (s.step stack tag).1) stack

/-- The defects of a repair that tags give rise to which were there before. -/
def keptDefects (s : Schema Name) (stack : OpenTags Name) (repaired : List RepairedTag) :
    List (Diagnostic Name) :=
  ((repaired.zip (s.emissions stack (repaired.map RepairedTag.tag))).filter
    fun e => !e.1.isInserted).flatMap Prod.snd

variable {s : Schema Name}

theorem keptDefects_nil (stack : OpenTags Name) : s.keptDefects stack [] = [] := rfl

theorem keptDefects_kept (stack : OpenTags Name) (tag : Tag) (rest : List RepairedTag) :
    s.keptDefects stack (.kept tag :: rest)
      = (s.step stack tag).2 ++ s.keptDefects (s.step stack tag).1 rest := by
  simp [keptDefects, emissions, RepairedTag.kept]

theorem keptDefects_closingFor (stack : OpenTags Name) (opening : Tag) (rest : List RepairedTag) :
    s.keptDefects stack (.closingFor opening :: rest)
      = s.keptDefects (s.step stack (RepairedTag.closingFor opening).tag).1 rest := by
  simp [keptDefects, emissions, RepairedTag.closingFor]

/-- **Runs in a row.** The second begins with what is open after the first. -/
theorem walk_append (stack : OpenTags Name) (tags rest : List Tag) :
    s.walk stack (tags ++ rest)
      = (s.emissions stack tags).flatten ++ s.walk (s.openedBy stack tags) rest := by
  induction tags generalizing stack with
  | nil => rfl
  | cons tag tags ih =>
    rw [List.cons_append, walk, ih, emissions, List.flatten_cons, List.append_assoc]
    rfl

theorem walk_eq_emissions (stack : OpenTags Name) (tags : List Tag) :
    s.walk stack tags = (s.emissions stack tags).flatten
      ++ (s.openedBy stack tags).reverse.map
        fun frame => ⟨.unclosed frame.name, frame.position⟩ := by
  have hrun := walk_append (s := s) stack tags []
  rwa [List.append_nil] at hrun

/-- On well-nested tags all defects come from a tag, and nothing is left to report at the end. -/
theorem checkTags_eq_emissions {tags : List Tag} (h : WellNested tags) :
    s.checkTags tags = (s.emissions [] tags).flatten := by
  obtain ⟨forest, rfl⟩ := h
  have hwalk : s.checkTags (TagTree.tagsOfAll forest) = _ := walk_eq_emissions [] _
  have hnone : NoneUnclosed (s.checkTags (TagTree.tagsOfAll forest)) := by
    rw [checkTags_tagsOfAll]
    exact noneUnclosed_checkForest s none forest
  cases hopen : s.openedBy [] (TagTree.tagsOfAll forest) with
  | nil =>
    rw [hopen] at hwalk
    exact hwalk.trans (List.append_nil _)
  | cons frame frames =>
    refine absurd rfl (hnone ⟨.unclosed frame.name, frame.position⟩ ?_ frame.name)
    rw [hwalk, hopen]
    exact List.mem_append_right _ (List.mem_map.mpr ⟨frame, by simp, rfl⟩)

end Schema

/-! ### The simulation -/

namespace OpenTags

/-- The open elements are those of the opening tags, one by one. -/
def Follows : OpenTags Name → List Tag → Prop :=
  List.Forall₂ fun frame opening => frame.name = opening.name ∧ frame.position = opening.position

theorem Follows.addChild {stack : OpenTags Name} {opened : List Tag} (h : Follows stack opened)
    (tag : Tag) : Follows (stack.addChild tag) opened := by
  cases h with
  | nil => exact .nil
  | cons hframe h => exact .cons hframe h

omit [Label Name] in
theorem Follows.unclosed {stack : OpenTags Name} {opened : List Tag} (h : Follows stack opened) :
    stack.map (fun frame => (⟨.unclosed frame.name, frame.position⟩ : Diagnostic Name))
      = opened.map Tag.unclosed := by
  induction h with
  | nil => rfl
  | cons hframe _ ih => rw [List.map_cons, List.map_cons, ih, hframe.1, hframe.2]; rfl

omit [Label Name] in
/-- A name that no opening tag has is that of no open element. -/
theorem Follows.closeTo_eq_none {stack : OpenTags Name} {opened : List Tag}
    (h : Follows stack opened) {name : Text} (hsplit : splitAtNearest? name opened = none) :
    stack.closeTo name = none := by
  induction h with
  | nil => rfl
  | cons hframe _ ih =>
    rw [splitAtNearest?] at hsplit
    split at hsplit
    · exact nomatch hsplit
    · next hne =>
      rw [closeTo, hframe.1, if_neg hne]
      exact ih (Option.map_eq_none_iff.mp hsplit)

omit [Label Name] in
/-- The nearest opening tag of a name is that of the nearest open element of the name. -/
theorem Follows.closeTo_eq_some {stack : OpenTags Name} {opened : List Tag}
    (h : Follows stack opened) {name : Text} {above below : List Tag}
    (hsplit : splitAtNearest? name opened = some (above, below)) :
    ∃ passed frame rest, stack = passed ++ frame :: rest ∧ frame.name = name ∧
      Follows passed above ∧ Follows rest below ∧ stack.closeTo name = some (frame, rest) := by
  induction h generalizing above below with
  | nil => exact nomatch hsplit
  | @cons frame t stack opened hframe h ih =>
    rw [splitAtNearest?] at hsplit
    split at hsplit
    · next hname =>
      obtain ⟨rfl, rfl⟩ := Prod.mk.inj (Option.some.inj hsplit)
      have hname : frame.name = name := hframe.1.trans hname
      exact ⟨[], frame, stack, rfl, hname, .nil, h, by rw [closeTo, if_pos hname]⟩
    · next hne =>
      obtain ⟨⟨above', below'⟩, hsplit', heq⟩ := Option.map_eq_some_iff.mp hsplit
      obtain ⟨rfl, rfl⟩ := Prod.mk.inj heq
      obtain ⟨passed, found, rest, rfl, hname, habove, hbelow, hclose⟩ := ih hsplit'
      refine ⟨frame :: passed, found, rest, rfl, hname, .cons hframe habove, hbelow, ?_⟩
      rw [closeTo, hframe.1, if_neg hne, hclose]

end OpenTags

namespace Schema

variable {s : Schema Name}

/-- Closing tags brought in for the innermost elements close them without a word. -/
theorem keptDefects_map_closingFor {passed : OpenTags Name} {above : List Tag}
    (h : passed.Follows above) (stack : OpenTags Name) (rest : List RepairedTag) :
    s.keptDefects (passed ++ stack) (above.map RepairedTag.closingFor ++ rest)
      = s.keptDefects stack rest := by
  induction h with
  | nil => rfl
  | @cons frame t passed above hframe _ ih =>
    have hstep : (s.step (frame :: (passed ++ stack)) (RepairedTag.closingFor t).tag).1
        = passed ++ stack := by
      simp [step, RepairedTag.closingFor, OpenTags.closeTo, hframe.1]
    rw [List.map_cons, List.cons_append, List.cons_append, keptDefects_closingFor, hstep, ih]

/-- **The simulation.** From a stack that follows the opening tags of the repair, the pass over
some tags reports what the pass over their repair does, but for the tags brought in, and then what
is left open. -/
theorem walk_eq_keptDefects {stack : OpenTags Name} {opened : List Tag} (h : stack.Follows opened)
    (tags : List Tag) :
    s.walk stack tags = s.keptDefects stack (repairFrom opened tags)
      ++ (tags.foldl openAfter opened).reverse.map Tag.unclosed := by
  induction tags generalizing stack opened with
  | nil =>
    have hnone := keptDefects_map_closingFor (s := s) h [] []
    rw [List.append_nil, List.append_nil, keptDefects_nil] at hnone
    rw [repairFrom, hnone, walk, List.map_reverse, List.map_reverse, h.unclosed]
    rfl
  | cons tag tags ih =>
    rw [repairFrom, walk, List.foldl_cons]
    cases hkind : tag.kind with
    | opening =>
      have hstep : (s.step stack tag).1.Follows (tag :: opened) := by
        simp only [step, hkind]
        exact .cons ⟨rfl, rfl⟩ (h.addChild tag)
      simp only [repairTag, openAfter, hkind, List.singleton_append]
      rw [keptDefects_kept, List.append_assoc, ih hstep]
    | selfClosing =>
      have hstep : (s.step stack tag).1.Follows opened := by
        simp only [step, hkind]
        exact h.addChild tag
      simp only [repairTag, openAfter, hkind, List.singleton_append]
      rw [keptDefects_kept, List.append_assoc, ih hstep]
    | closing =>
      cases hsplit : splitAtNearest? tag.name opened with
      | none =>
        have hstep : s.step stack tag = (stack, []) := by
          simp only [step, hkind, h.closeTo_eq_none hsplit]
        simp only [repairTag, openAfter, hkind, hsplit, hstep, List.nil_append]
        exact ih h
      | some split =>
        obtain ⟨above, below⟩ := split
        obtain ⟨passed, frame, rest, rfl, hname, habove, hbelow, hclose⟩ :=
          h.closeTo_eq_some hsplit
        have hjump : s.step (passed ++ frame :: rest) tag = (rest, checkClosing frame) := by
          simp only [step, hkind, hclose]
        have hclosing : s.step (frame :: rest) tag = (rest, checkClosing frame) := by
          simp only [step, hkind, OpenTags.closeTo, hname, if_true]
        simp only [repairTag, openAfter, hkind, hsplit, List.append_assoc, List.singleton_append]
        rw [keptDefects_map_closingFor habove, keptDefects_kept, hjump, hclosing,
          List.append_assoc, ih hbelow]

/-- **Recovery is repair.** For any tags, however badly nested, their repair is well nested, all of
its defects come from one of its tags, and the check of the tags reports those that come from tags
which were there, in order, followed by one for each element left open, the outermost first, at its
opening tag. -/
theorem checkTags_eq_repair (s : Schema Name) (tags : List Tag) :
    WellNested ((repair tags).map RepairedTag.tag) ∧
      s.checkTags ((repair tags).map RepairedTag.tag)
        = (s.emissions [] ((repair tags).map RepairedTag.tag)).flatten ∧
      s.checkTags tags
        = ((((repair tags).zip (s.emissions [] ((repair tags).map RepairedTag.tag))).filter
            fun e => !e.1.isInserted).flatMap Prod.snd)
          ++ (leftOpen tags).reverse.map Tag.unclosed :=
  ⟨wellNested_repair tags, checkTags_eq_emissions (wellNested_repair tags),
    walk_eq_keptDefects .nil tags⟩

end Schema

end MarkupGrammar
