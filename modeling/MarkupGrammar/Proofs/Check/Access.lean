import MarkupGrammar.Check.Report
import MarkupGrammar.Proofs.Check.Run
import MarkupGrammar.Proofs.Markup.Offset

/-!
# Checking with indices

The check of a document takes much for granted: that the stack has a last element when it is not
empty, that an alternative which is in use is one of the choice and has a child, that a name which
occurs more often than it may does have the occurrence that is too many. In this module the check is
written with the indices and searches that this comes down to, and each of them is checked.

None goes wrong, whatever the document and whatever the schema. Each is safe for a reason of its
own, which is a lemma: the two checks of children, and what is done with the stack.

The stack is kept the other way around here: its last element is the innermost one.

## Main results

* `checkChoiceAt_eq`, `checkCountAt_eq` — what is looked up in a choice and in a count is there
* `Schema.walkAt_eq` — the run with indices is the run
* `Schema.exists_reportsAt` — a document is reported on with indices as it is otherwise
-/

namespace MarkupGrammar

open Checked

namespace Checked

variable {α : Type}

/-- The first of some values that passes a test, which has to be there. -/
def firstOf (p : α → Bool) (xs : List α) : Checked α :=
  match xs.find? p with
  | some x => .ok x
  | none => .error .notFound

theorem entryAt_zero (x : α) (xs : List α) : entryAt (x :: xs) 0 = .ok x := rfl

theorem entryAt_one (x y : α) (xs : List α) : entryAt (x :: y :: xs) 1 = .ok y := rfl

/-- The last of some values, which has to be there. -/
def lastOf (xs : List α) : Checked α := entryAt xs ((xs.length : Int) - 1)

theorem lastOf_concat (xs : List α) (x : α) : lastOf (xs ++ [x]) = .ok x := by
  have hindex : ((xs ++ [x]).length : Int) - 1 = (xs.length : Nat) := by
    rw [List.length_append, List.length_singleton]
    omega
  rw [lastOf, hindex]
  exact entryAt_of_getElem? List.getElem?_concat_length

end Checked

/-! ### Children -/

section

variable {Name Place : Type} [BEq Name]

/-- The violation of a choice. The two alternatives that are used first are looked up by their
numbers, and a child of the first of them is searched for. -/
def checkChoiceAt (parent : Text) (items : List (Item Name)) (children : List (Child Name Place)) :
    Checked (List (Diagnostic Name Place)) :=
  let names := (items.map Item.names).filter fun names => !names.isEmpty
  let used := (usedAlternatives (alternatives items) children).map Prod.snd
  if used.length < 2 then return []
  else do
    let i ← entryAt used 0
    let j ← entryAt used 1
    let first ← entryAt names i
    let second ← entryAt names j
    let other ← firstOf (fun c => first.elem c.name) children
    match children.find? fun c => second.elem c.name && !first.elem c.name with
    | some child => return [child.report (.choiceViolation child.name other.name parent)]
    | none => return []

/-- Whether the occurrences of a name are too few. The first of them is looked up. -/
def checkLeastAt (parent : Text) (name : Name) (least : Nat) (occurrences : List (Child Name Place)) :
    Checked (List (Diagnostic Name Place)) :=
  if occurrences.length < least then do
    let first ← entryAt occurrences 0
    return [first.report (.tooFew name least parent)]
  else return []

/-- Whether the occurrences of a name are too many. The first that is too many is looked up by the
limit. -/
def checkMostAt (parent : Text) (name : Name) (most : Limit) (occurrences : List (Child Name Place)) :
    Checked (List (Diagnostic Name Place)) :=
  match most with
  | .unbounded => return []
  | .finite most =>
    if most < occurrences.length then do
      let surplus ← entryAt occurrences most
      return [surplus.report (.tooMany name most parent)]
    else return []

/-- Whether the children of a name are too few or too many. -/
def checkCountAt (parent : Text) (name : Name) (bounds : Bounds)
    (children : List (Child Name Place)) : Checked (List (Diagnostic Name Place)) :=
  let occurrences := children.filter (·.name == name)
  if occurrences.length = 0 then return []
  else do
    let few ← checkLeastAt parent name bounds.least occurrences
    let many ← checkMostAt parent name bounds.most occurrences
    return few ++ many

mutual

/-- The defects of children under a model. -/
def ContentModel.checkAt (parent : Text) (children : List (Child Name Place)) :
    ContentModel Name → Checked (List (Diagnostic Name Place))
  | ⟨arrangement, items, _⟩ =>
    match arrangement with
    | .choice => checkChoiceAt parent items children
    | .sequence => Item.checkAllAt parent children items
    | .interleave => Item.checkAllAt parent children items
    | .group => Item.checkAllAt parent children items
    | .empty =>
      if children.isEmpty then return []
      else do
        let first ← entryAt children 0
        return [first.report (.notEmpty parent)]
    | .element => return []
    | .text => return []

/-- The defects of children under each item of a list. -/
def Item.checkAllAt (parent : Text) (children : List (Child Name Place)) :
    List (Item Name) → Checked (List (Diagnostic Name Place))
  | [] => return []
  | item :: items => do
    let first ← item.checkAt parent children
    let rest ← Item.checkAllAt parent children items
    return first ++ rest

/-- The defects of children under an item. An item is an element, a group, text or a pattern, so no
kind is left over. -/
def Item.checkAt (parent : Text) (children : List (Child Name Place)) :
    Item Name → Checked (List (Diagnostic Name Place))
  | .element name bounds => checkCountAt parent name bounds children
  | .group content _ => content.checkAt parent children
  | .text _ => return []
  | .pattern _ _ => return []

end

variable {parent : Text} {children : List (Child Name Place)}

/-- An alternative that is in use once some children have been looked at was in use before, or is
one of the choice and a child belongs to it. -/
theorem mem_foldl_usedAlternatives {alternatives before : List (List Name × Nat)}
    {used : List Name × Nat}
    (h : used ∈ children.foldl
      (fun used child =>
        used ++ alternatives.filter fun (names, i) =>
          names.elem child.name && !used.any fun (_, j) => i == j) before) :
    used ∈ before ∨ used ∈ alternatives ∧ ∃ child ∈ children, used.1.elem child.name = true := by
  induction children generalizing before with
  | nil => exact Or.inl h
  | cons child children ih =>
    rcases ih h with h | ⟨hmem, other, hother, hname⟩
    · rcases List.mem_append.mp h with h | h
      · exact Or.inl h
      · obtain ⟨hmem, htest⟩ := List.mem_filter.mp h
        exact Or.inr ⟨hmem, child, List.mem_cons_self, (Bool.and_eq_true_iff.mp htest).1⟩
    · exact Or.inr ⟨hmem, other, List.mem_cons_of_mem child hother, hname⟩

/-- An alternative that is in use is one of the choice, and a child belongs to it. -/
theorem exists_of_mem_usedAlternatives {alternatives : List (List Name × Nat)}
    {used : List Name × Nat} (h : used ∈ usedAlternatives alternatives children) :
    used ∈ alternatives ∧ ∃ child ∈ children, used.1.elem child.name = true :=
  (mem_foldl_usedAlternatives h).resolve_left List.not_mem_nil

/-- **A choice.** An alternative that is in use is there under its number, and has a child. -/
theorem checkChoiceAt_eq (parent : Text) (items : List (Item Name))
    (children : List (Child Name Place)) :
    checkChoiceAt parent items children = .ok (checkChoice parent items children) := by
  have hused : ∀ used ∈ usedAlternatives (alternatives items) children,
      ((items.map Item.names).filter fun names => !names.isEmpty)[used.2]? = some used.1 ∧
        ∃ child ∈ children, used.1.elem child.name = true := by
    intro used hused
    obtain ⟨hmem, hchild⟩ := exists_of_mem_usedAlternatives hused
    exact ⟨List.mem_zipIdx_iff_getElem?.mp hmem, hchild⟩
  unfold checkChoiceAt checkChoice
  generalize usedAlternatives (alternatives items) children = used at hused ⊢
  match used with
  | [] => rfl
  | [_] => rfl
  | (first, i) :: (second, j) :: _ =>
    obtain ⟨hfirst, child, hmem, hname⟩ := hused (first, i) List.mem_cons_self
    obtain ⟨hsecond, -⟩ := hused (second, j) (List.mem_cons_of_mem _ List.mem_cons_self)
    obtain ⟨other, hother⟩ : ∃ other, (children.find? fun c => first.elem c.name) = some other :=
      Option.isSome_iff_exists.mp (List.find?_isSome.mpr ⟨child, hmem, hname⟩)
    simp only [List.map_cons, List.length_cons]
    rw [if_neg (by omega), entryAt_zero, ok_bind, entryAt_one, ok_bind, entryAt_of_getElem? hfirst,
      ok_bind, entryAt_of_getElem? hsecond, ok_bind, firstOf, hother, ok_bind]
    cases children.find? fun c => second.elem c.name && !first.elem c.name <;> rfl

/-- **A count.** A name that occurs has a first occurrence, and one that occurs too often has the
occurrence that is too many. -/
theorem checkCountAt_eq (parent : Text) (name : Name) (bounds : Bounds)
    (children : List (Child Name Place)) :
    checkCountAt parent name bounds children = .ok (checkCount parent name bounds children) := by
  unfold checkCountAt checkCount
  cases children.filter (·.name == name) with
  | nil => rfl
  | cons first rest =>
    have hleast : checkLeastAt parent name bounds.least (first :: rest)
        = .ok (if (first :: rest).length < bounds.least then
            [first.report (.tooFew name bounds.least parent)] else []) := by
      rw [checkLeastAt]
      split <;> rfl
    have hne : ¬ (first :: rest).length = 0 := Nat.succ_ne_zero _
    simp only
    rw [if_neg hne, hleast, ok_bind]
    unfold checkMostAt
    cases bounds.most with
    | unbounded => rfl
    | finite most =>
      simp only
      by_cases hmost : most < (first :: rest).length
      · have hsurplus : (first :: rest)[most]? = some (first :: rest)[most] :=
          List.getElem?_eq_getElem hmost
        rw [if_pos hmost, entryAt_of_getElem? hsurplus, hsurplus]
        rfl
      · rw [if_neg hmost, List.getElem?_eq_none (Nat.le_of_not_lt hmost)]
        rfl

mutual

theorem ContentModel.checkAt_eq (m : ContentModel Name) :
    m.checkAt parent children = .ok (m.check parent children) := by
  obtain ⟨arrangement, items, bounds⟩ := m
  cases arrangement with
  | choice => exact checkChoiceAt_eq parent items children
  | sequence => exact Item.checkAllAt_eq items
  | interleave => exact Item.checkAllAt_eq items
  | group => exact Item.checkAllAt_eq items
  | empty => cases children <;> rfl
  | element => rfl
  | text => rfl

theorem Item.checkAllAt_eq (items : List (Item Name)) :
    Item.checkAllAt parent children items = .ok (Item.checkAll parent children items) := by
  cases items with
  | nil => rfl
  | cons item items =>
    rw [Item.checkAllAt, Item.checkAt_eq item, ok_bind, Item.checkAllAt_eq items, ok_bind]
    rfl

theorem Item.checkAt_eq (item : Item Name) :
    item.checkAt parent children = .ok (item.check parent children) := by
  cases item with
  | element name bounds => exact checkCountAt_eq parent name bounds children
  | text bounds => rfl
  | group content bounds => exact ContentModel.checkAt_eq content
  | pattern name bounds => rfl

end

end

/-! ### Tags -/

variable {Name : Type} [Label Name]

namespace OpenTags

/-- The innermost open element, if any is open. -/
def innermostAt (stack : List (OpenTag Name)) : Checked (Option (OpenTag Name)) :=
  if stack.isEmpty then return none
  else do
    let frame ← lastOf stack
    return some frame

/-- The innermost open element, which has to be there, and those that it stands in. -/
def popAt (stack : List (OpenTag Name)) : Checked (OpenTag Name × List (OpenTag Name)) := do
  let frame ← lastOf stack
  return (frame, stack.dropLast)

/-- Records a child of the innermost open element, if any is open. -/
def addChildAt (tag : Tag) (stack : List (OpenTag Name)) : Checked (List (OpenTag Name)) :=
  if stack.isEmpty then return stack
  else do
    let (frame, outer) ← popAt stack
    return outer ++ [frame.withChild tag]

/-- The nearest open element of a name below a depth, and those that it stands in. -/
def closeBelow (name : Text) (stack : List (OpenTag Name)) :
    Nat → Checked (Option (OpenTag Name × List (OpenTag Name)))
  | 0 => return none
  | depth + 1 => do
    let frame ← entryAt stack depth
    if frame.name = name then
      let closed ← popAt (stack.take (depth + 1))
      return some closed
    else closeBelow name stack depth

/-- The nearest open element of a name, and those that it stands in. The innermost element is looked
at first, and then all of them. -/
def closeToAt (name : Text) (stack : List (OpenTag Name)) :
    Checked (Option (OpenTag Name × List (OpenTag Name))) := do
  let innermost ← innermostAt stack
  if innermost.any fun frame => frame.name = name then
    let closed ← popAt stack
    return some closed
  else closeBelow name stack stack.length

omit [Label Name] in
theorem innermostAt_eq (stack : OpenTags Name) : innermostAt stack.reverse = .ok stack.head? := by
  cases stack with
  | nil => rfl
  | cons frame outer =>
    rw [innermostAt, List.reverse_cons, if_neg (by simp), lastOf_concat]
    rfl

omit [Label Name] in
theorem popAt_eq (frame : OpenTag Name) (outer : OpenTags Name) :
    popAt (frame :: outer).reverse = .ok (frame, outer.reverse) := by
  rw [popAt, List.reverse_cons, lastOf_concat, ok_bind, List.dropLast_concat]
  rfl

theorem addChildAt_eq (tag : Tag) (stack : OpenTags Name) :
    addChildAt tag stack.reverse = .ok (stack.addChild tag).reverse := by
  cases stack with
  | nil => rfl
  | cons frame outer =>
    rw [addChildAt, if_neg (by simp), popAt_eq, ok_bind, addChild, List.reverse_cons]
    rfl

omit [Label Name] in
/-- Below a depth are the elements that are open there. -/
theorem closeBelow_eq (name : Text) (opened stack : OpenTags Name) :
    closeBelow name (opened ++ stack).reverse stack.length
      = .ok ((stack.closeTo name).map fun (frame, outer) => (frame, outer.reverse)) := by
  -- on the elements below the depth: `opened` are those that have been looked at
  induction stack generalizing opened with
  | nil => rfl
  | cons frame outer ih =>
    have hsplit : (opened ++ frame :: outer).reverse
        = (frame :: outer).reverse ++ opened.reverse := List.reverse_append
    have hframe : (opened ++ frame :: outer).reverse[outer.length]? = some frame := by
      rw [hsplit, List.reverse_cons, List.append_assoc, List.getElem?_append_right (by simp)]
      simp
    have htake : (opened ++ frame :: outer).reverse.take (outer.length + 1)
        = (frame :: outer).reverse := by
      rw [hsplit]
      exact List.take_left' (by simp)
    rw [List.length_cons, closeBelow, entryAt_of_getElem? hframe, ok_bind, closeTo]
    split
    · rw [htake, popAt_eq]
      rfl
    · have hrest := ih (opened ++ [frame])
      rwa [List.append_assoc, List.singleton_append] at hrest

omit [Label Name] in
theorem closeToAt_eq (name : Text) (stack : OpenTags Name) :
    closeToAt name stack.reverse
      = .ok ((stack.closeTo name).map fun (frame, outer) => (frame, outer.reverse)) := by
  have hall := closeBelow_eq name [] stack
  rw [List.nil_append] at hall
  rw [closeToAt, innermostAt_eq, ok_bind, List.length_reverse, hall]
  cases stack with
  | nil => rfl
  | cons frame outer =>
    rw [popAt_eq, closeTo]
    by_cases hname : frame.name = name <;> simp [hname]

end OpenTags

open OpenTags

namespace Schema

/-- The defects of an opening or self-closing tag. -/
def checkOpeningAt (s : Schema Name) (stack : List (OpenTag Name)) (tag : Tag) :
    Checked (List (Diagnostic Name)) :=
  match s.element? (Label.ofText tag.name) with
  | none => return [⟨.unknownElement tag.name, tag.position⟩]
  | some _ => do
    let parent ← innermostAt stack
    return checkNesting parent tag ++ s.checkAttributes tag

/-- The defects of an element's children. -/
def checkClosingAt (frame : OpenTag Name) : Checked (List (Diagnostic Name)) :=
  match frame.spec.bind ElementSpec.model? with
  | none => return []
  | some m => do
    let children := frame.reversedChildren.reverse
    let missing := m.requiredChildren.filter fun name => !children.any fun c => c.name == name
    let found ← m.checkAt frame.name children
    return found ++ missing.map fun name => ⟨.missingChild frame.name name, frame.position⟩

/-- The open elements and the defects after one more tag. -/
def stepAt (s : Schema Name) (stack : List (OpenTag Name)) (tag : Tag) :
    Checked (List (OpenTag Name) × List (Diagnostic Name)) :=
  match tag.kind with
  | .closing => do
    match ← closeToAt tag.name stack with
    | none => return (stack, [])
    | some (frame, outer) =>
      let found ← checkClosingAt frame
      return (outer, found)
  | .opening => do
    let found ← s.checkOpeningAt stack tag
    let outer ← addChildAt tag stack
    return (outer ++ [s.opened tag], found)
  | .selfClosing => do
    let found ← s.checkOpeningAt stack tag
    let outer ← addChildAt tag stack
    return (outer, found ++ checkSelfClosing (s.element? (Label.ofText tag.name)) tag)

/-- The defects of a run of tags. -/
def walkAt (s : Schema Name) :
    List (OpenTag Name) → List Tag → Checked (List (Diagnostic Name))
  | stack, [] => return stack.map fun frame => ⟨.unclosed frame.name, frame.position⟩
  | stack, tag :: tags => do
    let (stack, found) ← s.stepAt stack tag
    let rest ← walkAt s stack tags
    return found ++ rest

theorem checkOpeningAt_eq (s : Schema Name) (stack : OpenTags Name) (tag : Tag) :
    s.checkOpeningAt stack.reverse tag = .ok (s.checkOpening stack.head? tag) := by
  rw [checkOpeningAt, checkOpening]
  cases s.element? (Label.ofText tag.name) with
  | none => rfl
  | some spec =>
    rw [innermostAt_eq]
    rfl

theorem checkClosingAt_eq (frame : OpenTag Name) :
    checkClosingAt frame = .ok (checkClosing frame) := by
  rw [checkClosingAt, checkClosing]
  cases frame.spec.bind ElementSpec.model? with
  | none => rfl
  | some m =>
    simp only [m.checkAt_eq]
    rfl

theorem stepAt_eq (s : Schema Name) (stack : OpenTags Name) (tag : Tag) :
    s.stepAt stack.reverse tag = .ok ((s.step stack tag).1.reverse, (s.step stack tag).2) := by
  rw [stepAt, step]
  cases tag.kind with
  | opening =>
    simp only [checkOpeningAt_eq, addChildAt_eq, ok_bind, List.reverse_cons]
    rfl
  | selfClosing =>
    simp only [checkOpeningAt_eq, addChildAt_eq, ok_bind]
    rfl
  | closing =>
    simp only [closeToAt_eq, ok_bind]
    cases stack.closeTo tag.name with
    | none => rfl
    | some closed =>
      simp only [Option.map_some, checkClosingAt_eq, ok_bind]
      rfl

/-- **The run with indices is the run,** and nothing goes wrong in it. -/
theorem walkAt_eq (s : Schema Name) (stack : OpenTags Name) (tags : List Tag) :
    s.walkAt stack.reverse tags = .ok (s.walk stack tags) := by
  induction tags generalizing stack with
  | nil => rfl
  | cons tag tags ih =>
    rw [walkAt, stepAt_eq, ok_bind]
    simp only [ih, ok_bind]
    rfl

end Schema

/-! ### Messages -/

namespace Finding

theorem mem_of_mem_takeUpTo {α : Type} {limit : Int} {xs : List α} {x : α}
    (h : x ∈ takeUpTo limit xs) : x ∈ xs := by
  cases limit with
  | ofNat n => exact List.mem_of_mem_take h
  | negSucc n => exact List.mem_of_mem_take h

theorem exists_preview? (limit : Int) {names : List Name}
    (h : ∀ n ∈ names, ∃ t, Label.text? n = some t) :
    ∃ shown, preview? (some limit) names = some shown := by
  have hshown : ∀ names : List Name, (∀ n ∈ names, ∃ t, Label.text? n = some t) →
      ∃ shown, names.mapM Label.text? = some shown := by
    intro names h
    induction names with
    | nil => exact ⟨[], rfl⟩
    | cons name names ih =>
      obtain ⟨t, ht⟩ := h name List.mem_cons_self
      obtain ⟨shown, hshown⟩ := ih fun n hn => h n (List.mem_cons_of_mem name hn)
      refine ⟨t :: shown, ?_⟩
      rw [List.mapM_cons, ht, hshown]
      rfl
  obtain ⟨shown, hshown⟩ :=
    hshown (takeUpTo limit names) fun n hn => h n (mem_of_mem_takeUpTo hn)
  rw [preview?]
  simp only [Option.bind_eq_bind, Option.bind_some, hshown]
  exact ⟨_, rfl⟩

/-- Up to limits that are integers, every finding can be worded that lists only texts. -/
theorem exists_message? (values children : Int) {finding : Finding Name}
    (h : ∀ n ∈ finding.listed, ∃ t, Label.text? n = some t) :
    ∃ message, finding.message? ⟨some values, some children⟩ = some message := by
  cases finding with
  | invalidValue value attr allowed =>
    obtain ⟨shown, hshown⟩ : ∃ shown, preview? (some values) allowed = some shown :=
      exists_preview? values h
    rw [message?, hshown]
    exact ⟨_, rfl⟩
  | selfClosing element required =>
    obtain ⟨shown, hshown⟩ : ∃ shown, preview? (some children) required = some shown :=
      exists_preview? children h
    rw [message?, hshown]
    exact ⟨_, rfl⟩
  | _ => exact ⟨_, rfl⟩

end Finding

namespace Diagnostic

variable {Place : Type}

/-- The report of a diagnostic, for which there has to be a wording. -/
def reportAt (limits : PreviewLimits) (d : Diagnostic Name Place) : Checked (Report Place) :=
  (d.report limits).mapError fun _ => .unworded

theorem exists_report (values children : Int) {d : Diagnostic Name Place}
    (h : ∀ n ∈ d.finding.listed, ∃ t, Label.text? n = some t) :
    ∃ report, d.report ⟨some values, some children⟩ = .ok report := by
  obtain ⟨message, hmessage⟩ := Finding.exists_message? values children h
  rw [report, hmessage]
  exact ⟨_, rfl⟩

theorem exists_reportAt (values children : Int) (ds : List (Diagnostic Text Place)) :
    ∃ reports, ds.mapM (reportAt ⟨some values, some children⟩) = .ok reports ∧
      ds.mapM (report ⟨some values, some children⟩) = .ok reports := by
  induction ds with
  | nil => exact ⟨[], rfl, rfl⟩
  | cons d ds ih =>
    obtain ⟨reports, hreportsAt, hreports⟩ := ih
    obtain ⟨first, hfirst⟩ := exists_report values children fun n _ => ⟨n, rfl⟩
    refine ⟨first :: reports, ?_, ?_⟩
    · rw [List.mapM_cons, reportAt, hfirst, hreportsAt]
      rfl
    · rw [List.mapM_cons, hfirst, hreports]
      rfl

end Diagnostic

/-! ### Documents -/

namespace Schema

/-- The reports on the structure of a document. -/
def reportsAt (s : Schema Name) (limits : PreviewLimits) (document : Text) :
    Checked (List Report) := do
  let tags ← tagsFrom (LineIndex.ofText document) document 0
  let found ← s.walkAt [] tags
  found.mapM (Diagnostic.reportAt limits)

/-- **The check of a document never goes wrong,** and comes to what it is without indices: whatever
the document, whatever the schema, and whatever integers limit its messages. -/
theorem exists_reportsAt (s : Schema Text) (values children : Int) (document : Text) :
    ∃ reports, s.reportsAt ⟨some values, some children⟩ document = .ok reports ∧
      (Validation.checked (s.checkStructure document)).reports ⟨some values, some children⟩
        = .ok reports := by
  have hwalk : s.walkAt [] (Tag.ofText document) = .ok (s.checkStructure document) :=
    s.walkAt_eq [] (Tag.ofText document)
  rw [reportsAt, tagsFrom_zero, ok_bind, hwalk, ok_bind]
  exact Diagnostic.exists_reportAt values children (s.checkStructure document)

end Schema

end MarkupGrammar
