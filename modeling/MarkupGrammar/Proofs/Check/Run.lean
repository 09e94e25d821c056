import MarkupGrammar.Check.Structure
import MarkupGrammar.Proofs.Check.Conformance

/-!
# Runs over tags

What is known of an element while it is open carries what can be said of the defects of a run. It is
learnt as the element opens, it has to survive each child that is recorded, and it is used when the
element closes, or when nothing does.

What is reported of one tag is said here once, by one lemma for each of the checks, so that nothing
else has to look into them.

## Main definitions

* `IsMisvalued` — an attribute whose value is not among those that its definition enumerates
* `ListsFrom` — where the names come from that a defect lists

## Main results

* `step_cases` — all that one tag can do
* `mem_checkOpening_cases`, `mem_checkAttribute_iff` — what is reported of a tag as it opens an
  element
* `mem_checkClosing_cases` — and as it closes one
* `forall_mem_walk` — what holds of every defect of a run
* `listsFrom_of_mem_checkTags` — where the names come from that defects list
-/

namespace MarkupGrammar

variable {Name : Type} [Label Name]

/-- The open element with one more child. -/
def OpenTag.withChild (frame : OpenTag Name) (tag : Tag) : OpenTag Name :=
  { frame with
    reversedChildren := ⟨Label.ofText tag.name, tag.position⟩ :: frame.reversedChildren }

namespace OpenTags

theorem forall_addChild {P : OpenTag Name → Prop} {stack : OpenTags Name} {tag : Tag}
    (hstack : ∀ frame ∈ stack, P frame) (hchild : ∀ frame, P frame → P (frame.withChild tag)) :
    ∀ frame ∈ stack.addChild tag, P frame := by
  cases stack with
  | nil => exact hstack
  | cons innermost outer =>
    intro frame hframe
    rcases List.mem_cons.mp hframe with rfl | hframe
    · exact hchild innermost (hstack innermost List.mem_cons_self)
    · exact hstack frame (List.mem_cons_of_mem _ hframe)

omit [Label Name] in
/-- What closes is an open element of the name, with those that were opened since. -/
theorem exists_of_closeTo {name : Text} {stack rest : OpenTags Name} {frame : OpenTag Name}
    (h : stack.closeTo name = some (frame, rest)) :
    frame.name = name ∧ ∃ passed, stack = passed ++ frame :: rest := by
  induction stack with
  | nil => exact nomatch h
  | cons innermost outer ih =>
    rw [closeTo] at h
    split at h
    · next hname =>
      obtain ⟨rfl, rfl⟩ := Prod.mk.inj (Option.some.inj h)
      exact ⟨hname, [], rfl⟩
    · obtain ⟨hname, passed, hpassed⟩ := ih h
      exact ⟨hname, innermost :: passed, congrArg (innermost :: ·) hpassed⟩

end OpenTags

namespace Schema

variable {s : Schema Name}

/-- The element that a tag opens. -/
def opened (s : Schema Name) (tag : Tag) : OpenTag Name :=
  ⟨tag.name, tag.position, s.element? (Label.ofText tag.name), []⟩

/-- **All that one tag can do.** It opens an element, stands for a whole one, closes an open one
with those inside it, or is passed over. -/
theorem step_cases (s : Schema Name) (stack : OpenTags Name) (tag : Tag) :
    (tag.kind = .opening ∧
      s.step stack tag = (s.opened tag :: stack.addChild tag, s.checkOpening stack.head? tag)) ∨
    (tag.kind = .selfClosing ∧
      s.step stack tag = (stack.addChild tag, s.checkOpening stack.head? tag
        ++ checkSelfClosing (s.element? (Label.ofText tag.name)) tag)) ∨
    (tag.kind = .closing ∧ ∃ passed frame rest, stack = passed ++ frame :: rest ∧
      frame.name = tag.name ∧ s.step stack tag = (rest, checkClosing frame)) ∨
    (tag.kind = .closing ∧ s.step stack tag = (stack, [])) := by
  rw [step]
  cases tag.kind with
  | opening => exact Or.inl ⟨rfl, rfl⟩
  | selfClosing => exact Or.inr (Or.inl ⟨rfl, rfl⟩)
  | closing =>
    cases hclose : stack.closeTo tag.name with
    | none => exact Or.inr (Or.inr (Or.inr ⟨rfl, rfl⟩))
    | some closed =>
      obtain ⟨frame, rest⟩ := closed
      obtain ⟨hname, passed, hpassed⟩ := OpenTags.exists_of_closeTo hclose
      exact Or.inr (Or.inr (Or.inl ⟨rfl, passed, frame, rest, hpassed, hname, rfl⟩))

/-! ### What is reported of a tag -/

/-- An attribute is not empty and has a value other than those that its definition enumerates. -/
structure IsMisvalued (declared : List (AttributeSpec Name)) (attr : Attribute) (value : Text)
    (allowed : List Name) : Prop where
  not_namespace : isNamespaceDeclaration attr.name = false
  enumerates : ∃ spec, (declared.find? fun a => a.name == Label.ofText attr.name) = some spec ∧
    spec.values = some allowed
  allowed_ne_nil : allowed ≠ []
  value_eq : attr.value = some value
  value_ne_nil : value ≠ []
  not_elem : allowed.elem (Label.ofText value) = false

/-- What is reported of an attribute: it is unknown, or its value is not among those that are
enumerated. -/
theorem mem_checkAttribute_iff {declared : List (AttributeSpec Name)} {tag : Tag} {attr : Attribute}
    {d : Diagnostic Name} :
    d ∈ checkAttribute declared tag attr ↔
      (isNamespaceDeclaration attr.name = false ∧
        (declared.find? fun a => a.name == Label.ofText attr.name) = none ∧
        d = ⟨.unknownAttribute attr.name tag.name, attr.position⟩) ∨
      ∃ value allowed, IsMisvalued declared attr value allowed ∧
        d = ⟨.invalidValue value attr.name allowed, attr.position⟩ := by
  constructor
  · intro hd
    unfold checkAttribute at hd
    split at hd
    · exact nomatch hd
    · next hnamespace =>
      have hnamespace := Bool.eq_false_iff.mpr hnamespace
      split at hd
      · next hfind => exact Or.inl ⟨hnamespace, hfind, List.mem_singleton.mp hd⟩
      · next spec hfind =>
        split at hd
        · next v vs c value hvalues hvalue =>
          split at hd
          · exact nomatch hd
          · next helem =>
            exact Or.inr ⟨c :: value, v :: vs, ⟨hnamespace, ⟨spec, hfind, hvalues⟩,
              List.cons_ne_nil v vs, hvalue, List.cons_ne_nil c value,
              Bool.eq_false_iff.mpr helem⟩, List.mem_singleton.mp hd⟩
        · exact nomatch hd
  · rintro (⟨hnamespace, hfind, rfl⟩ | ⟨value, allowed, h, rfl⟩)
    · simp only [checkAttribute, hnamespace, hfind, Bool.false_eq_true, if_false,
        List.mem_singleton]
    · obtain ⟨hnamespace, ⟨spec, hfind, hvalues⟩, hallowed, hvalue, hne, helem⟩ := h
      obtain ⟨v, vs, rfl⟩ := List.exists_cons_of_ne_nil hallowed
      obtain ⟨c, value, rfl⟩ := List.exists_cons_of_ne_nil hne
      simp only [checkAttribute, hnamespace, hfind, hvalues, hvalue, helem, Bool.false_eq_true,
        if_false, List.mem_singleton]

/-- **What is reported of a tag as it opens an element or stands for one.** -/
theorem mem_checkOpening_cases {parent : Option (OpenTag Name)} {tag : Tag} {d : Diagnostic Name}
    (hd : d ∈ s.checkOpening parent tag) :
    d = ⟨.unknownElement tag.name, tag.position⟩ ∨
    (∃ name, d = ⟨.invalidNesting tag.name name, tag.position⟩) ∨
    (∃ attr ∈ tag.attributes,
      d ∈ checkAttribute (s.attributesOf (Label.ofText tag.name)) tag attr) ∨
    ∃ name, d = ⟨.missingAttribute name tag.name, tag.position⟩ := by
  unfold checkOpening at hd
  split at hd
  · exact Or.inl (List.mem_singleton.mp hd)
  · rcases List.mem_append.mp hd with hd | hd
    · unfold checkNesting at hd
      cases parent with
      | none => exact nomatch hd
      | some frame =>
        simp only at hd
        split at hd
        · exact nomatch hd
        · split at hd
          · exact nomatch hd
          · exact Or.inr (Or.inl ⟨frame.name, List.mem_singleton.mp hd⟩)
    · rcases List.mem_append.mp hd with hd | hd
      · exact Or.inr (Or.inr (Or.inl (List.mem_flatMap.mp hd)))
      · obtain ⟨a, -, rfl⟩ := List.mem_map.mp hd
        exact Or.inr (Or.inr (Or.inr ⟨a.name, rfl⟩))

/-- What is reported of a tag that closes itself: its element's model asks for children. -/
theorem exists_of_mem_checkSelfClosing {spec : Option (ElementSpec Name)} {tag : Tag}
    {d : Diagnostic Name} (hd : d ∈ checkSelfClosing spec tag) :
    ∃ m, spec.bind ElementSpec.model? = some m ∧
      d = ⟨.selfClosing tag.name m.requiredChildren, tag.position⟩ := by
  unfold checkSelfClosing at hd
  split at hd
  · exact nomatch hd
  · next m hm =>
    split at hd
    · exact nomatch hd
    · split at hd
      · exact nomatch hd
      · next c cs hrequired =>
        rw [← hrequired] at hd
        exact ⟨m, hm, List.mem_singleton.mp hd⟩

/-- **What is reported of an element as it closes:** the defect of a child that it has recorded, or
that it misses one. -/
theorem mem_checkClosing_cases {frame : OpenTag Name} {d : Diagnostic Name}
    (hd : d ∈ checkClosing frame) :
    (∃ child ∈ frame.reversedChildren, d.position = child.position ∧
      d.finding.IsOfChild frame.name child.name) ∨
    ∃ name, d = ⟨.missingChild frame.name name, frame.position⟩ := by
  unfold checkClosing at hd
  split at hd
  · exact nomatch hd
  · next m _ =>
    rcases List.mem_append.mp hd with hd | hd
    · obtain ⟨child, hchild, hreported⟩ := m.exists_of_mem_check hd
      exact Or.inl ⟨child, List.mem_reverse.mp hchild, hreported⟩
    · obtain ⟨name, -, rfl⟩ := List.mem_map.mp hd
      exact Or.inr ⟨name, rfl⟩

/-! ### Runs -/

/-- **What holds of every defect of a run.** `P` is what is known of an open element: it holds as
one of the tags opens the element, and still when one of them is recorded as its child. `Q` then
holds of every defect if it holds of those that a tag gives rise to beside such elements. -/
theorem forall_mem_walk {P : OpenTag Name → Prop} {Q : Diagnostic Name → Prop} {tags : List Tag}
    (hopened : ∀ tag ∈ tags, tag.kind = .opening → P (s.opened tag))
    (hchild : ∀ tag ∈ tags, tag.kind ≠ .closing → ∀ frame, P frame → P (frame.withChild tag))
    (hopening : ∀ tag ∈ tags, tag.kind ≠ .closing → ∀ parent : Option (OpenTag Name),
      ∀ d ∈ s.checkOpening parent tag, Q d)
    (hself : ∀ tag ∈ tags, tag.kind = .selfClosing →
      ∀ d ∈ checkSelfClosing (s.element? (Label.ofText tag.name)) tag, Q d)
    (hclosing : ∀ frame, P frame → ∀ d ∈ checkClosing frame, Q d)
    (hunclosed : ∀ frame, P frame → Q ⟨.unclosed frame.name, frame.position⟩)
    {stack : OpenTags Name} (hstack : ∀ frame ∈ stack, P frame) : ∀ d ∈ s.walk stack tags, Q d := by
  induction tags generalizing stack with
  | nil =>
    intro d hd
    obtain ⟨frame, hframe, rfl⟩ := List.mem_map.mp hd
    exact hunclosed frame (hstack frame (List.mem_reverse.mp hframe))
  | cons tag tags ih =>
    have hrest : ∀ {stack : OpenTags Name}, (∀ frame ∈ stack, P frame) →
        ∀ d ∈ s.walk stack tags, Q d :=
      ih (fun t ht => hopened t (List.mem_cons_of_mem _ ht))
        (fun t ht => hchild t (List.mem_cons_of_mem _ ht))
        (fun t ht => hopening t (List.mem_cons_of_mem _ ht))
        (fun t ht => hself t (List.mem_cons_of_mem _ ht))
    have htag : tag ∈ tag :: tags := List.mem_cons_self
    have hrecorded (hkind : tag.kind ≠ .closing) : ∀ frame ∈ stack.addChild tag, P frame :=
      OpenTags.forall_addChild hstack (hchild tag htag hkind)
    intro d hd
    rw [walk] at hd
    rcases step_cases s stack tag with ⟨hkind, hstep⟩ | ⟨hkind, hstep⟩ |
      ⟨-, passed, frame, rest, rfl, -, hstep⟩ | ⟨-, hstep⟩
    · have hne : tag.kind ≠ .closing := by simp [hkind]
      rw [hstep] at hd
      rcases List.mem_append.mp hd with hd | hd
      · exact hopening tag htag hne _ d hd
      · exact hrest (List.forall_mem_cons.mpr ⟨hopened tag htag hkind, hrecorded hne⟩) d hd
    · have hne : tag.kind ≠ .closing := by simp [hkind]
      rw [hstep] at hd
      rcases List.mem_append.mp hd with hd | hd
      · rcases List.mem_append.mp hd with hd | hd
        · exact hopening tag htag hne _ d hd
        · exact hself tag htag hkind d hd
      · exact hrest (hrecorded hne) d hd
    · have hframes := List.forall_mem_append.mp hstack
      obtain ⟨hframe, hrestFrames⟩ := List.forall_mem_cons.mp hframes.2
      rw [hstep] at hd
      rcases List.mem_append.mp hd with hd | hd
      · exact hclosing frame hframe d hd
      · exact hrest hrestFrames d hd
    · rw [hstep] at hd
      exact hrest hstack d hd

end Schema

/-! ### Findings that list names -/

namespace Finding

/-- The names that the message about a finding lists. -/
def listed : Finding Name → List Name
  | .invalidValue _ _ allowed => allowed
  | .selfClosing _ required => required
  | _ => []

/-- Whether a finding is that a value is not among those that are enumerated. -/
def isInvalidValue : Finding Name → Bool
  | .invalidValue .. => true
  | _ => false

/-- A finding that lists no names. -/
def IsPlain (finding : Finding Name) : Prop :=
  finding.listed = [] ∧ finding.isInvalidValue = false

theorem IsOfChild.isPlain {parent : Text} {child : Name} {finding : Finding Name}
    (h : finding.IsOfChild parent child) : finding.IsPlain := by
  cases finding <;> first | exact ⟨rfl, rfl⟩ | exact h.elim

end Finding

namespace Schema

variable {s : Schema Name}

/-- Where the names come from that a defect of some tags lists: from an attribute with a value other
than those that its definition enumerates, from a tag that closes itself while its element requires
children, or there are none. -/
inductive ListsFrom (s : Schema Name) (tags : List Tag) : Diagnostic Name → Prop where
  | values {tag : Tag} (htag : tag ∈ tags) (hkind : tag.kind ≠ .closing) {attr : Attribute}
    (hattr : attr ∈ tag.attributes) {value : Text} {allowed : List Name}
    (h : IsMisvalued (s.attributesOf (Label.ofText tag.name)) attr value allowed) :
    ListsFrom s tags ⟨.invalidValue value attr.name allowed, attr.position⟩
  | children {tag : Tag} (htag : tag ∈ tags) {m : ContentModel Name}
    (hm : (s.element? (Label.ofText tag.name)).bind ElementSpec.model? = some m) :
    ListsFrom s tags ⟨.selfClosing tag.name m.requiredChildren, tag.position⟩
  | nothing {d : Diagnostic Name} (h : d.finding.IsPlain) : ListsFrom s tags d

/-- **Where the names come from that defects list.** -/
theorem listsFrom_of_mem_checkTags {tags : List Tag} {d : Diagnostic Name}
    (hd : d ∈ s.checkTags tags) : s.ListsFrom tags d := by
  refine forall_mem_walk (P := fun _ => True) (fun _ _ _ => trivial) (fun _ _ _ _ _ => trivial)
    ?_ ?_ ?_ (fun _ _ => .nothing ⟨rfl, rfl⟩) (List.forall_mem_nil _) d hd
  case refine_1 =>
    intro tag htag hkind parent d hd
    rcases mem_checkOpening_cases hd with rfl | ⟨name, rfl⟩ | ⟨attr, hattr, hd⟩ | ⟨name, rfl⟩
    · exact .nothing ⟨rfl, rfl⟩
    · exact .nothing ⟨rfl, rfl⟩
    · rcases mem_checkAttribute_iff.mp hd with ⟨-, -, rfl⟩ | ⟨value, allowed, h, rfl⟩
      · exact .nothing ⟨rfl, rfl⟩
      · exact .values htag hkind hattr h
    · exact .nothing ⟨rfl, rfl⟩
  case refine_2 =>
    intro tag htag _ d hd
    obtain ⟨m, hm, rfl⟩ := exists_of_mem_checkSelfClosing hd
    exact .children htag hm
  case refine_3 =>
    intro frame _ d hd
    rcases mem_checkClosing_cases hd with ⟨child, -, -, hfinding⟩ | ⟨name, rfl⟩
    · exact .nothing hfinding.isPlain
    · exact .nothing ⟨rfl, rfl⟩

end Schema

end MarkupGrammar
