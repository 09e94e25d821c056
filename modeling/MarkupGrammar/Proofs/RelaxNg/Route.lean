import MarkupGrammar.Proofs.RelaxNg.Children
import MarkupGrammar.Proofs.RelaxNg.WrittenOut

/-!
# Routes to attributes

The attributes of an imported element stand in its node, in the patterns there that may hold
attributes, and in the definitions that these refer to. A route says how an attribute node is come
to: past which nodes, each by its place among its siblings, into which definitions, and whether all
that it passes is bound to occur. Routes may enter a definition as often as they like.

## Direct routes

The import enters a definition at most once on the way to an attribute. Such routes are direct.
`Route.From.exists_direct` is loop removal: a route that enters a definition twice can be cut short,
and what is left passes nothing that the route did not pass. So no attribute is missed, and none
that a route is bound to come to is taken for optional.

Without the cut there would be no first route in a circle: a definition that begins with a reference
to itself can be gone round before anything else is met, and once more before that. Direct routes
are finite in number, and the import meets them in the order of their paths, which is the order of
the document.

## Main results

* `Route.From.exists_direct` — loop removal
* `isListing_attributesOfAll` — what the import goes through are the direct routes in their order
-/

namespace MarkupGrammar

namespace RelaxNg

open Pattern

/-- The names of the patterns that may hold attributes of the element that they stand in, each with
whether what they hold is bound to occur. -/
def holders : List (String × Bool) :=
  [("optional", false), ("choice", false), ("zeroOrMore", false),
   ("oneOrMore", true), ("group", true), ("interleave", true)]

theorem eq_of_mem_holders :
    ∀ holder ∈ holders, ∀ other ∈ holders, holder.1 = other.1 → holder.2 = other.2 := by
  decide

/-- Neither attributes nor references hold anything. -/
theorem ne_of_mem_holders : ∀ holder ∈ holders, holder.1 ≠ "attribute" ∧ holder.1 ≠ "ref" := by
  decide

/-- A way to an attribute: the places of the nodes on it, each among its siblings, the definitions
that it enters, whether all that it passes is bound to occur, and the node of the attribute. -/
structure Route where
  path : List Nat
  entered : List Text
  isBinding : Bool
  target : XmlNode

/-- A route from siblings ends at an attribute with a name among them, or it goes on from the
children of a pattern that may hold attributes, or from those of the first definition that a
reference names. -/
inductive Route.From (root : XmlNode) : Route → List XmlNode → Prop
  | here {siblings : List XmlNode} {i : Nat} {node : XmlNode} (hnode : siblings[i]? = some node)
      (hkind : isNamed "attribute" node = true) (hname : nameOf node ≠ []) :
      Route.From root ⟨[i], [], true, node⟩ siblings
  | inside {siblings : List XmlNode} {i : Nat} {node : XmlNode} {word : String} {binds : Bool}
      {r : Route} (hnode : siblings[i]? = some node) (hword : (word, binds) ∈ holders)
      (hkind : isNamed word node = true) (h : Route.From root r node.children) :
      Route.From root ⟨i :: r.path, r.entered, binds && r.isBinding, r.target⟩ siblings
  | definition {siblings : List XmlNode} {i : Nat} {node d : XmlNode} {r : Route}
      (hnode : siblings[i]? = some node) (hkind : isNamed "ref" node = true)
      (hname : nameOf node ≠ []) (hd : named? "define" root (nameOf node) = some d)
      (h : Route.From root r d.children) :
      Route.From root ⟨i :: r.path, nameOf node :: r.entered, r.isBinding, r.target⟩ siblings

/-- A route with a step before it: to a node with a place among its siblings, into definitions, and
bound to occur or not. -/
def Route.after (i : Nat) (names : List Text) (binds : Bool) (r : Route) : Route :=
  ⟨i :: r.path, names ++ r.entered, binds && r.isBinding, r.target⟩

/-- A route is direct if it enters no definition twice. -/
def Route.IsDirect (r : Route) : Prop := r.entered.Nodup

/-- A route precedes another in the order of the document: where they part, it goes to the sibling
that stands before. -/
def Route.Precedes (r s : Route) : Prop := List.Lex (· < ·) r.path s.path

/-- The first of the direct routes to attributes of a name, in the order of the document. -/
structure Route.IsFirst (root : XmlNode) (siblings : List XmlNode) (name : Text) (r : Route) :
    Prop where
  route : r.From root siblings
  direct : r.IsDirect
  named : nameOf r.target = name
  first : ∀ s : Route, s.From root siblings → s.IsDirect → nameOf s.target = name →
    s = r ∨ r.Precedes s

/-! ### Loop removal -/

section Loops

variable {root : XmlNode} {siblings : List XmlNode} {r : Route}

/-- From where a route enters a definition, the rest of it is a route from the definition. -/
theorem Route.From.cut (h : r.From root siblings) {name : Text} (hname : name ∈ r.entered) :
    ∃ d, named? "define" root name = some d ∧ ∃ s : Route, s.From root d.children ∧
      (name :: s.entered).Sublist r.entered ∧ s.target = r.target ∧
        (r.isBinding = true → s.isBinding = true) := by
  induction h with
  | here => exact absurd hname List.not_mem_nil
  | inside hnode hword hkind _ ih =>
    obtain ⟨d, hd, s, hs, hentered, htarget, hbinding⟩ := ih hname
    refine ⟨d, hd, s, hs, hentered, htarget, fun hbinds => hbinding ?_⟩
    exact (Bool.and_eq_true_iff.mp hbinds).2
  | @definition siblings i node d r hnode hkind _ hd h ih =>
    rcases List.mem_cons.mp hname with rfl | hname
    · exact ⟨d, hd, r, h, List.Sublist.refl _, rfl, id⟩
    · obtain ⟨e, he, s, hs, hentered, htarget, hbinding⟩ := ih hname
      exact ⟨e, he, s, hs, hentered.cons _, htarget, hbinding⟩

/-- **Loop removal.** To each attribute that a route leads to there is a direct route, which is
bound to come to it if the route is. -/
theorem Route.From.exists_direct (h : r.From root siblings) :
    ∃ s : Route, s.From root siblings ∧ s.IsDirect ∧ s.target = r.target ∧
      (r.isBinding = true → s.isBinding = true) := by
  induction h with
  | here hnode hkind hname =>
    exact ⟨_, .here hnode hkind hname, List.nodup_nil, rfl, id⟩
  | @inside siblings i node word binds r hnode hword hkind _ ih =>
    obtain ⟨s, hs, hdirect, htarget, hbinding⟩ := ih
    refine ⟨_, .inside hnode hword hkind hs, hdirect, htarget, fun hbinds => ?_⟩
    obtain ⟨hholds, hinner⟩ := Bool.and_eq_true_iff.mp hbinds
    exact Bool.and_eq_true_iff.mpr ⟨hholds, hbinding hinner⟩
  | @definition siblings i node d r hnode hkind hname hd _ ih =>
    obtain ⟨s, hs, hdirect, htarget, hbinding⟩ := ih
    by_cases hentered : nameOf node ∈ s.entered
    · -- the last time that the definition is entered is enough
      obtain ⟨e, he, t, ht, hsublist, htarget', hbinding'⟩ := hs.cut hentered
      obtain rfl := Option.some.inj (hd.symm.trans he)
      exact ⟨_, .definition hnode hkind hname hd ht, hdirect.sublist hsublist,
        htarget'.trans htarget, fun h => hbinding' (hbinding h)⟩
    · exact ⟨_, .definition hnode hkind hname hd hs, List.nodup_cons.mpr ⟨hentered, hdirect⟩,
        htarget, hbinding⟩

end Loops

/-! ### Nodes and their patterns -/

section Nodes

variable {node : XmlNode} {word other : String}

/-- A node has one name only. -/
theorem eq_of_isNamed (h : isNamed word node = true) (hother : isNamed other node = true) :
    word = other := by
  obtain ⟨attributes, children, rfl⟩ := isNamed_iff.mp h
  obtain ⟨_, _, heq⟩ := isNamed_iff.mp hother
  exact Text.ofString_injective (congrArg ExpandedName.stem (XmlNode.element.inj heq).1)

/-- The attribute patterns that the pattern of a node leads to. -/
def attributesOfNode (isRequired : Bool) (left : Table Text (List Pattern)) (node : XmlNode) :
    List (AttributePattern × Bool) :=
  (pattern? node).elim [] fun p => attributesOf isRequired (expand left p)

theorem attributesOfAll_patterns (isRequired : Bool) (left : Table Text (List Pattern))
    (siblings : List XmlNode) :
    attributesOfAll isRequired (expandAll left (patterns siblings))
      = siblings.flatMap (attributesOfNode isRequired left) := by
  induction siblings with
  | nil => rw [patterns, expandAll, attributesOfAll, List.flatMap_nil]
  | cons node siblings ih =>
    rw [patterns, List.flatMap_cons, ← ih, attributesOfNode]
    cases pattern? node with
    | none => rfl
    | some p => rw [expandAll, attributesOfAll]; rfl

variable {isRequired : Bool} {left : Table Text (List Pattern)}

theorem attributesOfNode_of_mem_kinds {p : XmlNode → Pattern} (hkind : (word, p) ∈ kinds)
    (h : isNamed word node = true) :
    attributesOfNode isRequired left node = attributesOf isRequired (expand left (p node)) := by
  rw [attributesOfNode, pattern?_of_isNamed hkind h]
  rfl

theorem attributesOfNode_attribute (h : isNamed "attribute" node = true) :
    attributesOfNode isRequired left node
      = if nameOf node = [] then [] else [(attributePattern node, isRequired)] := by
  have hkind : ("attribute", fun node => .attr (attributePattern node)) ∈ kinds := by simp [kinds]
  rw [attributesOfNode_of_mem_kinds hkind h]
  simp only [expand, attributesOf, attributePattern, List.isEmpty_iff]

theorem attributesOfNode_ref (h : isNamed "ref" node = true) :
    attributesOfNode isRequired left node
      = attributesOf isRequired (expand left (.ref (nameOf node))) := by
  have hkind : ("ref", fun node => .ref (nameOf node)) ∈ kinds := by simp [kinds]
  exact attributesOfNode_of_mem_kinds hkind h

theorem exists_kind_of_mem_holders (isRequired : Bool) (left : Table Text (List Pattern))
    {binds : Bool} (hword : (word, binds) ∈ holders) :
    ∃ p, (word, p) ∈ kinds ∧ ∀ node, attributesOf isRequired (expand left (p node))
      = attributesOfAll (isRequired && binds) (expandAll left (patterns node.children)) := by
  simp only [holders, List.mem_cons, Prod.mk.injEq, List.not_mem_nil, or_false] at hword
  rcases hword with ⟨rfl, rfl⟩ | ⟨rfl, rfl⟩ | ⟨rfl, rfl⟩ | ⟨rfl, rfl⟩ | ⟨rfl, rfl⟩ | ⟨rfl, rfl⟩ <;>
    simp [kinds, expand, attributesOf]

theorem attributesOfNode_of_mem_holders {binds : Bool} (hword : (word, binds) ∈ holders)
    (h : isNamed word node = true) :
    attributesOfNode isRequired left node
      = attributesOfAll (isRequired && binds) (expandAll left (patterns node.children)) := by
  obtain ⟨p, hkind, hp⟩ := exists_kind_of_mem_holders isRequired left hword
  rw [attributesOfNode_of_mem_kinds hkind h, hp]

/-- Every other kind of pattern holds no attributes. -/
theorem attributesOf_expand_kind {kind : String × (XmlNode → Pattern)} (hkind : kind ∈ kinds) :
    kind.1 = "attribute" ∨ kind.1 = "ref" ∨ (∃ binds, (kind.1, binds) ∈ holders) ∨
      attributesOf isRequired (expand left (kind.2 node)) = [] := by
  revert kind
  simp [kinds, holders, expand, attributesOf]

theorem attributesOfNode_eq_nil (hattribute : isNamed "attribute" node = false)
    (href : isNamed "ref" node = false)
    (hholders : ∀ word binds, (word, binds) ∈ holders → isNamed word node = false) :
    attributesOfNode isRequired left node = [] := by
  rw [attributesOfNode]
  cases hp : pattern? node with
  | none => rfl
  | some p =>
    rw [Option.elim_some]
    rcases exists_kind_of_pattern? hp with ⟨name, rfl⟩ | rfl | ⟨kind, hkind, hnamed, rfl⟩
    · simp only [expand, attributesOf]
    · simp only [expand, attributesOf]
    · rcases attributesOf_expand_kind hkind with hword | hword | ⟨binds, hword⟩ | hnone
      · rw [hword, hattribute] at hnamed
        exact absurd hnamed Bool.false_ne_true
      · rw [hword, href] at hnamed
        exact absurd hnamed Bool.false_ne_true
      · rw [hholders _ _ hword] at hnamed
        exact absurd hnamed Bool.false_ne_true
      · exact hnone

end Nodes

/-! ### Listings -/

/-- Attribute patterns, each with whether it is required, are those that certain routes lead to, in
the order of these routes. -/
def IsListing (isRequired : Bool) (found : List (AttributePattern × Bool)) (P : Route → Prop) :
    Prop :=
  ∃ routes : List Route,
    found = routes.map (fun r => (attributePattern r.target, isRequired && r.isBinding)) ∧
      routes.Pairwise Route.Precedes ∧ ∀ r, r ∈ routes ↔ P r

section Listings

variable {isRequired : Bool} {found others : List (AttributePattern × Bool)} {P Q : Route → Prop}

theorem isListing_nil (h : ∀ r, ¬ P r) : IsListing isRequired [] P :=
  ⟨[], rfl, .nil, fun r => iff_of_false List.not_mem_nil (h r)⟩

theorem IsListing.congr (h : IsListing isRequired found P) (hiff : ∀ r, Q r ↔ P r) :
    IsListing isRequired found Q := by
  obtain ⟨routes, hfound, hordered, hmem⟩ := h
  exact ⟨routes, hfound, hordered, fun r => (hmem r).trans (hiff r).symm⟩

theorem IsListing.append (h : IsListing isRequired found P)
    (hothers : IsListing isRequired others Q)
    (hprecedes : ∀ r s : Route, P r → Q s → r.Precedes s) :
    IsListing isRequired (found ++ others) (fun r => P r ∨ Q r) := by
  obtain ⟨routes, rfl, hordered, hmem⟩ := h
  obtain ⟨more, rfl, hordered', hmem'⟩ := hothers
  refine ⟨routes ++ more, List.map_append.symm, ?_, fun r => ?_⟩
  · refine List.pairwise_append.mpr ⟨hordered, hordered', fun r hr s hs => ?_⟩
    exact hprecedes r s ((hmem r).mp hr) ((hmem' s).mp hs)
  · rw [List.mem_append, hmem, hmem']

/-- What is listed behind a node is listed from the node on, if all routes take the same step to
it. -/
theorem IsListing.map {inner binds : Bool} (h : IsListing inner found P)
    (hinner : inner = (isRequired && binds)) (i : Nat) (names : List Text) :
    IsListing isRequired found (fun r => ∃ s : Route, P s ∧ r = s.after i names binds) := by
  subst hinner
  obtain ⟨routes, rfl, hordered, hmem⟩ := h
  refine ⟨routes.map fun s => s.after i names binds, ?_, ?_, fun r => ?_⟩
  · rw [List.map_map]
    refine List.map_congr_left fun s _ => ?_
    rw [Function.comp_apply, Route.after, Bool.and_assoc]
  · exact List.pairwise_map.mpr (hordered.imp fun hprecedes => .cons hprecedes)
  · rw [List.mem_map]
    exact exists_congr fun s => and_congr (hmem s) eq_comm

/-- Routes from siblings are listed if those are that begin at each of them. -/
theorem isListing_flatMap {siblings : List XmlNode} {f : XmlNode → List (AttributePattern × Bool)}
    (hP : ∀ r, P r → ∃ i node path, siblings[i]? = some node ∧ r.path = i :: path)
    (h : ∀ i node, siblings[i]? = some node →
      IsListing isRequired (f node) (fun r => P r ∧ ∃ path, r.path = i :: path)) :
    IsListing isRequired (siblings.flatMap f) P := by
  -- the siblings from some place on, by induction on how many they are
  have hfrom : ∀ before after : List XmlNode, siblings = before ++ after →
      IsListing isRequired (after.flatMap f)
        (fun r => P r ∧ ∃ i path, r.path = i :: path ∧ before.length ≤ i) := by
    intro before after
    induction after generalizing before with
    | nil =>
      rintro rfl
      refine isListing_nil ?_
      rintro r ⟨hr, i, path, hpath, hle⟩
      obtain ⟨j, node, path', hnode, hpath'⟩ := hP r hr
      obtain ⟨rfl, -⟩ := List.cons.inj (hpath.symm.trans hpath')
      rw [List.append_nil, List.getElem?_eq_none hle] at hnode
      exact absurd hnode.symm (Option.some_ne_none _)
    | cons node after ih =>
      intro hsiblings
      have hnode : siblings[before.length]? = some node := by rw [hsiblings]; simp
      have hrest := ih (before ++ [node]) (by rw [hsiblings]; simp)
      rw [List.length_append, List.length_singleton] at hrest
      rw [List.flatMap_cons]
      refine ((h _ node hnode).append hrest ?_).congr fun r => ?_
      · rintro r s ⟨-, path, hr⟩ ⟨-, i, path', hs, hle⟩
        rw [Route.Precedes, hr, hs]
        exact .rel hle
      · constructor
        · rintro ⟨hr, i, path, hpath, hle⟩
          rcases Nat.eq_or_lt_of_le hle with rfl | hlt
          · exact Or.inl ⟨hr, path, hpath⟩
          · exact Or.inr ⟨hr, i, path, hpath, hlt⟩
        · rintro (⟨hr, path, hpath⟩ | ⟨hr, i, path, hpath, hlt⟩)
          · exact ⟨hr, _, path, hpath, Nat.le_refl _⟩
          · exact ⟨hr, i, path, hpath, Nat.le_of_succ_le hlt⟩
  refine (hfrom [] siblings rfl).congr fun r => ⟨fun hr => ?_, And.left⟩
  obtain ⟨i, -, path, -, hpath⟩ := hP r hr
  exact ⟨hr, i, path, hpath, Nat.zero_le i⟩

end Listings

/-! ### What the import goes through -/

/-- The definitions that are left where some have been entered. -/
structure IsLeft (root : XmlNode) (passed : List Text) (left : Table Text (List Pattern)) :
    Prop where
  distinct : left.Distinct
  find?_eq : ∀ name, left.find? name
    = if name ∈ passed then none else (ofXml root).defines.find? name

/-- The direct routes that enter none of some definitions. -/
structure Route.Avoids (root : XmlNode) (passed : List Text) (siblings : List XmlNode) (r : Route) :
    Prop where
  route : r.From root siblings
  direct : r.IsDirect
  avoids : ∀ name ∈ r.entered, name ∉ passed

section Import

variable {root node : XmlNode} {passed : List Text} {left : Table Text (List Pattern)}
  {siblings : List XmlNode} {i : Nat} {isRequired : Bool}

theorem isLeft_defines (root : XmlNode) : IsLeft root [] (ofXml root).defines where
  distinct := distinct_defines_ofXml root
  find?_eq name := by rw [if_neg List.not_mem_nil]

theorem IsLeft.enter (h : IsLeft root passed left) (name : Text) :
    IsLeft root (name :: passed) (left.filter fun e => !(e.1 == name)) where
  distinct := h.distinct.filter _
  find?_eq other := by
    rw [find?_without, h.find?_eq]
    by_cases hother : other = name
    · simp [hother]
    · simp [hother]

/-- Where a definition can be entered, it is the first node of its name. -/
theorem IsLeft.find?_eq_some_iff (h : IsLeft root passed left) {name : Text} {body : List Pattern} :
    left.find? name = some body ↔ name ∉ passed ∧ name ≠ [] ∧
      ∃ d, named? "define" root name = some d ∧ patterns d.children = body := by
  rw [h.find?_eq, find?_defines_ofXml]
  by_cases hpassed : name ∈ passed
  · simp [hpassed]
  · by_cases hname : name = []
    · simp [hname]
    · simp [hpassed, hname]

/-- The routes by one sibling, by what it is. -/
theorem Route.From.cases_of_getElem? {r : Route} (h : r.From root siblings) {path : List Nat}
    (hpath : r.path = i :: path) (hnode : siblings[i]? = some node) :
    (isNamed "attribute" node = true ∧ nameOf node ≠ [] ∧ r = ⟨[i], [], true, node⟩) ∨
    (∃ word binds, (word, binds) ∈ holders ∧ isNamed word node = true ∧
      ∃ s : Route, s.From root node.children ∧ r = s.after i [] binds) ∨
    (isNamed "ref" node = true ∧ nameOf node ≠ [] ∧
      ∃ d, named? "define" root (nameOf node) = some d ∧
        ∃ s : Route, s.From root d.children ∧ r = s.after i [nameOf node] true) := by
  cases h with
  | here hnode' hkind hname =>
    obtain ⟨rfl, -⟩ := List.cons.inj hpath
    obtain rfl := Option.some.inj (hnode.symm.trans hnode')
    exact Or.inl ⟨hkind, hname, rfl⟩
  | inside hnode' hword hkind h =>
    obtain ⟨rfl, -⟩ := List.cons.inj hpath
    obtain rfl := Option.some.inj (hnode.symm.trans hnode')
    exact Or.inr (Or.inl ⟨_, _, hword, hkind, _, h, rfl⟩)
  | definition hnode' hkind hname hd h =>
    obtain ⟨rfl, -⟩ := List.cons.inj hpath
    obtain rfl := Option.some.inj (hnode.symm.trans hnode')
    exact Or.inr (Or.inr ⟨hkind, hname, _, hd, _, h, rfl⟩)

/-- A route by an attribute ends there. -/
theorem Route.From.eq_of_attribute {r : Route} (h : r.From root siblings) {path : List Nat}
    (hpath : r.path = i :: path) (hnode : siblings[i]? = some node)
    (hattribute : isNamed "attribute" node = true) :
    nameOf node ≠ [] ∧ r = ⟨[i], [], true, node⟩ := by
  rcases h.cases_of_getElem? hpath hnode with ⟨-, hname, heq⟩ | ⟨word, binds, hword, hkind, -⟩ |
      ⟨hkind, -⟩
  · exact ⟨hname, heq⟩
  · exact absurd (eq_of_isNamed hkind hattribute) (ne_of_mem_holders _ hword).1
  · exact absurd (eq_of_isNamed hkind hattribute) (by decide)

/-- A route by a pattern that may hold attributes goes on from its children. -/
theorem Route.From.exists_of_holder {r : Route} (h : r.From root siblings) {path : List Nat}
    (hpath : r.path = i :: path) (hnode : siblings[i]? = some node) {word : String} {binds : Bool}
    (hword : (word, binds) ∈ holders) (hkind : isNamed word node = true) :
    ∃ s : Route, s.From root node.children ∧ r = s.after i [] binds := by
  rcases h.cases_of_getElem? hpath hnode with ⟨hattribute, -⟩ |
      ⟨other, holds, hother, hkind', hroute⟩ | ⟨href, -⟩
  · exact absurd (eq_of_isNamed hkind hattribute) (ne_of_mem_holders _ hword).1
  · obtain rfl := eq_of_isNamed hkind hkind'
    obtain rfl : binds = holds := eq_of_mem_holders _ hword _ hother rfl
    exact hroute
  · exact absurd (eq_of_isNamed hkind href) (ne_of_mem_holders _ hword).2

/-- A route by a reference goes on from the definition. -/
theorem Route.From.exists_of_ref {r : Route} (h : r.From root siblings) {path : List Nat}
    (hpath : r.path = i :: path) (hnode : siblings[i]? = some node)
    (href : isNamed "ref" node = true) :
    nameOf node ≠ [] ∧ ∃ d, named? "define" root (nameOf node) = some d ∧
      ∃ s : Route, s.From root d.children ∧ r = s.after i [nameOf node] true := by
  rcases h.cases_of_getElem? hpath hnode with ⟨hattribute, -⟩ | ⟨word, binds, hword, hkind, -⟩ |
      ⟨-, hroute⟩
  · exact absurd (eq_of_isNamed href hattribute) (by decide)
  · exact absurd (eq_of_isNamed hkind href) (ne_of_mem_holders _ hword).2
  · exact hroute

/-- Every route begins at one of the siblings. -/
theorem Route.From.exists_getElem? {r : Route} (h : r.From root siblings) :
    ∃ i node path, siblings[i]? = some node ∧ r.path = i :: path := by
  cases h with
  | here hnode => exact ⟨_, _, _, hnode, rfl⟩
  | inside hnode => exact ⟨_, _, _, hnode, rfl⟩
  | definition hnode => exact ⟨_, _, _, hnode, rfl⟩

/-- The routes that begin at one of the siblings are listed by what the sibling leads to. -/
def IsListingBy (root : XmlNode) (passed : List Text) (left : Table Text (List Pattern))
    (siblings : List XmlNode) (isRequired : Bool) (i : Nat) (node : XmlNode) : Prop :=
  IsListing isRequired (attributesOfNode isRequired left node)
    (fun r => r.Avoids root passed siblings ∧ ∃ path, r.path = i :: path)

/-- By an attribute there is one route, if the attribute has a name. -/
theorem isListingBy_attribute (hnode : siblings[i]? = some node)
    (hattribute : isNamed "attribute" node = true) :
    IsListingBy root passed left siblings isRequired i node := by
  have hroutes : ∀ r : Route, (r.Avoids root passed siblings ∧ ∃ path, r.path = i :: path) ↔
      nameOf node ≠ [] ∧ r = ⟨[i], [], true, node⟩ := by
    intro r
    constructor
    · rintro ⟨hr, path, hpath⟩
      exact hr.route.eq_of_attribute hpath hnode hattribute
    · rintro ⟨hname, rfl⟩
      exact ⟨⟨.here hnode hattribute hname, List.nodup_nil, List.forall_mem_nil _⟩, [], rfl⟩
  rw [IsListingBy, attributesOfNode_attribute hattribute]
  by_cases hname : nameOf node = []
  · rw [if_pos hname]
    exact isListing_nil fun r hr => ((hroutes r).mp hr).1 hname
  · rw [if_neg hname]
    refine ⟨[⟨[i], [], true, node⟩], ?_, List.pairwise_singleton _ _, fun r => ?_⟩
    · rw [List.map_singleton, Bool.and_true]
    · exact List.mem_singleton.trans ((and_iff_right hname).symm.trans (hroutes r).symm)

/-- By a pattern that may hold attributes there are the routes from its children. -/
theorem isListingBy_holder (hnode : siblings[i]? = some node) {word : String} {binds : Bool}
    (hword : (word, binds) ∈ holders) (hkind : isNamed word node = true)
    (h : IsListing (isRequired && binds)
      (attributesOfAll (isRequired && binds) (expandAll left (patterns node.children)))
      (Route.Avoids root passed node.children)) :
    IsListingBy root passed left siblings isRequired i node := by
  rw [IsListingBy, attributesOfNode_of_mem_holders hword hkind]
  refine (h.map rfl i []).congr fun r => ?_
  constructor
  · rintro ⟨hr, path, hpath⟩
    obtain ⟨s, hs, rfl⟩ := hr.route.exists_of_holder hpath hnode hword hkind
    exact ⟨s, ⟨hs, hr.direct, hr.avoids⟩, rfl⟩
  · rintro ⟨s, hs, rfl⟩
    exact ⟨⟨.inside hnode hword hkind hs.route, hs.direct, hs.avoids⟩, _, rfl⟩

/-- By a reference to a definition that is left there are the routes from the definition that do not
enter it again. -/
theorem isListingBy_definition (hnode : siblings[i]? = some node)
    (href : isNamed "ref" node = true) (hleft : IsLeft root passed left)
    (hpassed : nameOf node ∉ passed) (hname : nameOf node ≠ []) {d : XmlNode}
    (hd : named? "define" root (nameOf node) = some d)
    (h : IsListing isRequired
      (attributesOfAll isRequired
        (expandAll (left.filter fun e => !(e.1 == nameOf node)) (patterns d.children)))
      (Route.Avoids root (nameOf node :: passed) d.children)) :
    IsListingBy root passed left siblings isRequired i node := by
  have hfind := hleft.find?_eq_some_iff.mpr ⟨hpassed, hname, d, hd, rfl⟩
  rw [IsListingBy, attributesOfNode_ref href, expand_ref_of_find? hleft.distinct hfind,
    attributesOf]
  refine (h.map (Bool.and_true isRequired).symm i [nameOf node]).congr fun r => ?_
  constructor
  · rintro ⟨hr, path, hpath⟩
    obtain ⟨-, d', hd', s, hs, rfl⟩ := hr.route.exists_of_ref hpath hnode href
    obtain rfl := Option.some.inj (hd.symm.trans hd')
    obtain ⟨hnew, hdirect⟩ := List.nodup_cons.mp hr.direct
    refine ⟨s, ⟨hs, hdirect, fun name hentered hmem => ?_⟩, rfl⟩
    rcases List.mem_cons.mp hmem with rfl | hmem
    · exact hnew hentered
    · exact hr.avoids name (List.mem_cons_of_mem _ hentered) hmem
  · rintro ⟨s, hs, rfl⟩
    have hnew : nameOf node ∉ s.entered := fun hentered =>
      hs.avoids _ hentered List.mem_cons_self
    refine ⟨⟨.definition hnode href hname hd hs.route, List.nodup_cons.mpr ⟨hnew, hs.direct⟩, ?_⟩,
      _, rfl⟩
    rintro name hentered hmem
    rcases List.mem_cons.mp hentered with rfl | hentered
    · exact hpassed hmem
    · exact hs.avoids name hentered (List.mem_cons_of_mem _ hmem)

/-- By a reference to no definition that is left there is no route. -/
theorem isListingBy_dangling (hnode : siblings[i]? = some node)
    (href : isNamed "ref" node = true) (hleft : IsLeft root passed left)
    (hnone : left.find? (nameOf node) = none) :
    IsListingBy root passed left siblings isRequired i node := by
  rw [IsListingBy, attributesOfNode_ref href, expand_ref_of_find?_eq_none hleft.distinct hnone]
  simp only [attributesOf]
  refine isListing_nil ?_
  rintro r ⟨hr, path, hpath⟩
  obtain ⟨hname, d, hd, s, -, rfl⟩ := hr.route.exists_of_ref hpath hnode href
  have hnew := hr.avoids _ List.mem_cons_self
  rw [hleft.find?_eq_some_iff.mpr ⟨hnew, hname, d, hd, rfl⟩] at hnone
  exact absurd hnone (Option.some_ne_none _)

/-- By any other node there is no route. -/
theorem isListingBy_other (hnode : siblings[i]? = some node)
    (hattribute : isNamed "attribute" node = false) (href : isNamed "ref" node = false)
    (hholders : ∀ word binds, (word, binds) ∈ holders → isNamed word node = false) :
    IsListingBy root passed left siblings isRequired i node := by
  rw [IsListingBy, attributesOfNode_eq_nil hattribute href hholders]
  refine isListing_nil ?_
  rintro r ⟨hr, path, hpath⟩
  rcases hr.route.cases_of_getElem? hpath hnode with ⟨hkind, -⟩ | ⟨word, binds, hword, hkind, -⟩ |
      ⟨hkind, -⟩
  · rw [hattribute] at hkind
    exact absurd hkind Bool.false_ne_true
  · rw [hholders word binds hword] at hkind
    exact absurd hkind Bool.false_ne_true
  · rw [href] at hkind
    exact absurd hkind Bool.false_ne_true

theorem sizeOf_children_lt (hnode : siblings[i]? = some node) {word : String}
    (hkind : isNamed word node = true) : sizeOf node.children < sizeOf siblings := by
  have hlt := List.sizeOf_lt_of_mem (List.mem_of_getElem? hnode)
  obtain ⟨attributes, children, rfl⟩ := isNamed_iff.mp hkind
  rw [XmlNode.element.sizeOf_spec] at hlt
  rw [XmlNode.children]
  omega

end Import

/-- **What the import goes through.** The attribute patterns that expanded patterns lead to are
those at the ends of the direct routes that enter no definition entered before, in the order of the
routes, each required if the route is bound to come to it. -/
theorem isListing_attributesOfAll {root : XmlNode} {passed : List Text}
    {left : Table Text (List Pattern)} (hleft : IsLeft root passed left) (isRequired : Bool)
    (siblings : List XmlNode) :
    IsListing isRequired (attributesOfAll isRequired (expandAll left (patterns siblings)))
      (Route.Avoids root passed siblings) := by
  rw [attributesOfAll_patterns]
  refine isListing_flatMap (fun r hr => hr.route.exists_getElem?) fun i node hnode => ?_
  by_cases hattribute : isNamed "attribute" node = true
  · exact isListingBy_attribute hnode hattribute
  by_cases href : isNamed "ref" node = true
  · cases hfind : left.find? (nameOf node) with
    | none => exact isListingBy_dangling hnode href hleft hfind
    | some body =>
      obtain ⟨hpassed, hname, d, hd, rfl⟩ := hleft.find?_eq_some_iff.mp hfind
      have : (left.filter fun e => !(e.1 == nameOf node)).length < left.length :=
        length_without_lt hfind
      exact isListingBy_definition hnode href hleft hpassed hname hd
        (isListing_attributesOfAll (hleft.enter (nameOf node)) isRequired d.children)
  by_cases hholder : ∃ word binds, (word, binds) ∈ holders ∧ isNamed word node = true
  · obtain ⟨word, binds, hword, hkind⟩ := hholder
    have : sizeOf node.children < sizeOf siblings := sizeOf_children_lt hnode hkind
    exact isListingBy_holder hnode hword hkind
      (isListing_attributesOfAll hleft (isRequired && binds) node.children)
  · rw [Bool.not_eq_true] at hattribute href
    push Not at hholder
    exact isListingBy_other hnode hattribute href fun word binds hword =>
      Bool.eq_false_iff.mpr (hholder word binds hword)
termination_by (left.length, sizeOf siblings)

end RelaxNg

end MarkupGrammar
