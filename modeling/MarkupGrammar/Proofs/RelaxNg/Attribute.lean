import MarkupGrammar.Proofs.RelaxNg.Route

/-!
# Attributes of an imported element

Several routes may lead to attributes of one name, and the element has one attribute of that name.
The first of them, in the order of the document, says what values it may have and what it is for,
and it is required if any of them is bound to come to it. So an attribute that is optional where it
is described may be required all the same, for the sake of a later node that is otherwise ignored.

The attributes are read off without a failure unless a node of the document cannot be named.

## Main results

* `isMerged_mergeAttributes` — one attribute for all that have a name
* `attributes_elementSpec` — the attributes of every element node, by the routes from its children
-/

namespace MarkupGrammar

/-! ### One attribute for each name -/

namespace Pattern

/-- The attributes found so far and one more occurrence: it adds an attribute if its name is new,
and otherwise may make an attribute required. -/
def addOccurrence (found : List (AttributeSpec Text)) (o : AttributePattern × Bool) :
    List (AttributeSpec Text) :=
  if found.any (·.name = o.1.name) then
    found.map fun s => if s.name = o.1.name && o.2 then { s with isRequired := true } else s
  else found ++ [attributeSpec o.1 o.2]

theorem mergeAttributes_eq (occurrences : List (AttributePattern × Bool)) :
    mergeAttributes occurrences = occurrences.foldl addOccurrence [] := rfl

/-- The attributes are those that occur, one of each name, as the first occurrence has it, and
required if some occurrence is. -/
structure IsMerged (occurrences : List (AttributePattern × Bool))
    (attributes : List (AttributeSpec Text)) : Prop where
  nodup : (attributes.map (·.name)).Nodup
  declared_iff : ∀ name, (∃ s ∈ attributes, s.name = name) ↔ ∃ o ∈ occurrences, o.1.name = name
  isRequired_iff : ∀ s ∈ attributes,
    s.isRequired = true ↔ ∃ o ∈ occurrences, o.1.name = s.name ∧ o.2 = true
  eq_first : ∀ s ∈ attributes, ∃ o, occurrences.find? (fun o => o.1.name = s.name) = some o ∧
    s = attributeSpec o.1 s.isRequired

section Merging

variable {occurrences : List (AttributePattern × Bool)} {found : List (AttributeSpec Text)}
  {o : AttributePattern × Bool}

/-- An attribute with one more occurrence. -/
def strengthen (o : AttributePattern × Bool) (s : AttributeSpec Text) : AttributeSpec Text :=
  { s with isRequired := s.isRequired || (s.name = o.1.name && o.2) }

theorem addOccurrence_of_taken (h : ∃ s ∈ found, s.name = o.1.name) :
    addOccurrence found o = found.map (strengthen o) := by
  rw [addOccurrence, if_pos (by simpa using h)]
  refine List.map_congr_left fun s _ => ?_
  rw [strengthen]
  split
  · next hrequired => rw [hrequired, Bool.or_true]
  · next hrequired => rw [Bool.eq_false_iff.mpr hrequired, Bool.or_false]

theorem addOccurrence_of_new (h : ∀ s ∈ found, s.name ≠ o.1.name) :
    addOccurrence found o = found ++ [attributeSpec o.1 o.2] := by
  rw [addOccurrence, if_neg (by simpa using h)]

/-- Another occurrence of a name that is taken leaves the attribute as it is, or makes it
required. -/
theorem IsMerged.add_taken (h : IsMerged occurrences found)
    (htaken : ∃ s ∈ found, s.name = o.1.name) :
    IsMerged (occurrences ++ [o]) (found.map (strengthen o)) where
  nodup := by
    rw [List.map_map]
    exact h.nodup
  declared_iff name := by
    have hbefore : o.1.name = name → ∃ other ∈ occurrences, other.1.name = name := by
      rintro rfl
      exact (h.declared_iff _).mp htaken
    simp only [List.mem_map, exists_exists_and_eq_and, List.mem_append, List.mem_singleton,
      or_and_right, exists_or, exists_eq_left]
    rw [or_iff_left_of_imp hbefore]
    exact h.declared_iff name
  isRequired_iff := by
    intro t ht
    obtain ⟨s, hs, rfl⟩ := List.mem_map.mp ht
    simp only [strengthen, Bool.or_eq_true, Bool.and_eq_true, decide_eq_true_eq,
      h.isRequired_iff s hs, List.mem_append, List.mem_singleton, or_and_right, exists_or,
      exists_eq_left]
    exact or_congr_right (and_congr_left fun _ => eq_comm)
  eq_first := by
    intro t ht
    obtain ⟨s, hs, rfl⟩ := List.mem_map.mp ht
    obtain ⟨first, hfirst, heq⟩ := h.eq_first s hs
    refine ⟨first, ?_, ?_⟩
    · rw [List.find?_append]
      exact Option.or_eq_some_iff.mpr (Or.inl hfirst)
    · rw [strengthen, heq]
      rfl

/-- The first occurrence of a name adds its attribute. -/
theorem IsMerged.add_new (h : IsMerged occurrences found) (hnew : ∀ s ∈ found, s.name ≠ o.1.name) :
    IsMerged (occurrences ++ [o]) (found ++ [attributeSpec o.1 o.2]) := by
  have hnone : ∀ other ∈ occurrences, other.1.name ≠ o.1.name := by
    intro other hother hname
    obtain ⟨s, hs, hsame⟩ := (h.declared_iff _).mpr ⟨other, hother, hname⟩
    exact hnew s hs hsame
  refine ⟨?_, fun name => ?_, fun s hs => ?_, fun s hs => ?_⟩
  · rw [List.map_append, List.map_singleton]
    refine List.nodup_append.mpr ⟨h.nodup, List.nodup_singleton _, ?_⟩
    intro name hname other hother
    obtain ⟨s, hs, rfl⟩ := List.mem_map.mp hname
    rw [List.mem_singleton.mp hother]
    exact hnew s hs
  · simp only [List.mem_append, List.mem_singleton, or_and_right, exists_or, exists_eq_left]
    exact or_congr_left (h.declared_iff name)
  · simp only [List.mem_append, List.mem_singleton, or_and_right, exists_or, exists_eq_left]
    rcases List.mem_append.mp hs with hs | hs
    · rw [h.isRequired_iff s hs, or_iff_left fun hlast => hnew s hs hlast.1.symm]
    · obtain rfl := List.mem_singleton.mp hs
      rw [or_iff_right]
      · exact (and_iff_right rfl).symm
      · rintro ⟨other, hother, hname, -⟩
        exact hnone other hother hname
  · rcases List.mem_append.mp hs with hs | hs
    · obtain ⟨first, hfirst, heq⟩ := h.eq_first s hs
      refine ⟨first, ?_, heq⟩
      rw [List.find?_append]
      exact Option.or_eq_some_iff.mpr (Or.inl hfirst)
    · obtain rfl := List.mem_singleton.mp hs
      refine ⟨o, ?_, rfl⟩
      rw [List.find?_append, List.find?_eq_none.mpr (by simpa [attributeSpec] using hnone)]
      simp [attributeSpec]

/-- **What one more occurrence keeps.** -/
theorem IsMerged.add (h : IsMerged occurrences found) (o : AttributePattern × Bool) :
    IsMerged (occurrences ++ [o]) (addOccurrence found o) := by
  by_cases htaken : ∃ s ∈ found, s.name = o.1.name
  · rw [addOccurrence_of_taken htaken]
    exact h.add_taken htaken
  · push Not at htaken
    rw [addOccurrence_of_new htaken]
    exact h.add_new htaken

theorem IsMerged.foldl (h : IsMerged occurrences found) (more : List (AttributePattern × Bool)) :
    IsMerged (occurrences ++ more) (more.foldl addOccurrence found) := by
  induction more generalizing occurrences found with
  | nil => rwa [List.append_nil]
  | cons o more ih =>
    rw [List.foldl_cons, List.append_cons]
    exact ih (h.add o)

/-- **One attribute for all occurrences of a name.** -/
theorem isMerged_mergeAttributes (occurrences : List (AttributePattern × Bool)) :
    IsMerged occurrences (mergeAttributes occurrences) := by
  have hnone : IsMerged [] [] := ⟨List.nodup_nil, by simp, by simp, by simp⟩
  rw [mergeAttributes_eq]
  exact hnone.foldl occurrences

end Merging

end Pattern

namespace RelaxNg

open Pattern

/-! ### Attributes by routes -/

/-- The attributes that the routes from siblings lead to: one of each name, required if some route
to its name is bound to come to it, and otherwise as the first direct route has it. -/
structure IsAttributeList (root : XmlNode) (siblings : List XmlNode)
    (attributes : List (AttributeSpec Text)) : Prop where
  nodup : (attributes.map (·.name)).Nodup
  declared_iff : ∀ name, (∃ s ∈ attributes, s.name = name) ↔
    ∃ r : Route, r.From root siblings ∧ nameOf r.target = name
  isRequired_iff : ∀ s ∈ attributes, s.isRequired = true ↔
    ∃ r : Route, r.From root siblings ∧ nameOf r.target = s.name ∧ r.isBinding = true
  eq_first : ∀ s ∈ attributes, ∃ r : Route, r.IsFirst root siblings s.name ∧
    s = attributeSpec (attributePattern r.target) s.isRequired

section Routes

variable {root : XmlNode} {siblings : List XmlNode}

/-- Of routes in the order of the document, the one that is found first is the first. -/
theorem eq_or_precedes_of_find? {routes : List Route} (hordered : routes.Pairwise Route.Precedes)
    {P : Route → Bool} {r s : Route} (hr : routes.find? P = some r) (hs : s ∈ routes)
    (hP : P s = true) : s = r ∨ r.Precedes s := by
  obtain ⟨-, before, after, rfl, hbefore⟩ := List.find?_eq_some_iff_append.mp hr
  rcases List.mem_append.mp hs with hs | hs
  · have hskipped := hbefore s hs
    rw [hP] at hskipped
    exact absurd hskipped Bool.false_ne_true
  · rcases List.mem_cons.mp hs with rfl | hs
    · exact Or.inl rfl
    · have hlater := (List.pairwise_append.mp hordered).2.1
      exact Or.inr (List.rel_of_pairwise_cons hlater hs)

/-- **The attributes that the import reads off the patterns of siblings** are those that the routes
from the siblings lead to. -/
theorem isAttributeList_patterns (root : XmlNode) (siblings : List XmlNode) :
    IsAttributeList root siblings
      (mergeAttributes
        (attributesOfAll true (expandAll (ofXml root).defines (patterns siblings)))) := by
  obtain ⟨routes, hfound, hordered, hmem⟩ :=
    isListing_attributesOfAll (isLeft_defines root) true siblings
  have hdirect : ∀ r : Route, r ∈ routes ↔ r.From root siblings ∧ r.IsDirect := by
    intro r
    rw [hmem]
    exact ⟨fun h => ⟨h.route, h.direct⟩, fun h => ⟨h.1, h.2, fun _ _ => List.not_mem_nil⟩⟩
  have hmerged := isMerged_mergeAttributes
    (attributesOfAll true (expandAll (ofXml root).defines (patterns siblings)))
  rw [hfound] at hmerged ⊢
  refine ⟨hmerged.nodup, fun name => ?_, fun s hs => ?_, fun s hs => ?_⟩
  · rw [hmerged.declared_iff]
    constructor
    · rintro ⟨o, ho, hname⟩
      obtain ⟨r, hr, rfl⟩ := List.mem_map.mp ho
      exact ⟨r, ((hdirect r).mp hr).1, hname⟩
    · rintro ⟨r, hr, hname⟩
      obtain ⟨t, ht, htdirect, htarget, -⟩ := hr.exists_direct
      exact ⟨_, List.mem_map_of_mem ((hdirect t).mpr ⟨ht, htdirect⟩), htarget ▸ hname⟩
  · rw [hmerged.isRequired_iff s hs]
    constructor
    · rintro ⟨o, ho, hname, hrequired⟩
      obtain ⟨r, hr, rfl⟩ := List.mem_map.mp ho
      exact ⟨r, ((hdirect r).mp hr).1, hname, hrequired⟩
    · rintro ⟨r, hr, hname, hbinding⟩
      obtain ⟨t, ht, htdirect, htarget, hbinds⟩ := hr.exists_direct
      exact ⟨_, List.mem_map_of_mem ((hdirect t).mpr ⟨ht, htdirect⟩), htarget ▸ hname,
        hbinds hbinding⟩
  · obtain ⟨o, ho, heq⟩ := hmerged.eq_first s hs
    rw [List.find?_map] at ho
    obtain ⟨r, hr, rfl⟩ := Option.map_eq_some_iff.mp ho
    obtain ⟨hroute, hrdirect⟩ := (hdirect r).mp (List.mem_of_find?_eq_some hr)
    refine ⟨r, ⟨hroute, hrdirect, ?_, fun t ht htdirect hname => ?_⟩, heq⟩
    · have hnamed := List.find?_some hr
      exact of_decide_eq_true hnamed
    · exact eq_or_precedes_of_find? hordered hr ((hdirect t).mpr ⟨ht, htdirect⟩)
        (decide_eq_true hname)

end Routes

/-! ### Nothing in the way -/

mutual

/-- What is inside a node of a document is in the document. -/
theorem nodes_subset_nodes (root : XmlNode) {node : XmlNode} (h : node ∈ nodes root) :
    nodes node ⊆ nodes root := by
  cases root with
  | element name attributes children =>
    rw [nodes] at h ⊢
    rcases List.mem_cons.mp h with rfl | h
    · rw [nodes]
      exact List.Subset.refl _
    · exact List.subset_cons_of_subset _ (nodes_subset_nodesOfAll children h)
  | _ =>
    obtain rfl := List.mem_singleton.mp h
    exact List.Subset.refl _

theorem nodes_subset_nodesOfAll (siblings : List XmlNode) {node : XmlNode}
    (h : node ∈ nodesOfAll siblings) : nodes node ⊆ nodesOfAll siblings := by
  cases siblings with
  | nil => exact nomatch h
  | cons first siblings =>
    rw [nodesOfAll] at h ⊢
    rcases List.mem_append.mp h with h | h
    · exact List.subset_append_of_subset_left _ (nodes_subset_nodes first h)
    · exact List.subset_append_of_subset_right _ (nodes_subset_nodesOfAll siblings h)

end

theorem mem_nodes_self (node : XmlNode) : node ∈ nodes node := by
  cases node with
  | element name attributes children =>
    rw [nodes]
    exact List.mem_cons_self
  | _ => exact List.mem_singleton_self _

theorem subset_nodesOfAll (siblings : List XmlNode) : siblings ⊆ nodesOfAll siblings := by
  induction siblings with
  | nil => exact List.Subset.refl _
  | cons node siblings ih =>
    rw [nodesOfAll]
    exact List.cons_subset.mpr ⟨List.mem_append_left _ (mem_nodes_self node),
      List.subset_append_of_subset_right _ ih⟩

theorem children_subset_nodes {root node : XmlNode} (h : node ∈ nodes root) :
    node.children ⊆ nodes root := by
  refine List.Subset.trans ?_ (nodes_subset_nodes root h)
  cases node with
  | element name attributes children =>
    rw [nodes]
    exact List.subset_cons_of_subset _ (subset_nodesOfAll children)
  | _ => exact List.nil_subset _

/-- A pattern that the import may stumble over when it looks for attributes. -/
def IsObstacle (p : Pattern) : Prop :=
  (∃ name, p = .misnamed name) ∨ ∃ a, p = .attr a ∧ a.obstacle ≠ none

theorem isStable_isObstacle : IsStable IsObstacle := by
  intro left p
  cases p with
  | ref name =>
    rw [expand]
    split <;> simp [IsObstacle]
  | _ => simp [expand, IsObstacle]

mutual

/-- What stands in the way of looking for attributes is reached. -/
theorem reaches_of_meet_eq_error {met : List Text} {name : Text} (p : Pattern)
    (h : meet met p = .error name) : Reaches [] (fun _ => true) IsObstacle [p] := by
  rw [reaches_singleton_iff]
  cases p with
  | misnamed other => exact Or.inl (Or.inl ⟨other, rfl⟩)
  | attr a =>
    refine Or.inl (Or.inr ⟨a, rfl, fun hnone => ?_⟩)
    rw [meet, hnone] at h
    split at h <;> exact nomatch h
  | occurs kind body =>
    rw [meet] at h
    exact Or.inr (reaches_of_meetAll_eq_error body h)
  | combine kind body =>
    rw [meet_combine] at h
    split at h
    · exact nomatch h
    · exact Or.inr ⟨rfl, reaches_of_meetAll_eq_error body h⟩
  | resolved other body =>
    rw [meet] at h
    exact Or.inr (reaches_of_meetAll_eq_error body h)
  | _ => simp [meet] at h

theorem reaches_of_meetAll_eq_error {met : List Text} {name : Text} (ps : List Pattern)
    (h : meetAll met ps = .error name) : Reaches [] (fun _ => true) IsObstacle ps := by
  cases ps with
  | nil =>
    rw [meetAll] at h
    exact nomatch h
  | cons p ps =>
    rw [reaches_cons_iff]
    rw [meetAll] at h
    split at h
    · next hp => exact Or.inl (reaches_of_meet_eq_error p hp)
    · exact Or.inr (reaches_of_meetAll_eq_error ps h)

end

theorem attr_eq_kind_iff {kind : String × (XmlNode → Pattern)} (hkind : kind ∈ kinds)
    {node : XmlNode} {a : AttributePattern} :
    .attr a = kind.2 node ↔ kind.1 = "attribute" ∧ attributePattern node = a := by
  revert kind
  simp [kinds, eq_comm]

/-- An obstacle among the patterns of siblings is a node that cannot be named, among the siblings or
among the children of one of them. -/
theorem exists_misnamed_of_mem_patterns {siblings : List XmlNode} {p : Pattern}
    (hp : p ∈ patterns siblings) (h : IsObstacle p) :
    ∃ node ∈ siblings, misnamed? node ≠ none ∨ ∃ child ∈ node.children, misnamed? child ≠ none := by
  rcases h with ⟨name, rfl⟩ | ⟨a, rfl, hobstacle⟩
  · obtain ⟨node, hnode, hpattern⟩ := mem_patterns_iff.mp hp
    exact ⟨node, hnode, Or.inl (misnamed?_of_pattern? hpattern)⟩
  · rcases exists_kind_of_mem_patterns hp with ⟨name, heq⟩ | heq |
        ⟨node, hnode, kind, hkind, -, heq⟩
    · exact nomatch heq
    · exact nomatch heq
    · obtain ⟨-, rfl⟩ := (attr_eq_kind_iff hkind).mp heq
      obtain ⟨name, hname⟩ := Option.ne_none_iff_exists'.mp hobstacle
      obtain ⟨child, hchild, hmisnamed⟩ := List.exists_of_findSome?_eq_some hname
      have hmem := (List.takeWhile_sublist _).subset hchild
      exact ⟨node, hnode, Or.inr ⟨child, hmem, Option.ne_none_iff_exists'.mpr ⟨name, hmisnamed⟩⟩⟩

/-- **What the import may stumble over** is a node of the document that cannot be named. -/
theorem exists_misnamed_of_reaches {root : XmlNode} {siblings : List XmlNode}
    (hsiblings : siblings ⊆ nodes root)
    (h : Reaches (ofXml root).defines (fun _ => true) IsObstacle (patterns siblings)) :
    ∃ node ∈ nodes root, misnamed? node ≠ none := by
  obtain ⟨ps, hps⟩ : ∃ ps, ps = patterns siblings := ⟨_, rfl⟩
  rw [← hps] at h
  -- wherever the patterns lead, their nodes are in the document
  induction h generalizing siblings with
  | here hp h =>
    subst hps
    obtain ⟨node, hnode, hmisnamed | ⟨child, hchild, hmisnamed⟩⟩ :=
      exists_misnamed_of_mem_patterns hp h
    · exact ⟨node, hsiblings hnode, hmisnamed⟩
    · exact ⟨child, children_subset_nodes (hsiblings hnode) hchild, hmisnamed⟩
  | inCombination hp hkind _ ih =>
    subst hps
    obtain ⟨node, hnode, -, -, -, hbody⟩ := exists_holds_iff.mp ⟨_, hp, Or.inl ⟨_, rfl⟩⟩
    exact ih (children_subset_nodes (hsiblings hnode)) hbody.symm
  | inRepetition hp _ ih =>
    subst hps
    obtain ⟨node, hnode, -, -, -, hbody⟩ := exists_holds_iff.mp ⟨_, hp, Or.inr ⟨_, rfl⟩⟩
    exact ih (children_subset_nodes (hsiblings hnode)) hbody.symm
  | inDefinition hp hfind _ ih =>
    subst hps
    rw [find?_defines_ofXml] at hfind
    split at hfind
    · exact nomatch hfind
    · obtain ⟨d, hd, rfl⟩ := Option.map_eq_some_iff.mp hfind
      have hmem := (List.mem_filter.mp (List.mem_of_find?_eq_some hd)).1
      exact ih (children_subset_nodes hmem) rfl
  | inResolved hp _ _ =>
    subst hps
    exact (resolved_not_mem_patterns hp).elim

/-- **The attributes of the elements of a grammar.** The attributes of every element node are those
that the routes from its children lead to, and nothing stands in the way of reading them if every
node of the document can be named. -/
theorem attributes_elementSpec {root node : XmlNode} (hnode : node ∈ nodes root)
    (helement : isNamed "element" node = true) :
    ∃ e ∈ (ofXml root).elements, e.name = nameOf node ∧ e.body = patterns node.children ∧
      IsAttributeList root node.children ((ofXml root).elementSpec e).attributes ∧
      ((∀ other ∈ nodes root, misnamed? other = none) →
        attributeObstacle (expandAll (ofXml root).defines e.body) = none) := by
  refine ⟨⟨nameOf node, documentation node, obstacle node, patterns node.children⟩,
    List.mem_map.mpr ⟨node, List.mem_filter.mpr ⟨hnode, helement⟩, rfl⟩, rfl, rfl,
    isAttributeList_patterns root node.children, fun hnamed => ?_⟩
  rw [attributeObstacle]
  cases hmeet : meetAll [] (expandAll (ofXml root).defines (patterns node.children)) with
  | ok met => rfl
  | error name =>
    have hreaches := (reaches_expandAll isStable_isObstacle (distinct_defines_ofXml root) _).mp
      (reaches_of_meetAll_eq_error _ hmeet)
    obtain ⟨other, hother, hmisnamed⟩ :=
      exists_misnamed_of_reaches (children_subset_nodes hnode) hreaches
    exact absurd (hnamed other hother) hmisnamed

/-- The node of a pattern, with its name if it has one. -/
def patternNode (word : String) (names : List String) (children : List XmlNode) : XmlNode :=
  .element ⟨space, Text.ofString word⟩
    (names.map fun name => ⟨⟨[], Text.ofString "name"⟩, Text.ofString name⟩) children

/-- An element with an optional attribute `n` that takes one value. -/
def crossedElement : XmlNode :=
  patternNode "element" ["p"]
    [patternNode "optional" []
      [patternNode "attribute" ["n"] [patternNode "value" [] [.text (Text.ofString "one")]]],
     patternNode "ref" ["d"] [],
     patternNode "element" ["q"] [patternNode "attribute" ["x"] []]]

/-- Two definitions that refer to each other, of which one has `n` again, and a second definition of
that one's name. -/
def crossedGrammar : XmlNode :=
  patternNode "grammar" []
    [crossedElement,
     patternNode "define" ["d"]
      [patternNode "ref" ["e"] [], patternNode "choice" [] [patternNode "attribute" ["a"] []]],
     patternNode "define" ["e"] [patternNode "ref" ["d"] [], patternNode "attribute" ["n"] []],
     patternNode "define" ["e"] [patternNode "attribute" ["z"] []]]

/-- The element has `n` with the value of its first node, and has to have it because of the second.
No route leads to `x`, which is an attribute of another element. -/
theorem attributes_crossedGrammar :
    crossedElement ∈ nodes crossedGrammar ∧ isNamed "element" crossedElement = true ∧
      (∀ other ∈ nodes crossedGrammar, misnamed? other = none) ∧
      ∃ e ∈ (ofXml crossedGrammar).elements, e.body = patterns crossedElement.children ∧
        attributeObstacle (expandAll (ofXml crossedGrammar).defines e.body) = none ∧
        ((ofXml crossedGrammar).elementSpec e).attributes.map
            (fun s => (s.name, s.isRequired, s.values))
          = [(Text.ofString "n", true, some [Text.ofString "one"]),
             (Text.ofString "a", false, none)] ∧
        (∃ r : Route, r.From crossedGrammar crossedElement.children ∧
          nameOf r.target = Text.ofString "n" ∧ r.isBinding = true) ∧
        ¬ ∃ r : Route, r.From crossedGrammar crossedElement.children ∧
          nameOf r.target = Text.ofString "x" := by
  have hnode : crossedElement ∈ nodes crossedGrammar :=
    children_subset_nodes (mem_nodes_self crossedGrammar) List.mem_cons_self
  have helement : isNamed "element" crossedElement = true := by decide
  have hnamed : ∀ other ∈ nodes crossedGrammar, misnamed? other = none := by
    have hall : (nodes crossedGrammar).all (fun other => misnamed? other = none) = true := by decide
    simpa using hall
  have hread : (mergeAttributes (attributesOfAll true (expandAll (ofXml crossedGrammar).defines
        (patterns crossedElement.children)))).map (fun s => (s.name, s.isRequired, s.values))
      = [(Text.ofString "n", true, some [Text.ofString "one"]),
         (Text.ofString "a", false, none)] := by
    decide +kernel
  obtain ⟨e, he, -, hbody, hattributes, hclear⟩ := attributes_elementSpec hnode helement
  have hlist : ((ofXml crossedGrammar).elementSpec e).attributes.map
        (fun s => (s.name, s.isRequired, s.values))
      = [(Text.ofString "n", true, some [Text.ofString "one"]),
         (Text.ofString "a", false, none)] := by
    rw [RngGrammar.elementSpec, hbody]
    exact hread
  refine ⟨hnode, helement, hnamed, e, he, hbody, hclear hnamed, hlist, ?_, ?_⟩
  · have hmem : (Text.ofString "n", true, some [Text.ofString "one"]) ∈
        ((ofXml crossedGrammar).elementSpec e).attributes.map
          (fun s => (s.name, s.isRequired, s.values)) := by
      rw [hlist]
      exact List.mem_cons_self
    obtain ⟨s, hs, heq⟩ := List.mem_map.mp hmem
    obtain ⟨hname, heq⟩ := Prod.mk.inj heq
    obtain ⟨hrequired, -⟩ := Prod.mk.inj heq
    rw [← hname]
    exact (hattributes.isRequired_iff s hs).mp hrequired
  · intro hroute
    obtain ⟨s, hs, hname⟩ := (hattributes.declared_iff _).mpr hroute
    have hmem := List.mem_map_of_mem (f := fun s => (s.name, s.isRequired, s.values)) hs
    rw [hlist, hname] at hmem
    simp [Text.ofString_injective.eq_iff] at hmem

end RelaxNg

end MarkupGrammar
