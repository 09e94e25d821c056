import MarkupGrammar.Proofs.RelaxNg.Element
import MarkupGrammar.Proofs.RelaxNg.EmptyContent

/-!
# Where an imported grammar forbids children

Most elements of a real grammar have a reference to a list of attributes among their patterns. It
should say nothing about children. Whether it does depends on how the list is written. A definition
has no content when it holds bare attributes, or a single optional one, and a reference to it among
others is an empty group, which forbids all children. Two optional attributes are a sequence, and
the reference is a group without items, which forbids nothing.

A harmless reference still counts as content. Beside a single element it makes a sequence, and
the element is counted, where the model of a single element is not checked at all.

## Main results

* `notEmpty_mem_checkUnder_ref` — a reference without content forbids all children
* `mem_checkUnder_of_mem_checkUnder_ref` — a reference to other attributes adds no defect
* `forbidsChildren_parseRng` — what imported elements forbid, and what a reference adds to it
-/

namespace MarkupGrammar

variable {Place : Type}

namespace Pattern

mutual

/-- Whether a pattern holds attributes only, possibly in wrappers. -/
def holdsAttributes : Pattern → Bool
  | .attr _ => true
  | .commentary => true
  | .occurs _ body => allHoldAttributes body
  | _ => false

/-- Whether all patterns of a list hold attributes only. -/
def allHoldAttributes : List Pattern → Bool
  | [] => true
  | p :: ps => holdsAttributes p && allHoldAttributes ps

end

section

variable {ps : List Pattern} {parent : Text} {children : List (Child Text Place)}

theorem holdsAttributes_of_mem (h : allHoldAttributes ps = true) {p : Pattern} (hp : p ∈ ps) :
    holdsAttributes p = true := by
  induction ps with
  | nil => exact nomatch hp
  | cons q ps ih =>
    rw [allHoldAttributes, Bool.and_eq_true] at h
    rcases List.mem_cons.mp hp with rfl | hp
    · exact h.1
    · exact ih h.2 hp

mutual

theorem expand_of_holdsAttributes (left : Table Text (List Pattern)) (p : Pattern)
    (h : holdsAttributes p = true) : expand left p = p := by
  cases p with
  | attr a => simp [expand]
  | commentary => simp [expand]
  | occurs kind body =>
    rw [holdsAttributes] at h
    rw [expand, expandAll_of_allHoldAttributes left body h]
  | _ => simp [holdsAttributes] at h

/-- Lists of attributes have no references in them. -/
theorem expandAll_of_allHoldAttributes (left : Table Text (List Pattern)) (ps : List Pattern)
    (h : allHoldAttributes ps = true) : expandAll left ps = ps := by
  cases ps with
  | nil => rw [expandAll]
  | cons p ps =>
    rw [allHoldAttributes, Bool.and_eq_true] at h
    rw [expandAll, expand_of_holdsAttributes left p h.1, expandAll_of_allHoldAttributes left ps h.2]

end

@[simp] theorem check_rebound (m : ContentModel Text) (bounds : Bounds) :
    (m.rebound bounds).check parent children = m.check parent children := by
  obtain ⟨arrangement, items, b⟩ := m
  rw [ContentModel.rebound]
  split
  · next h =>
    obtain rfl := h
    rfl
  · rfl

/-! ### The same pattern among others and alone -/

theorem checkAll_unresolvedItem (name : Text) :
    Item.checkAll parent children (unresolvedItem name).toList = [] := by
  rw [unresolvedItem]
  split <;> rfl

/-- A pattern other than an element is checked alone for whatever it is checked for among others. -/
theorem mem_checkUnder_toModel {p : Pattern} (hp : ∀ name, p ≠ .element name)
    {d : Diagnostic Text Place} (hd : d ∈ Item.checkAll parent children (toItem p).toList) :
    d ∈ checkUnder parent children (toModel p) := by
  cases p with
  | element name => exact (hp name rfl).elim
  | combine kind body => simpa [toItem, toModel, checkUnder, Item.checkAll, Item.check] using hd
  | occurs kind body =>
    rw [toItem] at hd
    rw [toModel]
    cases hm : contentModel body with
    | none => simp [hm, Item.checkAll] at hd
    | some m =>
      rw [hm] at hd
      by_cases hvacuous : m.isVacuous = true
      · simp [hvacuous, Item.checkAll] at hd
      · simpa [hvacuous, checkUnder, Item.checkAll, Item.check] using hd
  | resolved name body =>
    rw [toItem] at hd
    rw [toModel]
    cases hm : contentModel body with
    | none => simp [hm, checkAll_unresolvedItem] at hd
    | some m => simpa [hm, checkUnder, Item.checkAll, Item.check] using hd
  | ref name =>
    rw [toItem, checkAll_unresolvedItem] at hd
    exact absurd hd List.not_mem_nil
  | _ => simp [toItem, Item.checkAll, Item.check] at hd

/-- The model of a list other than a single element is checked for whatever its patterns are. -/
theorem mem_checkUnder_contentModel (hps : ∀ name, content ps ≠ [.element name])
    {d : Diagnostic Text Place} (hd : d ∈ Item.checkAll parent children (toItems ps)) :
    d ∈ checkUnder parent children (contentModel ps) := by
  rw [contentModel_eq]
  rw [← toItems_content] at hd
  cases hcontent : content ps with
  | nil =>
    rw [hcontent, toItems] at hd
    exact nomatch hd
  | cons p others =>
    cases others with
    | nil =>
      rw [hcontent, toItems, toItems, List.append_nil] at hd
      refine mem_checkUnder_toModel (fun name hname => hps name ?_) hd
      rw [hcontent, hname]
    | cons q others =>
      rw [toItems_content] at hd
      exact hd

/-! ### Lists of attributes -/

mutual

/-- Attributes have a model, which is empty or is checked for nothing. -/
theorem exists_contentModel_of_allHoldAttributes (parent : Text)
    (children : List (Child Text Place)) (ps : List Pattern) (h : allHoldAttributes ps = true) :
    ∃ m, contentModel ps = some m ∧ (m.arrangement = .empty ∨ m.check parent children = []) := by
  rw [contentModel_eq]
  cases hps : content ps with
  | nil => exact ⟨_, rfl, Or.inl rfl⟩
  | cons p others =>
    cases others with
    | cons q others =>
      exact ⟨_, rfl, Or.inr (checkAll_toItems_of_allHoldAttributes parent children ps h)⟩
    | nil =>
      obtain ⟨hmem, hp⟩ := mem_content_iff.mp (hps ▸ List.mem_singleton.mpr rfl : p ∈ content ps)
      have hholds := holdsAttributes_of_mem h hmem
      cases p with
      | occurs kind body =>
        have : sizeOf body < sizeOf ps := sizeOf_lt_of_occurs_mem hmem
        rw [holdsAttributes] at hholds
        obtain ⟨m, hm, hempty⟩ :=
          exists_contentModel_of_allHoldAttributes parent children body hholds
        refine ⟨m.rebound (kind.boundsAlone m.bounds), by simp [toModel, hm], ?_⟩
        rwa [arrangement_rebound, check_rebound]
      | attr a => exact nomatch hp
      | commentary => exact nomatch hp
      | _ => simp [holdsAttributes] at hholds
termination_by (sizeOf ps, 1)

theorem checkAll_toItem_of_holdsAttributes (parent : Text) (children : List (Child Text Place))
    (p : Pattern) (h : holdsAttributes p = true) :
    Item.checkAll parent children (toItem p).toList = [] := by
  cases p with
  | attr a => simp [toItem, Item.checkAll]
  | commentary => simp [toItem, Item.checkAll]
  | occurs kind body =>
    rw [holdsAttributes] at h
    obtain ⟨m, hm, hempty⟩ := exists_contentModel_of_allHoldAttributes parent children body h
    rw [toItem, hm]
    dsimp only
    rcases hempty with hempty | hcheck
    · simp [ContentModel.isVacuous, hempty, items_contentModel body hm hempty, Item.checkAll]
    · split <;> simp [Item.checkAll, Item.check, hcheck]
  | _ => simp [holdsAttributes] at h
termination_by (sizeOf p, 0)

/-- Items of attributes are checked for nothing. -/
theorem checkAll_toItems_of_allHoldAttributes (parent : Text)
    (children : List (Child Text Place)) (ps : List Pattern) (h : allHoldAttributes ps = true) :
    Item.checkAll parent children (toItems ps) = [] := by
  cases ps with
  | nil => rw [toItems]; rfl
  | cons p ps =>
    rw [allHoldAttributes, Bool.and_eq_true] at h
    rw [toItems, Item.checkAll_append, checkAll_toItem_of_holdsAttributes parent children p h.1,
      checkAll_toItems_of_allHoldAttributes parent children ps h.2]
    rfl
termination_by (sizeOf ps, 0)

end

/-! ### Adding a reference -/

variable {before after : List Pattern} {q : Pattern}

theorem content_insert (hq : q.isContent = true) :
    content (before ++ q :: after) = content before ++ q :: content after := by
  rw [content, List.filter_append, List.filter_cons, if_pos hq]
  rfl

theorem toItems_append (ps others : List Pattern) :
    toItems (ps ++ others) = toItems ps ++ toItems others := by
  rw [toItems_eq_filterMap, toItems_eq_filterMap, toItems_eq_filterMap, List.filterMap_append]

theorem contentModel_of_several (h : 2 ≤ (content ps).length) :
    contentModel ps = some ⟨.sequence, toItems ps, Bounds.once⟩ := by
  rw [contentModel_eq]
  match hps : content ps with
  | [] => simp [hps] at h
  | [p] => simp [hps] at h
  | p :: q :: others => rfl

/-- Beside other content a pattern makes a sequence. -/
theorem contentModel_insert (hq : q.isContent = true) (hother : content (before ++ after) ≠ []) :
    contentModel (before ++ q :: after)
      = some ⟨.sequence, toItems before ++ ((toItem q).toList ++ toItems after), Bounds.once⟩ := by
  have hlength : 0 < (content (before ++ after)).length := List.length_pos_iff.mpr hother
  rw [content, List.filter_append, List.length_append] at hlength
  rw [contentModel_of_several, toItems_append, toItems]
  rw [content_insert hq, List.length_append, List.length_cons, content, content]
  omega

/-- **A reference that is checked for nothing adds no defect.** Beside a single element it may: the
element is then counted. -/
theorem checkUnder_insert {name : Text} {body : List Pattern} {m : ContentModel Text}
    (hbody : contentModel body = some m) (hm : m.check parent children = [])
    (hsingle : ∀ name, content (before ++ after) ≠ [.element name]) {d : Diagnostic Text Place}
    (hd : d ∈ checkUnder parent children (contentModel (before ++ .resolved name body :: after))) :
    d ∈ checkUnder parent children (contentModel (before ++ after)) := by
  by_cases hother : content (before ++ after) = []
  · rw [content, List.filter_append, List.append_eq_nil_iff] at hother
    rw [contentModel_eq, content_insert rfl, content, content, hother.1, hother.2] at hd
    simp [toModel, hbody, checkUnder, hm] at hd
  · have hitem : Item.checkAll parent children (toItem (.resolved name body)).toList = [] := by
      simp [toItem, hbody, Item.checkAll, Item.check, hm]
    rw [contentModel_insert rfl hother] at hd
    refine mem_checkUnder_contentModel hsingle ?_
    rw [toItems_append, Item.checkAll_append]
    simpa [checkUnder, ContentModel.check, hitem] using hd

/-- **A bare reference beside other content forbids all children.** -/
theorem notEmpty_mem_checkUnder_insert {name : Text} {body : List Pattern}
    (hbody : Contentless [] body) (hother : content (before ++ after) ≠ [])
    (child : Child Text Place) :
    child.report (.notEmpty parent) ∈ checkUnder parent (child :: children)
      (contentModel (before ++ .resolved name body :: after)) := by
  rw [← isEmpty_contentModel_iff] at hbody
  cases hm : contentModel body with
  | none => simp [hm] at hbody
  | some m =>
    obtain ⟨arrangement, items, bounds⟩ := m
    simp only [hm, Option.any_some, decide_eq_true_eq] at hbody
    obtain rfl := hbody
    rw [contentModel_insert rfl hother]
    simp [checkUnder, ContentModel.check, toItem, hm, Item.checkAll, Item.check]

end

theorem eq_element_of_expand_eq {left : Table Text (List Pattern)} {p : Pattern} {name : Text}
    (h : expand left p = .element name) : p = .element name := by
  cases p with
  | ref other =>
    rw [expand] at h
    split at h <;> simp at h
  | element other => simpa [expand] using h
  | _ => simp [expand] at h

end Pattern

/-! ### Grammars -/

namespace RngGrammar

open Pattern

variable {g : RngGrammar} {e : ElementPattern} {name : Text} {body before after : List Pattern}

theorem model?_elementSpec (g : RngGrammar) (e : ElementPattern) :
    (g.elementSpec e).model? = contentModel (expandAll g.defines e.body) := by
  simp only [elementSpec, ElementSpec.model?]
  cases contentModel (expandAll g.defines e.body) <;> rfl

/-- The model of an element is empty when its patterns have no content. -/
theorem isEmpty_elementSpec_iff (hg : g.defines.Distinct) {m : ContentModel Text}
    (hm : (g.elementSpec e).model? = some m) :
    m.arrangement = .empty ↔ Contentless g.defines e.body := by
  rw [model?_elementSpec] at hm
  rw [← contentless_expandAll hg, ← isEmpty_contentModel_iff, hm]
  simp

/-- The model of an element nests an empty model when its patterns have a bare reference. -/
theorem nestsEmpty_elementSpec_iff (hg : g.defines.Distinct) {m : ContentModel Text}
    (hm : (g.elementSpec e).model? = some m) :
    m.nestsEmpty = true ↔ HasBareReference g.defines e.body := by
  rw [model?_elementSpec] at hm
  rw [← hasBareReference_expandAll hg, ← nestsEmpty_contentModel_iff, hm]
  simp

/-- A reference among the patterns of an element, expanded. -/
theorem expandAll_insert_ref (hg : g.defines.Distinct) (hname : g.defines.find? name = some body) :
    expandAll g.defines (before ++ .ref name :: after)
      = expandAll g.defines before ++
          .resolved name (expandAll (g.defines.filter fun e => !(e.1 == name)) body)
            :: expandAll g.defines after := by
  simp only [expandAll_eq_map, List.map_append, List.map_cons, expand_ref_of_find? hg hname]

theorem expandAll_append (left : Table Text (List Pattern)) (ps others : List Pattern) :
    expandAll left (ps ++ others) = expandAll left ps ++ expandAll left others := by
  simp only [expandAll_eq_map, List.map_append]

/-- **A reference to a definition without content forbids all children** of an element that has
other content. -/
theorem notEmpty_mem_checkUnder_ref (hg : g.defines.Distinct)
    (hname : g.defines.find? name = some body) (hbody : Contentless g.defines body)
    (hother : content (before ++ after) ≠ []) (parent : Text) (child : Child Text Place)
    (children : List (Child Text Place)) :
    child.report (.notEmpty parent) ∈ checkUnder parent (child :: children)
      (g.elementSpec { e with body := before ++ .ref name :: after }).model? := by
  rw [model?_elementSpec, expandAll_insert_ref hg hname]
  refine notEmpty_mem_checkUnder_insert ?_ ?_ child
  · rw [contentless_expandAll (hg.filter _)]
    exact (contentless_definition_iff hname (fun _ => find?_without_of_ne)
      fun _ _ => find?_of_find?_without).mp hbody
  · rw [← expandAll_append, content_expandAll]
    simpa using hother

/-- **A reference to a definition of attributes with content adds no defect** to an element, unless
the element had a single element as its only content. -/
theorem mem_checkUnder_of_mem_checkUnder_ref (hg : g.defines.Distinct)
    (hname : g.defines.find? name = some body) (hattributes : allHoldAttributes body = true)
    (hbody : ¬ Contentless g.defines body)
    (hsingle : ∀ other, content (before ++ after) ≠ [.element other]) {parent : Text}
    {children : List (Child Text Place)} {d : Diagnostic Text Place}
    (hd : d ∈ checkUnder parent children
      (g.elementSpec { e with body := before ++ .ref name :: after }).model?) :
    d ∈ checkUnder parent children
      (g.elementSpec { e with body := before ++ after }).model? := by
  rw [model?_elementSpec] at hd ⊢
  rw [expandAll_insert_ref hg hname, expandAll_of_allHoldAttributes _ body hattributes] at hd
  rw [← contentless_expandAll hg, expandAll_of_allHoldAttributes _ body hattributes,
    ← isEmpty_contentModel_iff] at hbody
  obtain ⟨m, hm, hempty⟩ :=
    exists_contentModel_of_allHoldAttributes parent children body hattributes
  rw [hm, Option.any_some, decide_eq_true_eq] at hbody
  rw [expandAll_append]
  refine checkUnder_insert hm (hempty.resolve_left hbody) (fun other hother => ?_) hd
  rw [← expandAll_append, content_expandAll] at hother
  obtain ⟨p, hp, hexpand⟩ := List.map_eq_singleton_iff.mp hother
  exact hsingle other (eq_element_of_expand_eq hexpand ▸ hp)

end RngGrammar

open Pattern in
/-- **Where an imported grammar forbids children.** The model of an element is empty when its
patterns have no content, it nests an empty model when its patterns have a bare reference, and it
refuses children for one of these reasons only. A reference put among the patterns of an element
forbids all children when it leads to no content; when it leads to attributes with content, it adds
no defect, unless the element had a single element as its only content. -/
theorem forbidsChildren_parseRng {document : Text} {specs : List (ElementSpec Text)}
    (h : parseRng document = .ok specs) :
    ∃ root, Xml.parse? document = some root ∧
      let g := RelaxNg.ofXml root
      (∀ spec ∈ specs, ∃ e ∈ g.namedElements, g.elementSpec e = spec ∧
        ∀ m, spec.model? = some m →
          (m.arrangement = .empty ↔ Contentless g.defines e.body) ∧
          (m.nestsEmpty = true ↔ HasBareReference g.defines e.body) ∧
          ∀ (parent : Text) (children : List (Child Text)), ∀ d ∈ m.check parent children,
            d.finding.isNotEmpty = true →
              Contentless g.defines e.body ∨ HasBareReference g.defines e.body) ∧
      ∀ (e : ElementPattern) (before after : List Pattern) (name : Text) (body : List Pattern),
        e.body = before ++ after → content e.body ≠ [] → g.defines.find? name = some body →
          let extended := g.elementSpec { e with body := before ++ .ref name :: after }
          (Contentless g.defines body →
            ∀ (parent : Text) (child : Child Text) (children : List (Child Text)),
              child.report (.notEmpty parent)
                ∈ checkUnder parent (child :: children) extended.model?) ∧
          (¬ Contentless g.defines body → allHoldAttributes body = true →
            (∀ other, content e.body ≠ [.element other]) →
              ∀ (parent : Text) (children : List (Child Text)),
                ∀ d ∈ checkUnder parent children extended.model?,
                  d ∈ checkUnder parent children (g.elementSpec e).model?) := by
  obtain ⟨root, hroot, -, -, rfl⟩ := parseRng_eq_ok_iff.mp h
  have hg := RelaxNg.distinct_defines_ofXml root
  refine ⟨root, hroot, fun spec hspec => ?_, ?_⟩
  · obtain ⟨e, he, rfl⟩ := RngGrammar.mem_elementSpecs_iff.mp hspec
    refine ⟨e, he, rfl, fun m hm => ?_⟩
    have hempty := RngGrammar.isEmpty_elementSpec_iff hg hm
    have hnests := RngGrammar.nestsEmpty_elementSpec_iff hg hm
    refine ⟨hempty, hnests, fun parent children d hd hfinding => ?_⟩
    rw [← hempty, ← hnests]
    exact m.isEmpty_or_nestsEmpty hd hfinding
  · rintro ⟨element, documentation, obstacle, patterns⟩ before after name body rfl hother hname
    constructor
    · exact fun hbody parent child children =>
        RngGrammar.notEmpty_mem_checkUnder_ref hg hname hbody hother parent child children
    · exact fun hbody hattributes hsingle parent children d hd =>
        RngGrammar.mem_checkUnder_of_mem_checkUnder_ref hg hname hattributes hbody hsingle hd

/-- A grammar in which `p` admits `a`, with a reference among its patterns or without. -/
def grammarWith (reference : String) : Text :=
  Text.ofString "<grammar xmlns=\"http://relaxng.org/ns/structure/1.0\"><element name=\"p\">"
    ++ Text.ofString reference
    ++ Text.ofString "<text/><element name=\"a\"/></element>"
    ++ Text.ofString "<define name=\"d\"><attribute name=\"x\"/></define></grammar>"

/-- The grammar with the reference is imported. -/
theorem forbidsChildren_grammarWith :
    ∃ specs, parseRng (grammarWith "<ref name=\"d\"/>") = .ok specs ∧
      ∃ root, Xml.parse? (grammarWith "<ref name=\"d\"/>") = some root ∧
        ∀ spec ∈ specs, ∃ e ∈ (RelaxNg.ofXml root).namedElements,
          (RelaxNg.ofXml root).elementSpec e = spec ∧ ∀ m, spec.model? = some m →
            (m.nestsEmpty = true ↔
              Pattern.HasBareReference (RelaxNg.ofXml root).defines e.body) := by
  have himport : importsElement (fun _ => true) (grammarWith "<ref name=\"d\"/>") = true := by
    decide +kernel
  obtain ⟨specs, hspecs, -⟩ := exists_mem_of_importsElement himport
  obtain ⟨root, hroot, helements, -⟩ := forbidsChildren_parseRng hspecs
  refine ⟨specs, hspecs, root, hroot, fun spec hspec => ?_⟩
  obtain ⟨e, he, heq, hm⟩ := helements spec hspec
  exact ⟨e, he, heq, fun m hmodel => (hm m hmodel).2.1⟩

/-- What there is to see of `p`: whether its model is empty, whether it nests an empty model, and
whether a single child `a` is refused, and where. -/
def defectsOfChild (spec : ElementSpec Text) : Option (Bool × Bool × List (Bool × Position)) :=
  if spec.name = Text.ofString "p" then
    spec.model?.map fun m =>
      (m.arrangement = .empty, m.nestsEmpty,
        (m.check (Text.ofString "p") [⟨Text.ofString "a", ⟨1, 4⟩⟩]).map fun d =>
          (d.finding.isNotEmpty, d.position))
  else none

/-- A reference to an attribute makes `p` refuse the child that it admits without it. -/
theorem refusesChild_grammarWith :
    (∃ specs, parseRng (grammarWith "") = .ok specs ∧
      ∃ spec ∈ specs, (defectsOfChild spec == some (false, false, [])) = true) ∧
    ∃ specs, parseRng (grammarWith "<ref name=\"d\"/>") = .ok specs ∧
      ∃ spec ∈ specs, (defectsOfChild spec == some (false, true, [(true, ⟨1, 4⟩)])) = true :=
  ⟨exists_mem_of_importsElement (by decide +kernel),
    exists_mem_of_importsElement (by decide +kernel)⟩

end MarkupGrammar
