import MarkupGrammar.Compile.Schema
import MarkupGrammar.Proofs.Compile.Names
import MarkupGrammar.Proofs.Grammar.Table

/-!
# What content reaches

Macros refer to each other, also in circles, and expansion takes each macro at most once on a path.
This module says that the cut costs nothing: the names in a compiled model are those that the
particles reach in the graph of references, where a macro may be entered any number of times.

## The graph

`CorpusIndex.Reaches` is that graph, as an inductive relation. It knows nothing of a path: the
macros it may not enter are fixed, and are those visited before the content was compiled.

## Why the cut is harmless

A path that comes back to a macro can be shortened to the part after its last visit.
`Reaches.avoid` says it without paths: what is reached is reached without the macro, or it is
reached from the content of the macro without it. So a macro loses nothing when its content is
expanded with the macro taken out, which is what `mem_names_expand` needs at its one recursive
case.

## What is assumed

References are by text, and no macro is declared twice: an index is a dictionary of macros. Names
that are arrays or objects cannot be looked up at all, and compilation fails on them.

## Main results

* `Reaches.avoid` — loop removal
* `isUsable_expand` — references by text never fail
* `mem_names_expand` — expansion finds exactly what is reached
* `mem_elementNames_compileContent_iff` — and so do compiled models and the children of elements
-/

namespace MarkupGrammar

variable {Name : Type} [Label Name]

/-! ### References by text -/

namespace ParticleKind

/-- Whether a particle of the kind refers to something by its key. -/
def isReference : ParticleKind → Bool
  | .elementRef => true
  | .classRef => true
  | .macroRef => true
  | _ => false

end ParticleKind

/-- Whether all references in a particle are by text. -/
inductive Particle.IsTextual : Particle Name → Prop
  | intro {kind : ParticleKind} {key : Option Name} {bounds : Bounds}
      {content : List (Particle Name)}
      (hkey : kind.isReference = true → ∀ k ∈ key, Label.IsText k)
      (hcontent : ∀ p ∈ content, p.IsTextual) : IsTextual ⟨kind, key, bounds, content⟩

/-- What compilation may rely on in an index: its macros are a dictionary, and all references in
them are by text. -/
structure CorpusIndex.IsTextual (index : CorpusIndex Name) : Prop where
  distinct : index.macros.Distinct
  references : ∀ e ∈ index.macros, ∀ p ∈ e.2.content.getD [], p.IsTextual

/-! ### The graph of references -/

/-- A particle reaches a name when it refers to it by a key that is not void, refers to a class that
it is a member of, groups a particle that reaches it, or refers to a macro, other than those already
visited, with a particle in its content that reaches it. -/
inductive CorpusIndex.Reaches (index : CorpusIndex Name) (visited : List Name) :
    Particle Name → Name → Prop
  | element {p : Particle Name} {name : Name} (hkind : p.kind = .elementRef)
      (hkey : p.key = some name) (hvoid : Label.isVoid name = false) : Reaches index visited p name
  | member {p : Particle Name} {c name : Name} (hkind : p.kind = .classRef) (hkey : p.key = some c)
      (hvoid : Label.isVoid c = false) (hname : name ∈ index.membersOf c) :
      Reaches index visited p name
  | part {p q : Particle Name} {name : Name}
      (hkind : p.kind = .sequence ∨ p.kind = .alternate ∨ p.kind = .interleave)
      (hq : q ∈ p.content) (h : Reaches index visited q name) : Reaches index visited p name
  | viaMacro {p q : Particle Name} {m name : Name} {d : MacroDef Name} {ps : List (Particle Name)}
      (hkind : p.kind = .macroRef) (hkey : p.key = some m) (hvoid : Label.isVoid m = false)
      (hm : m ∉ visited) (hd : index.macros.find? m = some d) (hps : d.content = some ps)
      (hq : q ∈ ps) (h : Reaches index visited q name) : Reaches index visited p name

namespace CorpusIndex

variable {index : CorpusIndex Name} {visited : List Name}

/-- Fewer visited macros reach more. -/
theorem Reaches.mono {p : Particle Name} {m name : Name}
    (h : index.Reaches (m :: visited) p name) : index.Reaches visited p name := by
  induction h with
  | element hkind hkey hvoid => exact .element hkind hkey hvoid
  | member hkind hkey hvoid hname => exact .member hkind hkey hvoid hname
  | part hkind hq _ ih => exact .part hkind hq ih
  | viaMacro hkind hkey hvoid hm hd hps hq _ ih =>
    exact .viaMacro hkind hkey hvoid (fun hin => hm (List.mem_cons_of_mem _ hin)) hd hps hq ih

/-- **Loop removal.** What is reached is reached without entering a macro, or it is reached from a
particle of that macro's content without entering it again. -/
theorem Reaches.avoid {p : Particle Name} {m name : Name} {d : MacroDef Name}
    {ps : List (Particle Name)} (hd : index.macros.find? m = some d) (hps : d.content = some ps)
    (h : index.Reaches visited p name) :
    index.Reaches (m :: visited) p name ∨ ∃ q ∈ ps, index.Reaches (m :: visited) q name := by
  induction h with
  | element hkind hkey hvoid => exact Or.inl (.element hkind hkey hvoid)
  | member hkind hkey hvoid hname => exact Or.inl (.member hkind hkey hvoid hname)
  | part hkind hq _ ih =>
    rcases ih with ih | ih
    · exact Or.inl (.part hkind hq ih)
    · exact Or.inr ih
  | @viaMacro p q m' name d' ps' hkind hkey hvoid hm' hd' hps' hq _ ih =>
    rcases ih with ih | ih
    · by_cases hmm : m' = m
      · -- the last visit to `m` starts here
        subst hmm
        obtain rfl : d' = d := Option.some.inj (hd'.symm.trans hd)
        obtain rfl : ps' = ps := Option.some.inj (hps'.symm.trans hps)
        exact Or.inr ⟨q, hq, ih⟩
      · have hnot : m' ∉ m :: visited := by simp [hmm, hm']
        exact Or.inl (.viaMacro hkind hkey hvoid hnot hd' hps' hq ih)
    · exact Or.inr ih

/-- What a particle reaches, by its kind. -/
theorem reaches_iff {p : Particle Name} {name : Name} :
    index.Reaches visited p name ↔
      match p.kind with
      | .sequence | .alternate | .interleave => ∃ q ∈ p.content, index.Reaches visited q name
      | .elementRef => p.key = some name ∧ Label.isVoid name = false
      | .classRef => ∃ c, p.key = some c ∧ Label.isVoid c = false ∧ name ∈ index.membersOf c
      | .macroRef => ∃ m d ps, p.key = some m ∧ Label.isVoid m = false ∧ m ∉ visited ∧
          index.macros.find? m = some d ∧ d.content = some ps ∧
          ∃ q ∈ ps, index.Reaches visited q name
      | .textNode | .empty | .unsupported => False := by
  constructor
  · intro h
    cases h with
    | element hkind hkey hvoid => rw [hkind]; exact ⟨hkey, hvoid⟩
    | member hkind hkey hvoid hname => rw [hkind]; exact ⟨_, hkey, hvoid, hname⟩
    | part hkind hq h => rcases hkind with hkind | hkind | hkind <;> rw [hkind] <;> exact ⟨_, hq, h⟩
    | viaMacro hkind hkey hvoid hm hd hps hq h =>
      rw [hkind]; exact ⟨_, _, _, hkey, hvoid, hm, hd, hps, _, hq, h⟩
  · cases hkind : p.kind with
    | sequence => rintro ⟨q, hq, h⟩; exact .part (Or.inl hkind) hq h
    | alternate => rintro ⟨q, hq, h⟩; exact .part (Or.inr (Or.inl hkind)) hq h
    | interleave => rintro ⟨q, hq, h⟩; exact .part (Or.inr (Or.inr hkind)) hq h
    | elementRef => rintro ⟨hkey, hvoid⟩; exact .element hkind hkey hvoid
    | classRef => rintro ⟨c, hkey, hvoid, hname⟩; exact .member hkind hkey hvoid hname
    | macroRef =>
      rintro ⟨m, d, ps, hkey, hvoid, hm, hd, hps, q, hq, h⟩
      exact .viaMacro hkind hkey hvoid hm hd hps hq h
    | textNode => exact False.elim
    | empty => exact False.elim
    | unsupported => exact False.elim

theorem IsTextual.of_find? (hi : index.IsTextual) {m : Name} {d : MacroDef Name}
    {ps : List (Particle Name)} (hd : index.macros.find? m = some d) (hps : d.content = some ps) :
    ∀ p ∈ ps, p.IsTextual := by
  obtain ⟨k, hk⟩ := Table.exists_mem_of_find? hd
  have hd := hi.references (k, d) hk
  simpa [hps] using hd

/-! ### The macros that are left -/

theorem macrosWithout_cons (m : Name) :
    index.macrosWithout (m :: visited)
      = (index.macrosWithout visited).filter fun e => !(e.1 == m) :=
  Table.without_cons index.macros m visited

/-- Taking a macro out of those that are left: it has to be declared and not visited, and visiting
it leaves the others. -/
theorem take?_macrosWithout_eq_some_iff [LawfulLabel Name] (hi : index.macros.Distinct) {m : Name}
    (hm : Label.IsText m) {d : MacroDef Name} {rest : Table Name (MacroDef Name)} :
    (index.macrosWithout visited).take? m = some (d, rest) ↔
      m ∉ visited ∧ index.macros.find? m = some d ∧ rest = index.macrosWithout (m :: visited) := by
  have hfind : (index.macrosWithout visited).find? m
      = if !visited.elem m then index.macros.find? m else none :=
    Table.find?_filter index.macros (fun k => !visited.elem k) hm
  have hdistinct : (index.macrosWithout visited).Distinct := hi.filter _
  rw [Table.take?_eq hdistinct hm, ← macrosWithout_cons m, hfind]
  by_cases hv : m ∈ visited
  · simp [hv, (hm.elem_iff visited).mpr hv]
  · cases index.macros.find? m <;> simp [hv, mt (hm.elem_iff visited).mp hv, eq_comm]

theorem length_macrosWithout_lt [LawfulLabel Name] (hi : index.macros.Distinct) {m : Name}
    (hm : Label.IsText m) (hv : m ∉ visited) {d : MacroDef Name}
    (hd : index.macros.find? m = some d) :
    (index.macrosWithout (m :: visited)).length < (index.macrosWithout visited).length := by
  have htake := (take?_macrosWithout_eq_some_iff hi hm).mpr ⟨hv, hd, rfl⟩
  have hlength := Table.length_of_take? htake
  omega

/-! ### Expansion finds what is reached -/

/-- A reference to a macro is its content, expanded with the macro visited, or it is nothing. -/
theorem expand_macroRef [LawfulLabel Name] (hi : index.macros.Distinct) (visited : List Name)
    {m : Name} (hm : Label.IsText m) (hvoid : Label.isVoid m = false) (bounds : Bounds)
    (content : List (Particle Name)) :
    (∃ d ps, m ∉ visited ∧ index.macros.find? m = some d ∧ d.content = some ps ∧
        index.expand (index.macrosWithout visited) ⟨.macroRef, some m, bounds, content⟩
          = .content (index.expandAll (index.macrosWithout (m :: visited)) ps) bounds) ∨
      ((∀ d ps, m ∉ visited → index.macros.find? m = some d → d.content ≠ some ps) ∧
        index.expand (index.macrosWithout visited) ⟨.macroRef, some m, bounds, content⟩
          = .nothing) := by
  rw [expand]
  simp only [hvoid, hm.isName, Bool.not_true, Bool.false_eq_true, if_false]
  split
  · next htake =>
    refine Or.inr ⟨fun d ps hv hd _ => ?_, rfl⟩
    rw [(take?_macrosWithout_eq_some_iff hi hm).mpr ⟨hv, hd, rfl⟩] at htake
    cases htake
  · next d rest htake =>
    obtain ⟨hv, hd, rfl⟩ := (take?_macrosWithout_eq_some_iff hi hm).mp htake
    cases hps : d.content with
    | none =>
      refine Or.inr ⟨fun d' ps _ hd' hps' => ?_, rfl⟩
      obtain rfl : d' = d := Option.some.inj (hd'.symm.trans hd)
      cases hps.symm.trans hps'
    | some ps => exact Or.inl ⟨d, ps, hv, hd, hps, rfl⟩

mutual

/-- References by text never fail. -/
theorem isUsable_expand [LawfulLabel Name] (hi : index.IsTextual) (visited : List Name)
    (p : Particle Name) (hp : p.IsTextual) :
    (index.expand (index.macrosWithout visited) p).isUsable = true := by
  cases hp with
  | @intro kind key bounds content hkey hcontent =>
    cases kind with
    | sequence => rw [expand]; exact areUsable_expandAll hi visited content hcontent
    | alternate => rw [expand]; exact areUsable_expandAll hi visited content hcontent
    | interleave => rw [expand]; exact areUsable_expandAll hi visited content hcontent
    | elementRef =>
      cases key with
      | none => rw [expand]; rfl
      | some k => rw [expand]; cases Label.isVoid k <;> rfl
    | classRef =>
      cases key with
      | none => rw [expand]; rfl
      | some k =>
        rw [expand]
        simp only [(hkey rfl k rfl).isName]
        cases Label.isVoid k <;> rfl
    | macroRef =>
      cases key with
      | none => rw [expand]; rfl
      | some m =>
        have hm : Label.IsText m := hkey rfl m rfl
        cases hvoid : Label.isVoid m with
        | true => rw [expand]; simp [hvoid, Expansion.isUsable]
        | false =>
          rcases expand_macroRef hi.distinct visited hm hvoid bounds content with
            ⟨d, ps, hv, hd, hps, heq⟩ | ⟨-, heq⟩
          · have := length_macrosWithout_lt hi.distinct hm hv hd
            rw [heq]
            exact areUsable_expandAll hi (m :: visited) ps (hi.of_find? hd hps)
          · rw [heq]; rfl
    | textNode => rw [expand]; rfl
    | empty => rw [expand]; rfl
    | unsupported => rw [expand]; rfl
termination_by ((index.macrosWithout visited).length, sizeOf p)

theorem areUsable_expandAll [LawfulLabel Name] (hi : index.IsTextual) (visited : List Name)
    (ps : List (Particle Name)) (hps : ∀ p ∈ ps, p.IsTextual) :
    Expansion.areUsable (index.expandAll (index.macrosWithout visited) ps) = true := by
  cases ps with
  | nil => rw [expandAll]; rfl
  | cons p ps =>
    rw [expandAll, Expansion.areUsable, isUsable_expand hi visited p (hps p List.mem_cons_self),
      areUsable_expandAll hi visited ps fun q hq => hps q (List.mem_cons_of_mem p hq)]
    rfl
termination_by ((index.macrosWithout visited).length, sizeOf ps)

end

mutual

/-- **Expansion finds exactly what is reached.** The recursion is that of expansion: into the parts
of a group, and into the content of a macro with that macro visited, where loop removal says that
the visit costs nothing. -/
theorem mem_names_expand [LawfulLabel Name] (hi : index.IsTextual) (visited : List Name)
    (p : Particle Name) (hp : p.IsTextual) (name : Name) :
    name ∈ (index.expand (index.macrosWithout visited) p).names ↔
      index.Reaches visited p name := by
  rw [reaches_iff]
  cases hp with
  | @intro kind key bounds content hkey hcontent =>
    cases kind with
    | sequence => rw [expand]; exact mem_namesOfAll_expandAll hi visited content hcontent name
    | alternate => rw [expand]; exact mem_namesOfAll_expandAll hi visited content hcontent name
    | interleave => rw [expand]; exact mem_namesOfAll_expandAll hi visited content hcontent name
    | elementRef =>
      cases key with
      | none => rw [expand]; simp [Expansion.names]
      | some k =>
        rw [expand]
        cases hvoid : Label.isVoid k
        · simp only [Bool.false_eq_true, if_false, Expansion.names, List.mem_singleton]
          exact ⟨fun h => ⟨congrArg some h.symm, h ▸ hvoid⟩, fun h => (Option.some.inj h.1).symm⟩
        · simp only [if_true, Expansion.names, List.not_mem_nil, false_iff]
          rintro ⟨hk, hname⟩
          rw [← Option.some.inj hk, hvoid] at hname
          exact Bool.noConfusion hname
    | classRef =>
      cases key with
      | none => rw [expand]; simp [Expansion.names]
      | some k =>
        rw [expand]
        simp only [(hkey rfl k rfl).isName]
        cases hvoid : Label.isVoid k <;> simp [Expansion.names, hvoid]
    | macroRef =>
      cases key with
      | none => rw [expand]; simp [Expansion.names]
      | some m =>
        have hm : Label.IsText m := hkey rfl m rfl
        cases hvoid : Label.isVoid m with
        | true => rw [expand]; simp [hvoid, Expansion.names]
        | false =>
          rcases expand_macroRef hi.distinct visited hm hvoid bounds content with
            ⟨d, ps, hv, hd, hps, heq⟩ | ⟨hnone, heq⟩
          · have := length_macrosWithout_lt hi.distinct hm hv hd
            rw [heq, Expansion.names,
              mem_namesOfAll_expandAll hi (m :: visited) ps (hi.of_find? hd hps) name]
            constructor
            · rintro ⟨q, hq, h⟩
              exact ⟨m, d, ps, rfl, hvoid, hv, hd, hps, q, hq, h.mono⟩
            · rintro ⟨m', d', ps', hkey', -, -, hd', hps', q, hq, h⟩
              obtain rfl : m = m' := Option.some.inj hkey'
              obtain rfl : d = d' := Option.some.inj (hd.symm.trans hd')
              obtain rfl : ps = ps' := Option.some.inj (hps.symm.trans hps')
              rcases h.avoid hd hps with h | h
              · exact ⟨q, hq, h⟩
              · exact h
          · rw [heq]
            simp only [Expansion.names, List.not_mem_nil, false_iff]
            rintro ⟨m', d', ps', hkey', -, hv', hd', hps', -⟩
            obtain rfl : m = m' := Option.some.inj hkey'
            exact hnone d' ps' hv' hd' hps'
    | textNode => rw [expand]; simp [Expansion.names]
    | empty => rw [expand]; simp [Expansion.names]
    | unsupported => rw [expand]; simp [Expansion.names]
termination_by ((index.macrosWithout visited).length, sizeOf p)

theorem mem_namesOfAll_expandAll [LawfulLabel Name] (hi : index.IsTextual) (visited : List Name)
    (ps : List (Particle Name)) (hps : ∀ p ∈ ps, p.IsTextual) (name : Name) :
    name ∈ Expansion.namesOfAll (index.expandAll (index.macrosWithout visited) ps) ↔
      ∃ p ∈ ps, index.Reaches visited p name := by
  cases ps with
  | nil => simp [expandAll, Expansion.namesOfAll]
  | cons p ps =>
    rw [expandAll, Expansion.namesOfAll, List.mem_append,
      mem_names_expand hi visited p (hps p List.mem_cons_self) name,
      mem_namesOfAll_expandAll hi visited ps (fun q hq => hps q (List.mem_cons_of_mem p hq)) name]
    simp
termination_by ((index.macrosWithout visited).length, sizeOf ps)

end

/-! ### Models and children -/

theorem mem_names_compileContent [LawfulLabel Name] (hi : index.IsTextual) (visited : List Name)
    {content : Option (List (Particle Name))} (hc : ∀ p ∈ content.getD [], p.IsTextual)
    (name : Name) :
    name ∈ Expansion.namesOf (index.compileContent visited content) ↔
      ∃ p ∈ content.getD [], index.Reaches visited p name := by
  rw [compileContent, Expansion.names_compile]
  exact mem_namesOfAll_expandAll hi visited _ hc name

/-- The children of a compiled element are the names in its model, if it has one. -/
theorem children_compileElement (index : CorpusIndex Name) (d : ElementDef Name) :
    (index.compileElement d).children
      = (index.compileContent [] d.content).elim [] ContentModel.elementNames := by
  rw [compileElement, ElementSpec.children]
  cases index.compileContent [] d.content <;> rfl

/-- **Cutting circles of macros loses no name and invents none.** With any macros visited before,
compilation goes through, the elements in the model are those that the particles reach in the graph
of references, and no model means none. The children of an element are all that its content
reaches. -/
theorem mem_elementNames_compileContent_iff [LawfulLabel Name] (hi : index.IsTextual)
    (visited : List Name) (content : Option (List (Particle Name)))
    (hc : ∀ p ∈ content.getD [], p.IsTextual) :
    Expansion.areUsable (index.expandContent visited content) = true ∧
      (∀ t : Text, Label.ofText t ∈
          (index.compileContent visited content).elim [] ContentModel.elementNames ↔
        ∃ p ∈ content.getD [], index.Reaches visited p (Label.ofText t)) ∧
      ∀ d : ElementDef Name, d.content = content → ∀ t : Text,
        Label.ofText t ∈ (index.compileElement d).children ↔
          ∃ p ∈ content.getD [], index.Reaches [] p (Label.ofText t) := by
  have hnames : ∀ (visited : List Name) (t : Text), Label.ofText t ∈
      (index.compileContent visited content).elim [] ContentModel.elementNames ↔
        ∃ p ∈ content.getD [], index.Reaches visited p (Label.ofText t) := by
    intro visited t
    rw [← mem_names_compileContent hi visited hc]
    cases index.compileContent visited content with
    | none => rfl
    | some m => exact Label.ofText_mem_eraseDups t m.names
  refine ⟨areUsable_expandAll hi visited _ hc, hnames visited, ?_⟩
  rintro d rfl t
  rw [children_compileElement]
  exact hnames [] t

/-- Two macros that refer to each other, each with an element of its own. -/
def circular : CorpusIndex Json where
  title := none
  edition := none
  elements := []
  macros :=
    [(.string "outer", ⟨.string "outer", none, some
        [⟨.elementRef, some (.string "p"), Bounds.once, []⟩,
         ⟨.macroRef, some (.string "inner"), Bounds.anyNumber, []⟩]⟩),
     (.string "inner", ⟨.string "inner", none, some
        [⟨.macroRef, some (.string "outer"), Bounds.once, []⟩,
         ⟨.elementRef, some (.string "q"), Bounds.once, []⟩]⟩)]
  modelClasses := []
  attributeClasses := []
  datatypes := []

theorem isTextual_of_key (kind : ParticleKind) (t : Text) (bounds : Bounds) :
    Particle.IsTextual (⟨kind, some (Label.ofText t), bounds, []⟩ : Particle Name) :=
  .intro (fun _ _ hk => ⟨t, (Option.some.inj hk).symm⟩) fun _ hp => nomatch hp

theorem circular_isTextual : circular.IsTextual where
  distinct := by
    unfold Table.Distinct
    decide
  references := by
    intro e he p hp
    simp only [circular, List.mem_cons, List.not_mem_nil, or_false] at he
    rcases he with rfl | rfl <;>
      · simp only [Option.getD_some, List.mem_cons, List.not_mem_nil, or_false] at hp
        rcases hp with rfl | rfl <;> exact isTextual_of_key _ _ _

/-- The element of the inner macro is reached through the circle, and it is in the model. -/
theorem mem_elementNames_circular :
    circular.IsTextual ∧
      (∀ p ∈ [(⟨.macroRef, some (.string "outer"), Bounds.once, []⟩ : Particle Json)],
        p.IsTextual) ∧
      Json.string "q" ∈ (circular.compileContent []
        (some [⟨.macroRef, some (.string "outer"), Bounds.once, []⟩])).elim []
          ContentModel.elementNames := by
  have hc : ∀ p ∈ [(⟨.macroRef, some (.string "outer"), Bounds.once, []⟩ : Particle Json)],
      p.IsTextual := by
    intro p hp
    obtain rfl := List.mem_singleton.mp hp
    exact isTextual_of_key _ _ _
  refine ⟨circular_isTextual, hc, ?_⟩
  refine ((mem_elementNames_compileContent_iff circular_isTextual [] (some _) hc).2.1
    (Text.ofString "q")).mpr ⟨_, List.mem_singleton_self _, ?_⟩
  refine .viaMacro rfl rfl rfl List.not_mem_nil rfl rfl
    (List.mem_cons_of_mem _ List.mem_cons_self) ?_
  refine .viaMacro rfl rfl rfl List.not_mem_nil rfl rfl
    (List.mem_cons_of_mem _ List.mem_cons_self) ?_
  exact .element rfl rfl rfl

end CorpusIndex

end MarkupGrammar
