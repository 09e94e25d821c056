import MarkupGrammar.Proofs.Compile.Alone
import MarkupGrammar.Proofs.Json.Name

/-!
# Expansion out of context

A particle is expanded with the macros that have been visited on the way to it, so what it stands
for could depend on where it stands. It does, inside a circle of macros: the reference that closes
the circle stands for nothing. This module says that it depends on nothing else. Two sets of visited
macros that agree on the macros a particle reaches expand it alike, however much they differ
elsewhere.

## Two runs

Both sets grow along the recursion, by the same macro at each reference, while what is reached from
the particles at hand shrinks. So the agreement is kept on the way down, and it is all that
`expand_congr` needs: at a reference it says that both runs enter the macro or that neither does.

## Places

`CorpusIndex.ComesTo` lists the places that compilation comes to, each with the macros entered on
the way. Every one of those macros reaches what is reached from there
(`ComesTo.exists_reachesMacro`). So where no macro reaches itself, no place is inside a macro that
it reaches, and a macro has the same model at all places.

## What is assumed

The macros are a dictionary. References need not be by text: names are compared as an index compares
them, where `1` and `true` are one name, and a reference that cannot be looked up makes both runs
fail.

## Main results

* `CorpusIndex.take?_macrosWithout` — taking a macro out of those that are left, for any name
* `CorpusIndex.expand_congr` — two sets that agree on what is reached expand alike
* `CorpusIndex.ComesTo.isOutside` — without circles no place is inside what it reaches
* `CorpusIndex.compileContent_out_of_context` — compiled content does not depend on its context
-/

namespace MarkupGrammar

namespace CorpusIndex

variable {index : CorpusIndex Json} {visited visited' : List Json}

/-! ### The macros that are left -/

/-- Taking a macro out of those that are left: it has to be declared and not visited, and visiting
it leaves the others. -/
theorem take?_macrosWithout (hi : index.macros.Distinct) (visited : List Json) {m : Json}
    (hm : m.isName = true) :
    (index.macrosWithout visited).take? m = if visited.elem m then none else
      (index.macros.find? m).map fun d => (d, index.macrosWithout (m :: visited)) := by
  have hdistinct : (index.macrosWithout visited).Distinct := hi.filter _
  have hkeep : ∀ k, (k == m) = true → (!visited.elem k) = !visited.elem m :=
    fun k hk => congrArg not (Json.elem_congr_of_isName hm hk visited)
  have hfind : (index.macrosWithout visited).find? m
      = if !visited.elem m then index.macros.find? m else none :=
    Table.find?_filter_of_congr index.macros hkeep
  rw [Table.take?_of_isName hdistinct hm, ← macrosWithout_cons m, hfind]
  cases visited.elem m <;> rfl

/-- The content that a reference to a macro is replaced by, if it is to be replaced. -/
def entered? (index : CorpusIndex Json) (visited : List Json) (m : Json) :
    Option (List (Particle Json)) :=
  if visited.elem m then none else (index.macros.find? m).bind MacroDef.content

theorem entered?_eq_some_iff {m : Json} {ps : List (Particle Json)} :
    index.entered? visited m = some ps ↔
      visited.elem m = false ∧ ∃ d, index.macros.find? m = some d ∧ d.content = some ps := by
  rw [entered?]
  cases visited.elem m <;> simp [Option.bind_eq_some_iff]

/-- What a reference to a macro stands for: the content of the macro, expanded with the macro
visited, or nothing. -/
theorem expand_reference_eq (hi : index.macros.Distinct) (visited : List Json) {m : Json}
    (hm : m.isName = true) (hvoid : Label.isVoid m = false) (bounds : Bounds)
    (content : List (Particle Json)) :
    index.expand (index.macrosWithout visited) ⟨.macroRef, some m, bounds, content⟩ =
      match index.entered? visited m with
      | none => .nothing
      | some ps => .content (index.expandAll (index.macrosWithout (m :: visited)) ps) bounds := by
  have hname : (!Label.isName m) = false := congrArg not hm
  have htake := take?_macrosWithout hi visited hm
  have hentered : index.entered? visited m
      = ((index.macrosWithout visited).take? m).bind fun e => e.1.content := by
    rw [htake, entered?]
    cases visited.elem m <;> cases index.macros.find? m <;> rfl
  rw [expand]
  simp only [hvoid, hname, Bool.false_eq_true, if_false]
  split
  · next hnone =>
    rw [hentered, hnone]
    rfl
  · next d rest hsome =>
    obtain rfl : rest = index.macrosWithout (m :: visited) := by
      rw [hsome] at htake
      cases hv : visited.elem m <;> cases hd : index.macros.find? m <;> simp_all
    rw [hentered, hsome, Option.bind_some]
    cases d.content <;> rfl

/-! ### What is reached -/

/-- A particle reaches a macro when it refers to it, groups a particle that reaches it, or refers to
a macro with a particle in its content that reaches it. A reference by a void key refers to
nothing. -/
inductive ReachesMacro (index : CorpusIndex Json) : Particle Json → Json → Prop
  | reference {p : Particle Json} {m : Json} {d : MacroDef Json} (hkind : p.kind = .macroRef)
      (hkey : p.key = some m) (hvoid : Label.isVoid m = false)
      (hd : index.macros.find? m = some d) : ReachesMacro index p m
  | part {p q : Particle Json} {m : Json}
      (hkind : p.kind = .sequence ∨ p.kind = .alternate ∨ p.kind = .interleave)
      (hq : q ∈ p.content) (h : ReachesMacro index q m) : ReachesMacro index p m
  | inside {p q : Particle Json} {n m : Json} {d : MacroDef Json} {ps : List (Particle Json)}
      (hkind : p.kind = .macroRef) (hkey : p.key = some n) (hvoid : Label.isVoid n = false)
      (hd : index.macros.find? n = some d) (hps : d.content = some ps) (hq : q ∈ ps)
      (h : ReachesMacro index q m) : ReachesMacro index p m

/-- Two sets of visited macros have the same of those that a particle reaches. -/
def AgreeOn (index : CorpusIndex Json) (visited visited' : List Json) (p : Particle Json) : Prop :=
  ∀ m, index.ReachesMacro p m → visited.elem m = visited'.elem m

/-- Agreement is kept when both visit one more macro. -/
theorem AgreeOn.cons {p : Particle Json} (h : index.AgreeOn visited visited' p) (m : Json) :
    index.AgreeOn (m :: visited) (m :: visited') p := by
  intro n hn
  rw [List.elem_cons, List.elem_cons, h n hn]

theorem length_macrosWithout_cons_lt (hi : index.macros.Distinct) {m : Json}
    (hm : m.isName = true) {ps : List (Particle Json)} (h : index.entered? visited m = some ps) :
    (index.macrosWithout (m :: visited)).length < (index.macrosWithout visited).length := by
  obtain ⟨hv, d, hd, -⟩ := entered?_eq_some_iff.mp h
  have htake := take?_macrosWithout hi visited hm
  rw [hv, if_neg Bool.false_ne_true, hd, Option.map_some] at htake
  have hlength := Table.length_of_take? htake
  omega

mutual

/-- **Visited macros that are not reached make no difference.** Two sets of visited macros that
agree on what a particle reaches expand it alike. The recursion is that of expansion under the first
set; the second follows. -/
theorem expand_congr (hi : index.macros.Distinct) (visited visited' : List Json) :
    ∀ p : Particle Json, index.AgreeOn visited visited' p →
      index.expand (index.macrosWithout visited) p
        = index.expand (index.macrosWithout visited') p := by
  rintro ⟨kind, key, bounds, content⟩ h
  have hparts (hkind : kind = .sequence ∨ kind = .alternate ∨ kind = .interleave) :=
    expandAll_congr hi visited visited' content fun q hq m hm => h m (.part hkind hq hm)
  cases kind with
  | sequence => rw [expand, expand, hparts (by simp)]
  | alternate => rw [expand, expand, hparts (by simp)]
  | interleave => rw [expand, expand, hparts (by simp)]
  | macroRef =>
    cases key with
    | none => rw [expand, expand]
    | some m =>
      cases hvoid : Label.isVoid m with
      | true => rw [expand, expand, hvoid]; rfl
      | false =>
        cases hm : m.isName with
        | false =>
          have hname : (!Label.isName m) = true := congrArg not hm
          rw [expand, expand]
          simp only [hvoid, hname, Bool.false_eq_true, if_false, if_true]
        | true =>
          have hsame : index.entered? visited m = index.entered? visited' m := by
            rw [entered?, entered?]
            cases hd : index.macros.find? m with
            | none => simp
            | some d => rw [h m (.reference rfl rfl hvoid hd)]
          rw [expand_reference_eq hi visited hm hvoid, expand_reference_eq hi visited' hm hvoid,
            ← hsame]
          cases hentered : index.entered? visited m with
          | none => rfl
          | some ps =>
            have := length_macrosWithout_cons_lt hi hm hentered
            obtain ⟨-, d, hd, hps⟩ := entered?_eq_some_iff.mp hentered
            have hcontent : ∀ q ∈ ps, index.AgreeOn (m :: visited) (m :: visited') q :=
              fun q hq => AgreeOn.cons (fun n hn => h n (.inside rfl rfl hvoid hd hps hq hn)) m
            simp only [expandAll_congr hi (m :: visited) (m :: visited') ps hcontent]
  | elementRef => cases key <;> rw [expand, expand]
  | classRef => cases key <;> rw [expand, expand]
  | textNode => rw [expand, expand]
  | empty => rw [expand, expand]
  | unsupported => rw [expand, expand]
termination_by p => ((index.macrosWithout visited).length, sizeOf p)

theorem expandAll_congr (hi : index.macros.Distinct) (visited visited' : List Json)
    (ps : List (Particle Json)) (h : ∀ p ∈ ps, index.AgreeOn visited visited' p) :
    index.expandAll (index.macrosWithout visited) ps
      = index.expandAll (index.macrosWithout visited') ps := by
  cases ps with
  | nil => rw [expandAll, expandAll]
  | cons p ps =>
    obtain ⟨hp, hps⟩ := List.forall_mem_cons.mp h
    rw [expandAll, expandAll, expand_congr hi visited visited' p hp,
      expandAll_congr hi visited visited' ps hps]
termination_by ((index.macrosWithout visited).length, sizeOf ps)

end

/-! ### What is compiled -/

theorem expandContent_congr (hi : index.macros.Distinct) {content : Option (List (Particle Json))}
    (h : ∀ p ∈ content.getD [], index.AgreeOn visited visited' p) :
    index.expandContent visited content = index.expandContent visited' content :=
  expandAll_congr hi visited visited' _ h

theorem compileContent_congr (hi : index.macros.Distinct) {content : Option (List (Particle Json))}
    (h : ∀ p ∈ content.getD [], index.AgreeOn visited visited' p) :
    index.compileContent visited content = index.compileContent visited' content := by
  rw [compileContent, compileContent, expandContent_congr hi h]

/-- Of a reference only the key and the bounds are looked at. -/
theorem expand_reference_congr (left : Table Json (MacroDef Json)) {p p' : Particle Json}
    (hkind : p.kind = .macroRef) (hkind' : p'.kind = .macroRef) (hkey : p.key = p'.key)
    (hbounds : p.bounds = p'.bounds) : index.expand left p = index.expand left p' := by
  obtain ⟨kind, key, bounds, content⟩ := p
  obtain ⟨kind', key', bounds', content'⟩ := p'
  obtain rfl : kind = .macroRef := hkind
  obtain rfl : kind' = .macroRef := hkind'
  obtain rfl : key = key' := hkey
  obtain rfl : bounds = bounds' := hbounds
  cases key <;> rw [expand, expand]

/-- The model of a macro is the same under sets of visited macros that agree on what it reaches. -/
theorem macroModel?_congr (hi : index.macros.Distinct) {p : Particle Json}
    (hkind : p.kind = .macroRef) (h : index.AgreeOn visited visited' p) :
    index.macroModel? visited p = index.macroModel? visited' p := by
  rw [macroModel?, macroModel?]
  cases hkey : p.key with
  | none => rfl
  | some m =>
    rw [Option.bind_some, Option.bind_some]
    cases hvoid : Label.isVoid m with
    | true => rfl
    | false =>
      cases hd : index.macros.find? m with
      | none => simp
      | some d =>
        rw [h m (.reference hkind hkey hvoid hd), Option.bind_some, Option.bind_some]
        cases hps : d.content with
        | none => rfl
        | some ps =>
          rw [Option.bind_some, Option.bind_some, compileContent_congr hi fun q hq =>
            AgreeOn.cons (fun n hn => h n (.inside hkind hkey hvoid hd hps hq hn)) m]

/-! ### Places -/

/-- Compilation of particles comes to a particle, with the macros that it has entered on the way. -/
inductive ComesTo (index : CorpusIndex Json) (start : List (Particle Json)) :
    List Json → Particle Json → Prop
  | start {p : Particle Json} (hp : p ∈ start) : ComesTo index start [] p
  | part {visited : List Json} {p q : Particle Json} (h : ComesTo index start visited p)
      (hkind : p.kind = .sequence ∨ p.kind = .alternate ∨ p.kind = .interleave)
      (hq : q ∈ p.content) : ComesTo index start visited q
  | inside {visited : List Json} {p q : Particle Json} {m : Json} {ps : List (Particle Json)}
      (h : ComesTo index start visited p) (hkind : p.kind = .macroRef) (hkey : p.key = some m)
      (hvoid : Label.isVoid m = false) (hps : index.entered? visited m = some ps) (hq : q ∈ ps) :
      ComesTo index start (m :: visited) q

/-- A particle that reaches none of the macros that have been visited. -/
def IsOutside (index : CorpusIndex Json) (visited : List Json) (p : Particle Json) : Prop :=
  ∀ m, index.ReachesMacro p m → visited.elem m = false

/-- No macro is reached from its own content. -/
def IsAcyclic (index : CorpusIndex Json) : Prop :=
  ∀ m d ps, index.macros.find? m = some d → d.content = some ps →
    ∀ q ∈ ps, ∀ n, index.ReachesMacro q n → (n == m) = false

/-- What a reference reaches depends on its key only. -/
theorem IsOutside.of_key {p p' : Particle Json} (hkind : p.kind = .macroRef)
    (hkind' : p'.kind = .macroRef) (hkey : p.key = p'.key) (h : index.IsOutside visited p) :
    index.IsOutside visited p' := by
  intro m hm
  refine h m ?_
  cases hm with
  | reference _ hkey' hvoid hd => exact .reference hkind (hkey.trans hkey') hvoid hd
  | part hgroup _ _ => simp [hkind'] at hgroup
  | inside _ hkey' hvoid hd hps hq hm => exact .inside hkind (hkey.trans hkey') hvoid hd hps hq hm

theorem IsOutside.agreeOn {p : Particle Json} (h : index.IsOutside visited p)
    (h' : index.IsOutside visited' p) : index.AgreeOn visited visited' p :=
  fun m hm => (h m hm).trans (h' m hm).symm

/-- What is reached from inside a macro is reached from the content of the macro. -/
theorem ComesTo.exists_reachesMacro {start : List (Particle Json)} {p : Particle Json}
    (h : index.ComesTo start visited p) : ∀ m ∈ visited, ∃ d ps, index.macros.find? m = some d ∧
      d.content = some ps ∧ ∃ q ∈ ps, ∀ n, index.ReachesMacro p n → index.ReachesMacro q n := by
  induction h with
  | start hp => exact fun m hm => nomatch hm
  | part h hkind hq ih =>
    intro m hm
    obtain ⟨d, ps, hd, hps, q, hqps, hreaches⟩ := ih m hm
    exact ⟨d, ps, hd, hps, q, hqps, fun n hn => hreaches n (.part hkind hq hn)⟩
  | @inside visited p r m ps h hkind hkey hvoid hps hr ih =>
    obtain ⟨-, d, hd, hcontent⟩ := entered?_eq_some_iff.mp hps
    intro m' hm'
    rcases List.mem_cons.mp hm' with rfl | hm'
    · exact ⟨d, ps, hd, hcontent, r, hr, fun n hn => hn⟩
    · obtain ⟨d', ps', hd', hps', q, hq, hreaches⟩ := ih m' hm'
      exact ⟨d', ps', hd', hps', q, hq, fun n hn =>
        hreaches n (.inside hkind hkey hvoid hd hcontent hr hn)⟩

/-- **Without circles** no place is inside a macro that is reached from there. -/
theorem ComesTo.isOutside {start : List (Particle Json)} {p : Particle Json}
    (hacyclic : index.IsAcyclic) (h : index.ComesTo start visited p) :
    index.IsOutside visited p := by
  intro n hn
  refine Bool.eq_false_iff.mpr fun helem => ?_
  obtain ⟨m, hm, hbeq⟩ : ∃ m ∈ visited, (n == m) = true :=
    List.any_eq_true.mp (List.any_beq.trans helem)
  obtain ⟨d, ps, hd, hps, q, hq, hreaches⟩ := h.exists_reachesMacro m hm
  exact Bool.eq_false_iff.mp (hacyclic m d ps hd hps q hq n (hreaches n hn)) hbeq

/-! ### Siblings -/

/-- Several particles are compiled to the items that each of them has by itself. -/
theorem compileContent_of_two_le (visited : List Json) {ps : List (Particle Json)}
    (h : 2 ≤ ps.length) :
    index.compileContent visited (some ps) =
      if ps.filterMap (index.itemOf visited) = [] then none
      else some ⟨.sequence, ps.filterMap (index.itemOf visited), Bounds.once⟩ := by
  match ps, h with
  | p :: q :: rest, _ =>
    rw [compileContent_eq]
    dsimp only
    cases (p :: q :: rest).filterMap (index.itemOf visited) with
    | nil => rfl
    | cons item items => rfl

/-- So are the particles of a group. -/
theorem items_modelOf (visited : List Json) {p : Particle Json}
    (hkind : p.kind = .sequence ∨ p.kind = .alternate ∨ p.kind = .interleave) :
    (index.modelOf visited p).map ContentModel.items
      = some (p.content.filterMap (index.itemOf visited)) := by
  obtain ⟨kind, key, bounds, content⟩ := p
  rcases hkind with h | h | h <;> obtain rfl : kind = _ := h <;>
    rw [modelOf, expand, Expansion.toModel, Option.map_some, toItems_expandAll]

/-! ### Main result -/

/-- **Compiled content does not depend on its context**, away from circles of macros.

* Two sets of visited macros with the same of those that are reached compile particles to the same
  content, and one fails when the other does.
* A reference that reaches no visited macro has the same model at all such places, whichever macros
  have been visited there, and is the same item and the same model where it has the same bounds.
* Without circles that is so at every place that compilation comes to.
* Each sibling has an item of its own, at the top and in a group, and none has a part in that of
  another. -/
theorem compileContent_out_of_context (hi : index.macros.Distinct) :
    (∀ (visited visited' : List Json) (content : Option (List (Particle Json))),
      (∀ p ∈ content.getD [], index.AgreeOn visited visited' p) →
      index.compileContent visited content = index.compileContent visited' content ∧
      Expansion.areUsable (index.expandContent visited content)
        = Expansion.areUsable (index.expandContent visited' content)) ∧
    (∀ (visited visited' : List Json) (p p' : Particle Json), p.kind = .macroRef →
      p'.kind = .macroRef → p.key = p'.key →
      index.IsOutside visited p → index.IsOutside visited' p' →
      index.macroModel? visited p = index.macroModel? visited' p' ∧
      (p.bounds = p'.bounds → index.itemOf visited p = index.itemOf visited' p' ∧
        index.modelOf visited p = index.modelOf visited' p')) ∧
    (index.IsAcyclic → ∀ start visited p, index.ComesTo start visited p →
      index.IsOutside visited p) ∧
    (∀ (visited : List Json) (ps : List (Particle Json)), 2 ≤ ps.length →
      index.compileContent visited (some ps) =
        if ps.filterMap (index.itemOf visited) = [] then none
        else some ⟨.sequence, ps.filterMap (index.itemOf visited), Bounds.once⟩) ∧
    ∀ (visited : List Json) (p : Particle Json),
      p.kind = .sequence ∨ p.kind = .alternate ∨ p.kind = .interleave →
      (index.modelOf visited p).map ContentModel.items
        = some (p.content.filterMap (index.itemOf visited)) := by
  refine ⟨fun visited visited' content h => ⟨compileContent_congr hi h, ?_⟩, ?_,
    fun hacyclic start visited p h => h.isOutside hacyclic,
    fun visited ps h => compileContent_of_two_le visited h,
    fun visited p hkind => items_modelOf visited hkind⟩
  · rw [expandContent_congr hi h]
  · intro visited visited' p p' hkind hkind' hkey houtside houtside'
    have hagree : index.AgreeOn visited visited' p' :=
      (IsOutside.of_key hkind hkind' hkey houtside).agreeOn houtside'
    refine ⟨?_, fun hbounds => ?_⟩
    · rw [macroModel?, hkey]
      exact macroModel?_congr hi hkind' hagree
    · have hexpand : index.expand (index.macrosWithout visited) p
          = index.expand (index.macrosWithout visited') p' :=
        (expand_reference_congr _ hkind hkind' hkey hbounds).trans
          (expand_congr hi visited visited' p' hagree)
      exact ⟨congrArg Expansion.toItem hexpand, congrArg Expansion.toModel hexpand⟩

/-- A phrase that is used at the top and inside a macro that refers to itself. -/
def sharedPhrase : CorpusIndex Json where
  title := none
  edition := none
  elements := []
  macros :=
    [(.string "macro.phrase", ⟨.string "macro.phrase", none, some
        [⟨.elementRef, some (.string "hi"), Bounds.optional, []⟩,
         ⟨.textNode, none, Bounds.once, []⟩]⟩),
     (.string "macro.note", ⟨.string "macro.note", none, some
        [⟨.macroRef, some (.string "macro.phrase"), Bounds.once, []⟩,
         ⟨.macroRef, some (.string "macro.note"), Bounds.optional, []⟩]⟩)]
  modelClasses := []
  attributeClasses := []
  datatypes := []

/-- The phrase has the same model inside the note and outside. The note has not. -/
theorem compileContent_out_of_context_sharedPhrase :
    sharedPhrase.macros.Distinct ∧
      sharedPhrase.macroModel? [.string "macro.note"]
          ⟨.macroRef, some (.string "macro.phrase"), Bounds.once, []⟩
        = sharedPhrase.macroModel? []
          ⟨.macroRef, some (.string "macro.phrase"), Bounds.optional, []⟩ ∧
      sharedPhrase.macroModel? [.string "macro.note"]
          ⟨.macroRef, some (.string "macro.note"), Bounds.once, []⟩
        ≠ sharedPhrase.macroModel? []
          ⟨.macroRef, some (.string "macro.note"), Bounds.once, []⟩ := by
  have hdistinct : sharedPhrase.macros.Distinct := by
    unfold Table.Distinct
    decide
  have houtside : sharedPhrase.IsOutside [.string "macro.note"]
      ⟨.macroRef, some (.string "macro.phrase"), Bounds.once, []⟩ := by
    intro m hm
    cases hm with
    | reference hkind hkey hvoid hd =>
      obtain rfl := Option.some.inj hkey
      decide
    | part hkind hq h => simp at hkind
    | inside hkind hkey hvoid hd hps hq h =>
      obtain rfl := Option.some.inj hkey
      obtain rfl := Option.some.inj hd
      obtain rfl := Option.some.inj hps
      simp only [List.mem_cons, List.not_mem_nil, or_false] at hq
      rcases hq with rfl | rfl <;> cases h with
      | reference hkind => cases hkind
      | part hkind => simp at hkind
      | inside hkind => cases hkind
  refine ⟨hdistinct, ?_, ?_⟩
  · exact ((compileContent_out_of_context hdistinct).2.1 _ _ _ _ rfl rfl rfl houtside
      fun _ _ => rfl).1
  · intro h
    have hsome : (sharedPhrase.macroModel? []
        ⟨.macroRef, some (.string "macro.note"), Bounds.once, []⟩).isSome = true := by
      cbv
    rw [← h] at hsome
    cases hsome

end CorpusIndex

end MarkupGrammar
