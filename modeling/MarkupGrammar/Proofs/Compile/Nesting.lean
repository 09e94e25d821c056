import MarkupGrammar.RelaxNg.Compile
import MarkupGrammar.Proofs.Compile.Independence
import MarkupGrammar.Proofs.Corpus.Dictionary
import MarkupGrammar.Proofs.RelaxNg.Children
import MarkupGrammar.Proofs.RelaxNg.Reference

/-!
# Definitions inside definitions

The macros of a corpus refer to each other, and so do the definitions of a grammar, in circles too.
What a reference leads to may be much larger than what it stands in, and still expansion comes to an
end. This module says how deep it goes. Expansion is run here with the names that have been visited
on the way, with a depth up to which definitions may be entered one inside the other, and with a log
of them: each time that a definition is entered, the names visited then. A run that would go deeper
comes to nothing.

None does when the depth is the number of definitions that have not been visited at the beginning,
and then the run comes to what expansion does. In its log no definition is open twice at a time, and
none that was visited.

## Three walks

Models are compiled from expanded particles, and both attributes and content are read off expanded
patterns. These are trees without references to follow, so expansion is all that enters definitions.

## Main results

* `Table.IsNest.enter` — one more definition around others
* `CorpusIndex.exists_expandAllWithin`, `Pattern.exists_expandAllWithin` — runs come to their end
* `expansion_nests` — how deep definitions are entered
-/

namespace MarkupGrammar

/-! ### Nests -/

namespace Table

variable {Name Value : Type} [BEq Name]

/-- Names that are entered one inside the other, the innermost first, when some have been visited:
none twice, none that was visited, and not more than are left. -/
structure IsNest (t : Table Name Value) (visited entered : List Name) : Prop where
  distinct : entered.Pairwise fun a b => (a == b) = false
  fresh : ∀ name ∈ entered, visited.elem name = false
  declared : ∀ name ∈ entered, ∃ v, t.find? name = some v
  length_le : entered.length ≤ (t.without visited).length

/-- A log each of whose entries is a nest on top of what has been visited. -/
def LogsNests (t : Table Name Value) (visited : List Name) (log : List (List Name)) : Prop :=
  ∀ names ∈ log, ∃ entered, entered ≠ [] ∧ names = entered ++ visited ∧ t.IsNest visited entered

variable {t : Table Name Value} {visited entered : List Name} {log log' : List (List Name)}
  {name : Name} {v : Value}

theorem isNest_nil (t : Table Name Value) (visited : List Name) : t.IsNest visited [] :=
  ⟨.nil, List.forall_mem_nil _, List.forall_mem_nil _, Nat.zero_le _⟩

/-- One more name is entered around those that are entered inside it. -/
theorem IsNest.enter (hfresh : visited.elem name = false) (hfind : t.find? name = some v)
    (hlt : (t.without (name :: visited)).length < (t.without visited).length)
    (h : t.IsNest (name :: visited) entered) : t.IsNest visited (entered ++ [name]) := by
  have hinside : ∀ other ∈ entered, (other == name) = false ∧ visited.elem other = false :=
    fun other hother => by simpa [List.elem_cons] using h.fresh other hother
  refine ⟨?_, ?_, ?_, ?_⟩
  · refine List.pairwise_append.mpr ⟨h.distinct, List.pairwise_singleton _ _, ?_⟩
    intro a ha b hb
    obtain rfl := List.mem_singleton.mp hb
    exact (hinside a ha).1
  · exact List.forall_mem_append.mpr
      ⟨fun other hother => (hinside other hother).2, List.forall_mem_singleton.mpr hfresh⟩
  · exact List.forall_mem_append.mpr ⟨h.declared, List.forall_mem_singleton.mpr ⟨v, hfind⟩⟩
  · rw [List.length_append, List.length_singleton]
    exact Nat.lt_of_le_of_lt h.length_le hlt

theorem logsNests_nil (t : Table Name Value) (visited : List Name) : t.LogsNests visited [] :=
  List.forall_mem_nil _

theorem LogsNests.append (h : t.LogsNests visited log) (h' : t.LogsNests visited log') :
    t.LogsNests visited (log ++ log') :=
  List.forall_mem_append.mpr ⟨h, h'⟩

/-- What is logged inside a name that is entered is logged with this name around it. -/
theorem LogsNests.enter (hfresh : visited.elem name = false) (hfind : t.find? name = some v)
    (hlt : (t.without (name :: visited)).length < (t.without visited).length)
    (h : t.LogsNests (name :: visited) log) : t.LogsNests visited ((name :: visited) :: log) := by
  refine List.forall_mem_cons.mpr ⟨⟨[name], List.cons_ne_nil _ _, rfl, ?_⟩, fun names hnames => ?_⟩
  · exact (isNest_nil t (name :: visited)).enter hfresh hfind hlt
  · obtain ⟨entered, -, rfl, hnest⟩ := h names hnames
    exact ⟨entered ++ [name], List.append_ne_nil_of_right_ne_nil _ (List.cons_ne_nil _ _), by simp,
      hnest.enter hfresh hfind hlt⟩

end Table

/-- What a run comes to: a result, and for each definition that it has entered the names visited
then, its own first. Nothing when definitions would be entered deeper than they may. -/
def Run (Name Result : Type) : Type := Option (Result × List (List Name))

namespace Run

variable {Name Value α β γ : Type}

/-- The run that enters nothing. -/
def done (a : α) : Run Name α := some (a, [])

/-- The run that would go too deep. -/
def tooDeep : Run Name α := none

/-- A run of which something is made. -/
def map (f : α → β) (r : Run Name α) : Run Name β := Option.map (fun (a, log) => (f a, log)) r

/-- Two runs of which something is made, one after the other. -/
def both (f : α → β → γ) (r : Run Name α) (s : Run Name β) : Run Name γ :=
  Option.bind r fun (a, log) => Option.map (fun (b, log') => (f a b, log ++ log')) s

/-- A run inside a definition, with the names visited there. -/
def inside (names : List Name) (r : Run Name α) : Run Name α :=
  Option.map (fun (a, log) => (a, names :: log)) r

variable [BEq Name]

/-- A run comes to its end with a result, and all that it has entered are nests of definitions on
top of what has been visited. -/
def EndsWith (r : Run Name α) (t : Table Name Value) (visited : List Name) (a : α) : Prop :=
  ∃ log, r = some (a, log) ∧ t.LogsNests visited log

variable {t : Table Name Value} {visited : List Name} {r : Run Name α} {s : Run Name β}
  {name : Name} {v : Value} {a : α} {b : β}

theorem endsWith_done (t : Table Name Value) (visited : List Name) (a : α) :
    (done a : Run Name α).EndsWith t visited a :=
  ⟨[], rfl, t.logsNests_nil visited⟩

theorem EndsWith.map (h : r.EndsWith t visited a) (f : α → β) :
    (r.map f).EndsWith t visited (f a) := by
  obtain ⟨log, rfl, hlog⟩ := h
  exact ⟨log, rfl, hlog⟩

theorem EndsWith.both (h : r.EndsWith t visited a) (h' : s.EndsWith t visited b)
    (f : α → β → γ) : (r.both f s).EndsWith t visited (f a b) := by
  obtain ⟨log, rfl, hlog⟩ := h
  obtain ⟨log', rfl, hlog'⟩ := h'
  exact ⟨log ++ log', rfl, hlog.append hlog'⟩

theorem EndsWith.inside (hfresh : visited.elem name = false) (hfind : t.find? name = some v)
    (hlt : (t.without (name :: visited)).length < (t.without visited).length)
    (h : r.EndsWith t (name :: visited) a) :
    (r.inside (name :: visited)).EndsWith t visited a := by
  obtain ⟨log, rfl, hlog⟩ := h
  exact ⟨_, rfl, hlog.enter hfresh hfind hlt⟩

end Run

/-! ### Macros -/

namespace CorpusIndex

variable {index : CorpusIndex Json}

mutual

/-- Expands a particle where some macros have been visited, entering macros up to a depth. -/
def expandWithin (index : CorpusIndex Json) (depth : Nat) (visited : List Json) :
    Particle Json → Run Json (Expansion Json)
  | ⟨kind, key, bounds, content⟩ =>
    match kind with
    | .sequence => (expandAllWithin index depth visited content).map (.group .sequence · bounds)
    | .alternate => (expandAllWithin index depth visited content).map (.group .choice · bounds)
    | .interleave => (expandAllWithin index depth visited content).map (.group .interleave · bounds)
    | .macroRef =>
      match key with
      | none => .done .nothing
      | some m =>
        if Label.isVoid m then .done .nothing
        else if !Label.isName m then .done .unusable
        else
          match index.entered? visited m with
          | none => .done .nothing
          | some ps =>
            match depth with
            | 0 => .tooDeep
            | depth + 1 =>
              ((expandAllWithin index depth (m :: visited) ps).inside (m :: visited)).map
                (.content · bounds)
    | .elementRef | .classRef | .textNode | .empty | .unsupported =>
      .done (index.expand [] ⟨kind, key, bounds, content⟩)
termination_by p => (depth, sizeOf p)

/-- Expands the particles of a list. -/
def expandAllWithin (index : CorpusIndex Json) (depth : Nat) (visited : List Json) :
    List (Particle Json) → Run Json (List (Expansion Json))
  | [] => .done []
  | p :: ps => (expandWithin index depth visited p).both (· :: ·)
    (expandAllWithin index depth visited ps)
termination_by ps => (depth, sizeOf ps)

end

mutual

/-- A run on a particle comes to its end when all macros that are left may be nested. -/
theorem endsWith_expandWithin (hi : index.macros.Distinct) (visited : List Json) {depth : Nat}
    (hdepth : (index.macrosWithout visited).length ≤ depth) :
    ∀ p : Particle Json, (index.expandWithin depth visited p).EndsWith index.macros visited
      (index.expand (index.macrosWithout visited) p) := by
  rintro ⟨kind, key, bounds, content⟩
  have hcontent := endsWith_expandAllWithin hi visited hdepth content
  cases kind with
  | sequence => rw [expandWithin, expand]; exact hcontent.map _
  | alternate => rw [expandWithin, expand]; exact hcontent.map _
  | interleave => rw [expandWithin, expand]; exact hcontent.map _
  | macroRef =>
    cases key with
    | none => rw [expandWithin, expand]; exact Run.endsWith_done _ _ _
    | some m =>
      cases hvoid : Label.isVoid m with
      | true => rw [expandWithin, expand, hvoid]; exact Run.endsWith_done _ _ _
      | false =>
        cases hm : m.isName with
        | false =>
          have hname : (!Label.isName m) = true := congrArg not hm
          rw [expandWithin, expand]
          simp only [hvoid, hname, Bool.false_eq_true, if_false, if_true]
          exact Run.endsWith_done _ _ _
        | true =>
          have hname : (!Label.isName m) = false := congrArg not hm
          rw [expand_reference_eq hi visited hm hvoid, expandWithin]
          simp only [hvoid, hname, Bool.false_eq_true, if_false]
          cases hentered : index.entered? visited m with
          | none => exact Run.endsWith_done _ _ _
          | some ps =>
            have hlt := length_macrosWithout_cons_lt hi hm hentered
            obtain ⟨hfresh, d, hd, -⟩ := entered?_eq_some_iff.mp hentered
            obtain ⟨depth, rfl⟩ : ∃ d, depth = d + 1 := ⟨depth - 1, by omega⟩
            have hinside := endsWith_expandAllWithin hi (m :: visited)
              (Nat.le_of_lt_succ (Nat.lt_of_lt_of_le hlt hdepth)) ps
            exact (hinside.inside hfresh hd hlt).map _
  | elementRef => cases key <;> rw [expandWithin, expand, expand] <;> exact Run.endsWith_done _ _ _
  | classRef => cases key <;> rw [expandWithin, expand, expand] <;> exact Run.endsWith_done _ _ _
  | textNode => rw [expandWithin, expand, expand]; exact Run.endsWith_done _ _ _
  | empty => rw [expandWithin, expand, expand]; exact Run.endsWith_done _ _ _
  | unsupported => rw [expandWithin, expand, expand]; exact Run.endsWith_done _ _ _
termination_by p => (depth, sizeOf p)

/-- **Runs on particles come to their end** when all macros that are left may be nested. -/
theorem endsWith_expandAllWithin (hi : index.macros.Distinct) (visited : List Json) {depth : Nat}
    (hdepth : (index.macrosWithout visited).length ≤ depth) (ps : List (Particle Json)) :
    (index.expandAllWithin depth visited ps).EndsWith index.macros visited
      (index.expandAll (index.macrosWithout visited) ps) := by
  cases ps with
  | nil => rw [expandAllWithin, expandAll]; exact Run.endsWith_done _ _ _
  | cons p ps =>
    rw [expandAllWithin, expandAll]
    exact (endsWith_expandWithin hi visited hdepth p).both
      (endsWith_expandAllWithin hi visited hdepth ps) _
termination_by (depth, sizeOf ps)

end

end CorpusIndex

/-! ### Definitions -/

namespace Pattern

variable {defines : Table Text (List Pattern)}

mutual

/-- Expands a pattern where some definitions have been visited, entering definitions up to a
depth. -/
def expandWithin (defines : Table Text (List Pattern)) (depth : Nat) (visited : List Text) :
    Pattern → Run Text Pattern
  | .combine kind body => (expandAllWithin defines depth visited body).map (.combine kind)
  | .occurs kind body => (expandAllWithin defines depth visited body).map (.occurs kind)
  | .resolved name body => (expandAllWithin defines depth visited body).map (.resolved name)
  | .ref name =>
    if visited.elem name then .done (.ref name)
    else
      match defines.find? name with
      | none => .done (.ref name)
      | some body =>
        match depth with
        | 0 => .tooDeep
        | depth + 1 =>
          ((expandAllWithin defines depth (name :: visited) body).inside (name :: visited)).map
            (.resolved name)
  | .element name => .done (.element name)
  | .attr a => .done (.attr a)
  | .commentary => .done .commentary
  | .text => .done .text
  | .data => .done .data
  | .empty => .done .empty
  | .other => .done .other
  | .misnamed name => .done (.misnamed name)
termination_by p => (depth, sizeOf p)

/-- Expands the patterns of a list. -/
def expandAllWithin (defines : Table Text (List Pattern)) (depth : Nat) (visited : List Text) :
    List Pattern → Run Text (List Pattern)
  | [] => .done []
  | p :: ps => (expandWithin defines depth visited p).both (· :: ·)
    (expandAllWithin defines depth visited ps)
termination_by ps => (depth, sizeOf ps)

end

theorem find?_without_visited (defines : Table Text (List Pattern)) (visited : List Text)
    (name : Text) : (defines.without visited).find? name
      = if visited.elem name then none else defines.find? name := by
  have hfind : (defines.without visited).find? name
      = if !visited.elem name then defines.find? name else none :=
    Table.find?_filter defines (fun k => !visited.elem k) (isText_name name)
  rw [hfind]
  cases visited.elem name <;> rfl

mutual

/-- A run on a pattern comes to its end when all definitions that are left may be nested. -/
theorem endsWith_expandWithin (hd : defines.Distinct) (visited : List Text) {depth : Nat}
    (hdepth : (defines.without visited).length ≤ depth) (p : Pattern) :
    (expandWithin defines depth visited p).EndsWith defines visited
      (expand (defines.without visited) p) := by
  have hleft : (defines.without visited).Distinct := hd.filter _
  cases p with
  | combine kind body =>
    rw [expandWithin, expand]
    exact (endsWith_expandAllWithin hd visited hdepth body).map _
  | occurs kind body =>
    rw [expandWithin, expand]
    exact (endsWith_expandAllWithin hd visited hdepth body).map _
  | resolved name body =>
    rw [expandWithin, expand]
    exact (endsWith_expandAllWithin hd visited hdepth body).map _
  | ref name =>
    have hfind := find?_without_visited defines visited name
    rw [expandWithin]
    cases hfresh : visited.elem name with
    | true =>
      rw [hfresh, if_pos rfl] at hfind
      rw [expand_ref_of_find?_eq_none hleft hfind]
      exact Run.endsWith_done _ _ _
    | false =>
      rw [hfresh, if_neg Bool.false_ne_true] at hfind
      rw [if_neg Bool.false_ne_true]
      cases hbody : defines.find? name with
      | none =>
        rw [expand_ref_of_find?_eq_none hleft (hfind.trans hbody)]
        exact Run.endsWith_done _ _ _
      | some body =>
        have hlt := length_without_lt (hfind.trans hbody)
        rw [← Table.without_cons] at hlt
        rw [expand_ref_of_find? hleft (hfind.trans hbody), ← Table.without_cons]
        obtain ⟨depth, rfl⟩ : ∃ d, depth = d + 1 := ⟨depth - 1, by omega⟩
        have hinside := endsWith_expandAllWithin hd (name :: visited)
          (Nat.le_of_lt_succ (Nat.lt_of_lt_of_le hlt hdepth)) body
        exact (hinside.inside hfresh hbody hlt).map _
  | _ =>
    rw [expandWithin]
    simp only [expand]
    exact Run.endsWith_done _ _ _
termination_by (depth, sizeOf p)

/-- **Runs on patterns come to their end** when all definitions that are left may be nested. -/
theorem endsWith_expandAllWithin (hd : defines.Distinct) (visited : List Text) {depth : Nat}
    (hdepth : (defines.without visited).length ≤ depth) (ps : List Pattern) :
    (expandAllWithin defines depth visited ps).EndsWith defines visited
      (expandAll (defines.without visited) ps) := by
  cases ps with
  | nil => rw [expandAllWithin, expandAll]; exact Run.endsWith_done _ _ _
  | cons p ps =>
    rw [expandAllWithin, expandAll]
    exact (endsWith_expandWithin hd visited hdepth p).both
      (endsWith_expandAllWithin hd visited hdepth ps) _
termination_by (depth, sizeOf ps)

end

end Pattern

/-! ### Compiling and reading -/

/-- Compiles content where some macros have been visited, entering macros up to a depth. -/
def CorpusIndex.compileWithin (index : CorpusIndex Json) (depth : Nat) (visited : List Json)
    (content : Option (List (Particle Json))) : Run Json (Option (ContentModel Json)) :=
  (index.expandAllWithin depth visited (content.getD [])).map Expansion.compile

namespace RngGrammar

/-- Reads the content of patterns where some definitions have been visited, entering definitions up
to a depth. -/
def contentWithin (g : RngGrammar) (depth : Nat) (visited : List Text) (ps : List Pattern) :
    Run Text (Option (ContentModel Text)) :=
  (Pattern.expandAllWithin g.defines depth visited ps).map Pattern.contentModel

/-- Reads the attributes of patterns in the same way. -/
def attributesWithin (g : RngGrammar) (depth : Nat) (visited : List Text) (ps : List Pattern) :
    Run Text (List (AttributeSpec Text)) :=
  (Pattern.expandAllWithin g.defines depth visited ps).map fun body =>
    Pattern.mergeAttributes (Pattern.attributesOfAll true body)

variable {g : RngGrammar} {visited : List Text} {depth : Nat}

theorem endsWith_contentWithin (hg : g.defines.Distinct)
    (hdepth : (g.defines.without visited).length ≤ depth) (ps : List Pattern) :
    (g.contentWithin depth visited ps).EndsWith g.defines visited
      (Pattern.contentModel (Pattern.expandAll (g.defines.without visited) ps)) :=
  (Pattern.endsWith_expandAllWithin hg visited hdepth ps).map _

theorem endsWith_attributesWithin (hg : g.defines.Distinct)
    (hdepth : (g.defines.without visited).length ≤ depth) (ps : List Pattern) :
    (g.attributesWithin depth visited ps).EndsWith g.defines visited
      (Pattern.mergeAttributes
        (Pattern.attributesOfAll true (Pattern.expandAll (g.defines.without visited) ps))) :=
  (Pattern.endsWith_expandAllWithin hg visited hdepth ps).map _

end RngGrammar

/-- **Definitions are nested no deeper than there are any left,** whatever circles they form. With
that depth, and with any more, a run comes to its end: content is compiled, and the attributes and
the content of an element are read. What has been entered at any time are declared names, no two of
them the same, and none that was visited at the beginning. All that is asked is that macros and
definitions are dictionaries, as they are when they come from a corpus and from a document. -/
theorem expansion_nests :
    (∀ index : CorpusIndex Json, index.macros.Distinct →
      ∀ (visited : List Json) (content : Option (List (Particle Json))) (depth : Nat),
        (index.macros.without visited).length ≤ depth →
        (index.compileWithin depth visited content).EndsWith index.macros visited
          (index.compileContent visited content)) ∧
    (∀ g : RngGrammar, g.defines.Distinct →
      (∀ (visited : List Text) (ps : List Pattern) (depth : Nat),
        (g.defines.without visited).length ≤ depth →
        (g.contentWithin depth visited ps).EndsWith g.defines visited
            (Pattern.contentModel (Pattern.expandAll (g.defines.without visited) ps)) ∧
          (g.attributesWithin depth visited ps).EndsWith g.defines visited
            (Pattern.mergeAttributes
              (Pattern.attributesOfAll true (Pattern.expandAll (g.defines.without visited) ps)))) ∧
      ∀ e ∈ g.elements,
        (g.attributesWithin g.defines.length [] e.body).EndsWith g.defines []
            (g.elementSpec e).attributes ∧
          ∃ m, (g.contentWithin g.defines.length [] e.body).EndsWith g.defines [] m ∧
            (g.elementSpec e).content = m.elim (.children []) .model) ∧
    (∀ (corpus : Json) (index : CorpusIndex Json), Corpus.ingest corpus = .ok index →
      index.macros.Distinct) ∧
    ∀ root : XmlNode, (RelaxNg.ofXml root).defines.Distinct := by
  refine ⟨fun index hi visited content depth hdepth => ?_, fun g hg => ⟨?_, fun e _ => ?_⟩,
    fun _ _ h => (Corpus.ingest_isDictionary h).macros, RelaxNg.distinct_defines_ofXml⟩
  · exact (CorpusIndex.endsWith_expandAllWithin hi visited hdepth _).map _
  · exact fun visited ps depth hdepth => ⟨RngGrammar.endsWith_contentWithin hg hdepth ps,
      RngGrammar.endsWith_attributesWithin hg hdepth ps⟩
  · have hdepth : (g.defines.without []).length ≤ g.defines.length :=
      Nat.le_of_eq (congrArg List.length (Table.without_nil _))
    have hattributes := RngGrammar.endsWith_attributesWithin hg hdepth e.body
    have hcontent := RngGrammar.endsWith_contentWithin hg hdepth e.body
    rw [Table.without_nil] at hattributes hcontent
    refine ⟨hattributes, _, hcontent, ?_⟩
    rw [RngGrammar.elementSpec]
    cases Pattern.contentModel (Pattern.expandAll g.defines e.body) <;> rfl

/-- Two definitions that refer to each other, and an element that refers to one of them. -/
def entangledGrammar : RngGrammar where
  elements := [⟨Text.ofString "p", none, none, [.ref (Text.ofString "d")]⟩]
  defines :=
    [(Text.ofString "d", [.combine .group [.ref (Text.ofString "e"), .text]]),
     (Text.ofString "e", [.occurs .optional [.ref (Text.ofString "d")]])]

/-- Macros and definitions that refer to each other are entered one inside the other, each once;
with less depth the run would not come to its end. -/
theorem expansion_nests_entangled :
    CorpusIndex.circular.macros.Distinct ∧ entangledGrammar.defines.Distinct ∧
      (CorpusIndex.circular.macros.without []).length ≤ 2 ∧
      (CorpusIndex.circular.compileWithin 2 []
          (some [⟨.macroRef, some (.string "outer"), Bounds.once, []⟩])).EndsWith
        CorpusIndex.circular.macros []
        (CorpusIndex.circular.compileContent []
          (some [⟨.macroRef, some (.string "outer"), Bounds.once, []⟩])) ∧
      CorpusIndex.circular.compileWithin 1 []
          (some [⟨.macroRef, some (.string "outer"), Bounds.once, []⟩]) = .tooDeep ∧
      (∀ e ∈ entangledGrammar.elements,
        (entangledGrammar.attributesWithin 2 [] e.body).EndsWith entangledGrammar.defines []
          (entangledGrammar.elementSpec e).attributes) ∧
      entangledGrammar.contentWithin 2 [] [.ref (Text.ofString "d")]
        = some (some ⟨.group,
            [.group ⟨.group, [.pattern (Text.ofString "d") Bounds.once], Bounds.optional⟩
              Bounds.optional, .text Bounds.anyNumber], Bounds.once⟩,
          [[Text.ofString "d"], [Text.ofString "e", Text.ofString "d"]]) := by
  have hgrammar : entangledGrammar.defines.Distinct := by
    unfold Table.Distinct
    decide
  refine ⟨CorpusIndex.circular_isTextual.distinct, hgrammar, by decide, ?_, by cbv, ?_, by cbv⟩
  · exact expansion_nests.1 _ CorpusIndex.circular_isTextual.distinct [] _ 2 (by decide)
  · exact fun e he => ((expansion_nests.2.1 _ hgrammar).2 e he).1

end MarkupGrammar
