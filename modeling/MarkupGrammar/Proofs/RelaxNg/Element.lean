import MarkupGrammar.RelaxNg.Compile
import MarkupGrammar.Proofs.Grammar.Table
import Mathlib.Data.List.Nodup

/-!
# The elements of an imported grammar

A grammar may define an element as often as it likes, and may leave its name out. What is imported
are the elements that have a name, the first of each name; definitions are kept in the same way.
Then the elements are put in the order of their names, which adds none and drops none.

## Main results

* `distinct_defines_ofXml` — the definitions of a grammar are a dictionary
* `parseRng_eq_ok_iff` — what is imported are the elements of the document's grammar
* `mem_elementSpecs_iff`, `distinct_elementSpecs` — each named element once
-/

namespace MarkupGrammar

namespace RelaxNg

theorem distinct_addDefine {defines : Table Text (List Pattern)} (h : defines.Distinct)
    (node : XmlNode) : (addDefine defines node).Distinct := by
  rw [addDefine]
  split
  · exact h
  · next htaken =>
    simp only [Bool.or_eq_true, not_or, Bool.not_eq_true, Option.isSome_eq_false_iff,
      Option.isNone_iff_eq_none] at htaken
    refine List.pairwise_append.mpr ⟨h, List.pairwise_singleton _ _, ?_⟩
    intro e he f hf
    obtain rfl := List.mem_singleton.mp hf
    exact Table.beq_eq_false_of_find?_eq_none htaken.2 e he

/-- **The definitions of a grammar are a dictionary:** a name that is taken is not given again. -/
theorem distinct_defines_ofXml (root : XmlNode) : (ofXml root).defines.Distinct := by
  have hkeeps : ∀ (nodes : List XmlNode) (defines : Table Text (List Pattern)),
      defines.Distinct → (nodes.foldl addDefine defines).Distinct := by
    intro nodes
    induction nodes with
    | nil => exact fun defines h => h
    | cons node nodes ih => exact fun defines h => ih _ (distinct_addDefine h node)
  exact hkeeps _ [] .nil

end RelaxNg

namespace RngGrammar

variable {g : RngGrammar}

/-- What holds of the named elements of a grammar: they are named, and no two alike. -/
structure IsNamed (found : List ElementPattern) : Prop where
  named : ∀ e ∈ found, e.name ≠ []
  distinct : found.Pairwise fun e f => e.name ≠ f.name

/-- The named elements, with one that comes after them: it is passed over if it has no name, or one
that is taken. -/
def addNamed (found : List ElementPattern) (e : ElementPattern) : List ElementPattern :=
  if e.name.isEmpty || found.any fun (f : ElementPattern) => f.name = e.name then found
  else found ++ [e]

theorem namedElements_eq (g : RngGrammar) : g.namedElements = g.elements.foldl addNamed [] := rfl

theorem addNamed_of_passed {found : List ElementPattern} {e : ElementPattern}
    (h : e.name = [] ∨ ∃ f ∈ found, f.name = e.name) : addNamed found e = found :=
  if_pos (by simpa using h)

theorem addNamed_of_new {found : List ElementPattern} {e : ElementPattern} (hnamed : e.name ≠ [])
    (hnew : ∀ f ∈ found, f.name ≠ e.name) : addNamed found e = found ++ [e] :=
  if_neg (by simpa [hnamed] using hnew)

theorem IsNamed.addNamed {found : List ElementPattern} (h : IsNamed found) (e : ElementPattern) :
    IsNamed (addNamed found e) := by
  by_cases hpassed : e.name = [] ∨ ∃ f ∈ found, f.name = e.name
  · rwa [addNamed_of_passed hpassed]
  · push Not at hpassed
    obtain ⟨hnamed, hnew⟩ := hpassed
    rw [addNamed_of_new hnamed hnew]
    refine ⟨fun f hf => ?_, List.pairwise_append.mpr
      ⟨h.distinct, List.pairwise_singleton _ _, fun f hf f' hf' => ?_⟩⟩
    · rcases List.mem_append.mp hf with hf | hf
      · exact h.named f hf
      · obtain rfl := List.mem_singleton.mp hf
        exact hnamed
    · obtain rfl := List.mem_singleton.mp hf'
      exact hnew f hf

theorem isNamed_namedElements (g : RngGrammar) : IsNamed g.namedElements := by
  have hkeeps : ∀ (elements found : List ElementPattern), IsNamed found →
      IsNamed (elements.foldl addNamed found) := by
    intro elements
    induction elements with
    | nil => exact fun found h => h
    | cons e elements ih => exact fun found h => ih _ (h.addNamed e)
  exact hkeeps _ [] ⟨fun _ h => (List.not_mem_nil h).elim, .nil⟩

/-- The definitions of elements are those of the named ones, in another order. -/
theorem elementSpecs_perm (g : RngGrammar) :
    g.elementSpecs.Perm (g.namedElements.map g.elementSpec) := by
  have hperm : g.elementSpecs.Perm
      ((g.namedElements.map fun e => (e.name.lower, g.elementSpec e)).map (·.2)) :=
    (List.mergeSort_perm _ _).map _
  rwa [List.map_map] at hperm

theorem mem_elementSpecs_iff {spec : ElementSpec Text} :
    spec ∈ g.elementSpecs ↔ ∃ e ∈ g.namedElements, g.elementSpec e = spec := by
  rw [g.elementSpecs_perm.mem_iff, List.mem_map]

theorem distinct_elementSpecs (g : RngGrammar) :
    g.elementSpecs.Pairwise fun e f => e.name ≠ f.name := by
  refine (g.elementSpecs_perm.pairwise_iff fun h => Ne.symm h).mpr ?_
  exact List.pairwise_map.mpr (isNamed_namedElements g).distinct

end RngGrammar

/-- **What is imported.** A document is imported when it is well formed, has a named element, and no
obstacle to any; the result are the elements of its grammar. -/
theorem parseRng_eq_ok_iff {document : Text} {specs : List (ElementSpec Text)} :
    parseRng document = .ok specs ↔
      ∃ root, Xml.parse? document = some root ∧
        (RelaxNg.ofXml root).namedElements.findSome? (RelaxNg.ofXml root).obstacleOf = none ∧
          (RelaxNg.ofXml root).namedElements ≠ [] ∧
            specs = (RelaxNg.ofXml root).elementSpecs := by
  unfold parseRng
  cases hroot : Xml.parse? document with
  | none => simp
  | some root =>
    have hempty : (RelaxNg.ofXml root).elementSpecs = []
        ↔ (RelaxNg.ofXml root).namedElements = [] := by
      rw [← List.length_eq_zero_iff, (RelaxNg.ofXml root).elementSpecs_perm.length_eq,
        List.length_map, List.length_eq_zero_iff]
    simp only [Option.some.injEq, exists_eq_left']
    cases hobstacle : (RelaxNg.ofXml root).namedElements.findSome? (RelaxNg.ofXml root).obstacleOf
    case some name => simp
    case none =>
      simp only [true_and, ne_eq]
      rw [← hempty]
      cases (RelaxNg.ofXml root).elementSpecs with
      | nil => simp
      | cons spec specs => simp [eq_comm]

/-- Whether a document is imported with an element that passes a test. The elements are tested in
the order of the document, before they are sorted. -/
def importsElement (test : ElementSpec Text → Bool) (document : Text) : Bool :=
  (Xml.parse? document).any fun root =>
    let g := RelaxNg.ofXml root
    (g.namedElements.findSome? g.obstacleOf).isNone
      && g.namedElements.any fun e => test (g.elementSpec e)

theorem exists_mem_of_importsElement {test : ElementSpec Text → Bool} {document : Text}
    (h : importsElement test document = true) :
    ∃ specs, parseRng document = .ok specs ∧ ∃ spec ∈ specs, test spec = true := by
  rw [importsElement, Option.any_eq_true] at h
  obtain ⟨root, hroot, h⟩ := h
  simp only [Bool.and_eq_true, Option.isNone_iff_eq_none, List.any_eq_true] at h
  obtain ⟨hobstacle, e, he, htest⟩ := h
  refine ⟨_, parseRng_eq_ok_iff.mpr ⟨root, hroot, hobstacle, List.ne_nil_of_mem he, rfl⟩, ?_⟩
  exact ⟨_, RngGrammar.mem_elementSpecs_iff.mpr ⟨e, he, rfl⟩, htest⟩

/-- Elements of one name are the same in an imported grammar. -/
theorem eq_of_mem_parseRng {document : Text} {specs : List (ElementSpec Text)}
    (h : parseRng document = .ok specs) {e f : ElementSpec Text} (he : e ∈ specs) (hf : f ∈ specs)
    (hname : e.name = f.name) : e = f := by
  obtain ⟨root, -, -, -, rfl⟩ := parseRng_eq_ok_iff.mp h
  have hnodup : ((RelaxNg.ofXml root).elementSpecs.map ElementSpec.name).Nodup :=
    List.pairwise_map.mpr (RelaxNg.ofXml root).distinct_elementSpecs
  exact List.inj_on_of_nodup_map hnodup he hf hname

/-- A grammar in which `p` holds a pattern, and `d` is a definition. -/
def grammarHolding (pattern definition : String) : Text :=
  Text.ofString "<grammar xmlns=\"http://relaxng.org/ns/structure/1.0\"><element name=\"p\">"
    ++ Text.ofString pattern ++ Text.ofString "</element><define name=\"d\">"
    ++ Text.ofString definition ++ Text.ofString "</define></grammar>"

end MarkupGrammar
