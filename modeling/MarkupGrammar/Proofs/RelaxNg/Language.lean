import Mathlib
import MarkupGrammar.Proofs.Grammar.Language
import MarkupGrammar.Proofs.RelaxNg.EmptyContent

/-!
# What patterns mean

A pattern is a language of child names, as RELAX NG has it: an element is its name, text, data and
attributes are no children, combinations and repetitions combine and repeat. This is said of the
pattern and not of what the import makes of it.

A reference means its definition, so what references mean is a solution of one equation for each
definition. `IsReading` is the notion of a solution. Where references go in circles there may be
many, and `leastReading` is one for every grammar. A pattern that the import does not know may stand
for anything.

## Main results

* `isReading_leastReading` — every grammar has a reading
* `languageOf_expandAll` — expansion keeps the meaning
* `languageOf_content` — only content matters
-/

namespace MarkupGrammar

namespace CombineKind

/-- The words that combined patterns admit together. -/
def words (kind : CombineKind) (parts : List (Language Text)) : Language Text :=
  match kind with
  | .choice => parts.sum
  | .group => parts.prod
  | .interleave => shuffles parts
  | .mixed => shuffles parts

end CombineKind

namespace RepeatKind

/-- The words that repeated content admits. -/
def words (kind : RepeatKind) (l : Language Text) : Language Text :=
  match kind with
  | .optional => 1 + l
  | .zeroOrMore => KStar.kstar l
  | .oneOrMore => l * KStar.kstar l

end RepeatKind

namespace Pattern

section

variable (meaning : Text → Language Text)

mutual

/-- The children that a pattern admits, given what references mean. -/
def language : Pattern → Language Text
  | .element name => {[name]}
  | .combine kind body => kind.words (languages body)
  | .occurs kind body => kind.words (languages body).prod
  | .ref name => meaning name
  | .resolved _ body => (languages body).prod
  | .attr _ => 1
  | .commentary => 1
  | .text => 1
  | .data => 1
  | .empty => 1
  | .misnamed _ => 1
  | .other => ⊤

/-- The children that each of some patterns admits. -/
def languages : List Pattern → List (Language Text)
  | [] => []
  | p :: ps => language p :: languages ps

end

/-- The children that patterns admit in the order in which they stand. -/
def languageOf (ps : List Pattern) : Language Text := (languages meaning ps).prod

theorem languageOf_cons (p : Pattern) (ps : List Pattern) :
    languageOf meaning (p :: ps) = language meaning p * languageOf meaning ps := by
  rw [languageOf, languages, List.prod_cons]
  rfl

theorem languageOf_nil : languageOf meaning [] = 1 := by
  rw [languageOf, languages, List.prod_nil]

end

/-- References mean their definitions. -/
def IsReading (defines : Table Text (List Pattern)) (meaning : Text → Language Text) : Prop :=
  ∀ name body, defines.find? name = some body → meaning name = languageOf meaning body

theorem IsReading.without {left : Table Text (List Pattern)} {meaning : Text → Language Text}
    (h : IsReading left meaning) (name : Text) :
    IsReading (left.filter fun e => !(e.1 == name)) meaning :=
  fun other body hfind => h other body (find?_of_find?_without hfind)

/-! ### Only content matters -/

theorem language_eq_one (meaning : Text → Language Text) {p : Pattern}
    (h : p.isContent = false) : language meaning p = 1 := by
  cases p with
  | attr a => rw [language]
  | commentary => rw [language]
  | misnamed name => rw [language]
  | _ => exact nomatch h

theorem languageOf_content (meaning : Text → Language Text) (ps : List Pattern) :
    languageOf meaning (content ps) = languageOf meaning ps := by
  induction ps with
  | nil => rfl
  | cons p ps ih =>
    rw [content_cons]
    cases hp : p.isContent with
    | true => rw [if_pos rfl, languageOf_cons, languageOf_cons, ih]
    | false =>
      rw [if_neg Bool.false_ne_true, ih, languageOf_cons, language_eq_one meaning hp, one_mul]

/-- Content that stands alone is what the patterns mean. -/
theorem languageOf_of_content_eq (meaning : Text → Language Text) {ps : List Pattern} {p : Pattern}
    (h : content ps = [p]) : languageOf meaning ps = language meaning p := by
  rw [← languageOf_content, h, languageOf_cons, languageOf_nil, mul_one]

/-! ### Expansion keeps the meaning -/

section Expansion

variable {meaning : Text → Language Text}

mutual

theorem language_expand {left : Table Text (List Pattern)} (hleft : left.Distinct)
    (hmeaning : IsReading left meaning) (p : Pattern) :
    language meaning (expand left p) = language meaning p := by
  cases p with
  | combine kind body =>
    simp only [expand, language]
    rw [languages_expandAll hleft hmeaning body]
  | occurs kind body =>
    simp only [expand, language]
    rw [languages_expandAll hleft hmeaning body]
  | resolved name body =>
    simp only [expand, language]
    rw [languages_expandAll hleft hmeaning body]
  | ref name =>
    cases hfind : left.find? name with
    | none => rw [expand_ref_of_find?_eq_none hleft hfind]
    | some body =>
      have : (left.filter fun e => !(e.1 == name)).length < left.length :=
        length_without_lt hfind
      rw [expand_ref_of_find? hleft hfind, language, language,
        languages_expandAll (hleft.filter _) (hmeaning.without name) body, hmeaning name body hfind]
      rfl
  | _ => simp [expand]
termination_by (left.length, sizeOf p)

theorem languages_expandAll {left : Table Text (List Pattern)} (hleft : left.Distinct)
    (hmeaning : IsReading left meaning) (ps : List Pattern) :
    languages meaning (expandAll left ps) = languages meaning ps := by
  cases ps with
  | nil => rw [expandAll]
  | cons p ps =>
    rw [expandAll, languages, languages, language_expand hleft hmeaning p,
      languages_expandAll hleft hmeaning ps]
termination_by (left.length, sizeOf ps)

end

/-- **Expansion keeps the meaning.** -/
theorem languageOf_expandAll {left : Table Text (List Pattern)} (hleft : left.Distinct)
    (hmeaning : IsReading left meaning) (ps : List Pattern) :
    languageOf meaning (expandAll left ps) = languageOf meaning ps := by
  rw [languageOf, languageOf, languages_expandAll hleft hmeaning]

end Expansion

/-! ### Every grammar has a reading -/

theorem shuffle_mono {l l' m m' : Language Text} (hl : l ≤ l') (hm : m ≤ m') :
    shuffle l m ≤ shuffle l' m' := by
  rintro w ⟨u, hu, v, hv, hshuffle⟩
  exact ⟨u, hl hu, v, hm hv, hshuffle⟩

theorem shuffles_mono {ls ms : List (Language Text)} (h : List.Forall₂ (· ≤ ·) ls ms) :
    shuffles ls ≤ shuffles ms := by
  induction h with
  | nil => exact le_rfl
  | cons hl _ ih => exact shuffle_mono hl ih

theorem words_combine_mono (kind : CombineKind) {ls ms : List (Language Text)}
    (h : List.Forall₂ (· ≤ ·) ls ms) : kind.words ls ≤ kind.words ms := by
  cases kind with
  | choice => exact h.sum_le_sum
  | group => exact h.prod_le_prod'
  | interleave => exact shuffles_mono h
  | mixed => exact shuffles_mono h

theorem words_occurs_mono (kind : RepeatKind) {l m : Language Text} (h : l ≤ m) :
    kind.words l ≤ kind.words m := by
  cases kind with
  | optional => exact add_le_add le_rfl h
  | zeroOrMore => exact kstar_mono h
  | oneOrMore => exact mul_le_mul' h (kstar_mono h)

section Least

variable {meaning more : Text → Language Text}

mutual

theorem language_mono (h : meaning ≤ more) (p : Pattern) :
    language meaning p ≤ language more p := by
  cases p with
  | combine kind body =>
    rw [language, language]
    exact words_combine_mono kind (languages_mono h body)
  | occurs kind body =>
    rw [language, language]
    exact words_occurs_mono kind (languages_mono h body).prod_le_prod'
  | resolved name body =>
    rw [language, language]
    exact (languages_mono h body).prod_le_prod'
  | ref name =>
    rw [language, language]
    exact h name
  | _ => simp [language]

/-- The more references mean, the more patterns admit. -/
theorem languages_mono (h : meaning ≤ more) (ps : List Pattern) :
    List.Forall₂ (· ≤ ·) (languages meaning ps) (languages more ps) := by
  cases ps with
  | nil =>
    rw [languages, languages]
    exact .nil
  | cons p ps =>
    rw [languages, languages]
    exact .cons (language_mono h p) (languages_mono h ps)

end

end Least

/-- What references mean after one look at their definitions. -/
def unfold (defines : Table Text (List Pattern)) : (Text → Language Text) →o (Text → Language Text)
    where
  toFun meaning name :=
    match defines.find? name with
    | some body => languageOf meaning body
    | none => ⊥
  monotone' meaning more h name := by
    beta_reduce
    split
    · exact (languages_mono h _).prod_le_prod'
    · exact le_rfl

/-- The least meaning of references. -/
def leastReading (defines : Table Text (List Pattern)) : Text → Language Text :=
  OrderHom.lfp (unfold defines)

/-- **Every grammar has a reading.** -/
theorem isReading_leastReading (defines : Table Text (List Pattern)) :
    IsReading defines (leastReading defines) := by
  intro name body hfind
  have hfixed : unfold defines (leastReading defines) name = leastReading defines name :=
    congrFun (OrderHom.map_lfp (unfold defines)) name
  rw [← hfixed]
  change (match defines.find? name with
    | some body => languageOf (leastReading defines) body
    | none => ⊥) = _
  rw [hfind]

end Pattern

end MarkupGrammar
