import MarkupGrammar.Proofs.Declaration.Word
import MarkupGrammar.Proofs.Markup.Piece
import Mathlib.Data.List.TakeWhile

/-!
# Models declared in processing instructions

The reader of declarations looks at the text of a document and knows nothing of its pieces. For it
an instruction ends at the first question mark after its reference, and a reference at the next
quote of either kind. So an instruction is read as what it is only if its beginning, its quotes and
its question marks agree with that, and this is what the results here ask for or tell apart.

* Where a declaration seems to begin inside another piece, in a comment say, one may be found there.
  The results ask that none does.
* A quote that stands alone in an instruction may be closed far behind it. The results ask that no
  quote does.
* White space around the first equals sign, another pseudo-attribute before the reference or a
  question mark after it: such an instruction is not found. `NamesModel` says which ones are.

## Implementation notes

`reference?` reads the body of an instruction alone. `readXmlModel?_instruction` compares it with
the reader of documents step by step: each step ends before the question mark of the closing
delimiter, because no fixed word, no blank and no quote is a question mark.

## Main results

* `SchemaDeclaration.readXmlModel?_instruction` — one instruction is read alone
* `SchemaDeclaration.reference?_written` — what is read of one made of pseudo-attributes
* `SchemaDeclaration.findAll_renderAll` — the declarations of pieces in a row
* `SchemaDeclaration.ofDocument_pieces` — the models that a document in pieces declares
-/

namespace MarkupGrammar

namespace Text

/-! ### What is read -/

theorem exists_of_afterWord? {w t rest : Text} (h : afterWord? w t = some rest) :
    ∃ s, t = s ++ rest ∧ ∀ c ∈ s, ∃ d ∈ w, c.sameLetter d = true := by
  induction w generalizing t with
  | nil =>
    have ht : t = rest := by cases t <;> exact Option.some.inj h
    exact ⟨[], ht, fun c hc => absurd hc List.not_mem_nil⟩
  | cons d w ih =>
    cases t with
    | nil => cases h
    | cons c t =>
      rw [afterWord?] at h
      split at h
      · next hc =>
        obtain ⟨s, rfl, hs⟩ := ih h
        refine ⟨c :: s, rfl, fun e he => ?_⟩
        rcases List.mem_cons.mp he with rfl | he
        · exact ⟨d, List.mem_cons_self, hc⟩
        · obtain ⟨f, hf, hsame⟩ := hs e he
          exact ⟨f, List.mem_cons_of_mem d hf, hsame⟩
      · cases h

theorem exists_of_afterSome? {p : CodePoint → Bool} {t run rest : Text}
    (h : afterSome? p t = some (run, rest)) : t = run ++ rest ∧ ∀ c ∈ run, p c = true := by
  rw [afterSome?_eq] at h
  split at h
  · exact nomatch h
  · obtain ⟨rfl, rfl⟩ := Prod.mk.inj (Option.some.inj h)
    exact ⟨List.takeWhile_append_dropWhile.symm, fun c hc => List.mem_takeWhile_imp hc⟩

theorem exists_of_afterBlanks? {t rest : Text} (h : afterBlanks? t = some rest) :
    ∃ gap, t = gap ++ rest ∧ ∀ c ∈ gap, c.isBlank = true := by
  obtain ⟨⟨gap, r⟩, hrun, rfl⟩ := Option.map_eq_some_iff.mp h
  exact ⟨gap, exists_of_afterSome? hrun⟩

theorem afterBlanks?_append_cons {q : CodePoint} (h : q.isBlank = false) (t rest : Text) :
    afterBlanks? (t ++ q :: rest) = (afterBlanks? t).map (· ++ q :: rest) := by
  rw [afterBlanks?, afterBlanks?, afterSome?_append_cons h, Option.map_map, Option.map_map]
  rfl

/-- The first question mark after a text without the end of an instruction begins that end, unless
the text has one of its own. -/
theorem after?_dropWhile_question {t : Text} (h : ¬ ofString "?>" <:+: t) (rest : Text) :
    after? (ofString "?>")
        ((t ++ (ofString "?>" ++ rest)).dropWhile fun c => c != CodePoint.ofChar '?')
      = if CodePoint.ofChar '?' ∈ t then none else some rest := by
  induction t with
  | nil => exact after?_append (ofString "?>") rest
  | cons c t ih =>
    by_cases hc : c = CodePoint.ofChar '?'
    · subst hc
      have hnone : after? (ofString "?" ++ [CodePoint.ofChar '>'])
          (CodePoint.ofChar '?' :: t ++ (ofString "?" ++ [CodePoint.ofChar '>']) ++ rest) = none :=
        after?_eq_none_of_not_infix (by decide) h
      rw [if_pos List.mem_cons_self, List.cons_append, List.dropWhile_cons_of_neg (by simp)]
      rw [List.append_assoc] at hnone
      exact hnone
    · have ht : ¬ ofString "?>" <:+: t := fun hin => h (hin.trans (List.suffix_cons c t).isInfix)
      have hmem : CodePoint.ofChar '?' ∈ c :: t ↔ CodePoint.ofChar '?' ∈ t := by
        simp [Ne.symm hc]
      rw [List.cons_append, List.dropWhile_cons_of_pos (by simpa using hc), ih ht]
      simp only [hmem]

end Text

namespace SchemaDeclaration

/-! ### The reference of an instruction -/

/-- The number of quotes in a text. -/
def quotes (t : Text) : Nat := t.countP isReferenceQuote

theorem quotes_append_of_forall {s : Text} (h : ∀ c ∈ s, isReferenceQuote c = false) (t : Text) :
    quotes (s ++ t) = quotes t := by
  rw [quotes, List.countP_append, List.countP_eq_zero.mpr (by simpa using h), Nat.zero_add]
  rfl

/-- A reference is read up to its second quote, so not beyond a text that has one. -/
theorem readReference?_append {t : Text} {q : CodePoint} (ht : quotes t ≠ 1)
    (hq : isReferenceQuote q = false) (rest : Text) :
    readReference? (t ++ q :: rest)
      = (readReference? t).map fun (href, r) => (href, r ++ q :: rest) := by
  cases t with
  | nil =>
    rw [List.nil_append]
    simp only [readReference?, hq, if_neg Bool.false_ne_true, Option.map_none]
  | cons c t =>
    rw [List.cons_append, readReference?, readReference?]
    cases hc : isReferenceQuote c with
    | false => rfl
    | true =>
      -- the text has another quote, at which the reference ends at the latest
      have hcount : quotes (c :: t) = quotes t + 1 := List.countP_cons_of_pos hc
      obtain ⟨d, hd, hdquote⟩ := List.countP_pos_iff.mp (show 0 < quotes t by omega)
      obtain ⟨s, r, rfl⟩ := List.append_of_mem hd
      have hstop : (!isReferenceQuote d) = false := by rw [hdquote]; rfl
      have hrun (r : Text) := Text.afterSome?_append_cons (p := fun c => !isReferenceQuote c)
        hstop s r
      rw [List.append_assoc, List.cons_append, hrun, hrun, if_pos rfl, if_pos rfl]
      cases Text.afterSome? (fun c => !isReferenceQuote c) s with
      | none => rfl
      | some found =>
        obtain ⟨href, x⟩ := found
        cases x with
        | nil => rfl
        | cons e x => simp

theorem exists_of_readReference? {t href rest : Text} (h : readReference? t = some (href, rest)) :
    ∃ s, t = s ++ rest := by
  cases t with
  | nil => cases h
  | cons c t =>
    rw [readReference?] at h
    split at h
    · split at h
      · next run d r hrun =>
        obtain ⟨rfl, -⟩ := Text.exists_of_afterSome? hrun
        obtain ⟨rfl, rfl⟩ := Prod.mk.inj (Option.some.inj h)
        exact ⟨c :: (run ++ [d]), by simp⟩
      · cases h
    · cases h

/-- What the reader does after the target of an instruction. -/
def readAfterTarget? (t : Text) : Option (Text × Text) := do
  let t ← Text.afterBlanks? t
  let t ← Text.afterWord? (Text.ofString "href=") t
  let (href, t) ← readReference? t
  let rest ← Text.after? (Text.ofString "?>") (t.dropWhile fun c => c != CodePoint.ofChar '?')
  return (href, rest)

theorem readXmlModel?_eq (t : Text) :
    readXmlModel? t
      = (Text.afterWord? (Text.ofString "<?xml-model") t).bind readAfterTarget? := rfl

/-- The reference of an instruction, read after its target: `href` comes first, and no question mark
follows its value. -/
def firstReference? (t : Text) : Option Text := do
  let t ← Text.afterBlanks? t
  let t ← Text.afterWord? (Text.ofString "href=") t
  let (href, t) ← readReference? t
  if CodePoint.ofChar '?' ∈ t then none else some href

/-- The reference that an instruction with this body declares. -/
def reference? (body : Text) : Option Text :=
  (Text.afterWord? (Text.ofString "xml-model") body).bind firstReference?

theorem isReferenceQuote_eq_false_of_sameLetter {c d : CodePoint}
    (hd : d ∈ Text.ofString "xml-modelhref=") (h : c.sameLetter d = true) :
    isReferenceQuote c = false := by
  have hletters : ∀ d ∈ Text.ofString "xml-modelhref=",
      (CodePoint.ofChar '"').sameLetter d = false ∧
        (CodePoint.ofChar '\'').sameLetter d = false := by decide +kernel
  rw [isReferenceQuote, Bool.or_eq_false_iff, decide_eq_false_iff_not, decide_eq_false_iff_not]
  constructor
  · rintro rfl
    exact Bool.false_ne_true ((hletters d hd).1.symm.trans h)
  · rintro rfl
    exact Bool.false_ne_true ((hletters d hd).2.symm.trans h)

theorem isReferenceQuote_eq_false_of_isBlank {c : CodePoint} (h : c.isBlank = true) :
    isReferenceQuote c = false := by
  rw [isReferenceQuote, Bool.or_eq_false_iff, decide_eq_false_iff_not, decide_eq_false_iff_not]
  exact ⟨by rintro rfl; exact absurd h (by decide), by rintro rfl; exact absurd h (by decide)⟩

/-- A fixed word holds no quote. -/
theorem quotes_of_afterWord? {w t rest : Text} (hw : w ⊆ Text.ofString "xml-modelhref=")
    (h : Text.afterWord? w t = some rest) : quotes t = quotes rest := by
  obtain ⟨s, rfl, hs⟩ := Text.exists_of_afterWord? h
  refine quotes_append_of_forall (fun c hc => ?_) rest
  obtain ⟨d, hd, hsame⟩ := hs c hc
  exact isReferenceQuote_eq_false_of_sameLetter (hw hd) hsame

theorem quotes_of_afterBlanks? {t rest : Text} (h : Text.afterBlanks? t = some rest) :
    quotes t = quotes rest := by
  obtain ⟨gap, rfl, hgap⟩ := Text.exists_of_afterBlanks? h
  exact quotes_append_of_forall (fun c hc => isReferenceQuote_eq_false_of_isBlank (hgap c hc)) rest

/-- No step after the target reads beyond the body, up to the search for the end. -/
theorem readAfterTarget?_append {t : Text} (noEnd : ¬ Text.ofString "?>" <:+: t)
    (hquotes : quotes t ≠ 1) (rest : Text) :
    readAfterTarget? (t ++ (Text.ofString "?>" ++ rest)) = (firstReference? t).map (·, rest) := by
  have hblanks := Text.afterBlanks?_append_cons (q := CodePoint.ofChar '?') (by decide) t
    (CodePoint.ofChar '>' :: rest)
  rw [readAfterTarget?, firstReference?]
  simp only [Option.bind_eq_bind]
  rw [show Text.ofString "?>" ++ rest = CodePoint.ofChar '?' :: CodePoint.ofChar '>' :: rest
    from rfl, hblanks]
  cases hgap : Text.afterBlanks? t with
  | none => rfl
  | some afterGap =>
    have hword := Text.afterWord?_append_cons (w := Text.ofString "href=")
      (q := CodePoint.ofChar '?') (by decide +kernel) afterGap (CodePoint.ofChar '>' :: rest)
    simp only [Option.map_some, Option.bind_some, hword]
    cases hkey : Text.afterWord? (Text.ofString "href=") afterGap with
    | none => rfl
    | some afterKey =>
      have hcount : quotes t = quotes afterKey :=
        (quotes_of_afterBlanks? hgap).trans (quotes_of_afterWord? (by decide) hkey)
      simp only [Option.map_some, Option.bind_some,
        readReference?_append (q := CodePoint.ofChar '?') (hcount ▸ hquotes) (by decide)]
      cases hvalue : readReference? afterKey with
      | none => rfl
      | some found =>
        obtain ⟨href, tail⟩ := found
        have htail : ¬ Text.ofString "?>" <:+: tail := by
          obtain ⟨gap, rfl, -⟩ := Text.exists_of_afterBlanks? hgap
          obtain ⟨key, rfl, -⟩ := Text.exists_of_afterWord? hkey
          obtain ⟨value, rfl⟩ := exists_of_readReference? hvalue
          refine fun hin => noEnd (hin.trans (List.IsSuffix.isInfix ?_))
          exact ⟨gap ++ (key ++ value), by simp⟩
        have hend := Text.after?_dropWhile_question htail rest
        simp only [Option.map_some, Option.bind_some]
        rw [show tail ++ CodePoint.ofChar '?' :: CodePoint.ofChar '>' :: rest
          = tail ++ (Text.ofString "?>" ++ rest) from rfl, hend]
        split <;> rfl

/-- Whether the quotes of an instruction with this body can be told from those behind it: there is
another, if there is one. This only matters when its target begins as that of models does. -/
def ClosesQuotes (body : Text) : Prop :=
  Text.afterWord? (Text.ofString "xml-model") body ≠ none → quotes body ≠ 1

instance (body : Text) : Decidable (ClosesQuotes body) :=
  inferInstanceAs (Decidable (_ → _))

/-- **One instruction is read alone,** whatever follows it. -/
theorem readXmlModel?_instruction {body : Text} (noEnd : ¬ Text.ofString "?>" <:+: body)
    (hquotes : ClosesQuotes body) (rest : Text) :
    readXmlModel? (Text.ofString "<?" ++ (body ++ Text.ofString "?>") ++ rest)
      = (reference? body).map (·, rest) := by
  have htarget : Text.afterWord? (Text.ofString "<?xml-model")
      (Text.ofString "<?" ++ (body ++ Text.ofString "?>") ++ rest)
        = (Text.afterWord? (Text.ofString "xml-model") body).map
            (· ++ (Text.ofString "?>" ++ rest)) := by
    rw [show Text.ofString "<?xml-model" = Text.ofString "<?" ++ Text.ofString "xml-model" from rfl,
      Text.afterWord?_append_left, List.append_assoc, Text.afterWord?_self, Option.bind_some,
      List.append_assoc]
    exact Text.afterWord?_append_cons (by decide +kernel) body (CodePoint.ofChar '>' :: rest)
  rw [readXmlModel?_eq, reference?, htarget]
  cases hword : Text.afterWord? (Text.ofString "xml-model") body with
  | none => rfl
  | some t =>
    have hcount := quotes_of_afterWord? (by decide) hword
    have hclosed : quotes t ≠ 1 := hcount ▸ hquotes (by rw [hword]; exact Option.some_ne_none t)
    obtain ⟨target, rfl, -⟩ := Text.exists_of_afterWord? hword
    rw [Option.map_some, Option.bind_some, Option.bind_some]
    exact readAfterTarget?_append (fun hin => noEnd (hin.trans (List.suffix_append _ _).isInfix))
      hclosed rest

/-! ### Pseudo-attributes -/

theorem isReferenceQuote_of_isQuote {q : CodePoint} (h : q.isQuote = true) :
    isReferenceQuote q = true := by
  obtain ⟨n, hn⟩ := q
  rcases CodePoint.val_of_isQuote h with hval | hval <;> simp only at hval <;> subst hval <;> rfl

theorem isReferenceQuote_of_isMarkupSpace {c : CodePoint} (h : c.isMarkupSpace = true) :
    isReferenceQuote c = false :=
  isReferenceQuote_eq_false_of_isBlank (CodePoint.isBlank_of_isMarkupSpace h)

/-- A value between quotes is read whole, if no quote of either kind is in it. -/
theorem readReference?_written {q : CodePoint} {value : Text} (hq : isReferenceQuote q = true)
    (hvalue : ∀ c ∈ value, isReferenceQuote c = false) (rest : Text) :
    readReference? (q :: (value ++ q :: rest))
      = if value = [] then none else some (value, rest) := by
  have hstop : Text.Stops (fun c => !isReferenceQuote c) (q :: rest) :=
    Text.stops_cons (by rw [hq]; rfl)
  rw [readReference?, if_pos hq]
  by_cases hnil : value = []
  · subst hnil
    rw [if_pos rfl, List.nil_append, Text.afterSome?_eq, List.takeWhile_cons_of_neg (by simp [hq]),
      if_pos rfl]
  · rw [if_neg hnil, Text.afterSome?_append hnil (fun c hc => by rw [hvalue c hc]; rfl) hstop]

theorem readReference?_of_not_isQuote {c : CodePoint} (h : isReferenceQuote c = false) (t : Text) :
    readReference? (c :: t) = none := by
  simp only [readReference?, h, if_neg Bool.false_ne_true]

/-- The first pseudo-attribute of an instruction is this reference, without white space around its
equals sign, and no question mark follows it. -/
def BeginsWithReference (tag : WrittenTag) (href : Text) : Prop :=
  ∃ a as, tag.attributes = a :: as ∧ Text.IsWord (Text.ofString "href") a.name.text ∧
    a.beforeEquals.text = [] ∧ a.afterEquals.text = [] ∧ a.value = href ∧ href ≠ [] ∧
    CodePoint.ofChar '?' ∉ WrittenAttribute.renderAll as ++ tag.trailing.text

/-- An instruction made of a target and pseudo-attributes names a model with this reference. -/
def NamesModel (tag : WrittenTag) (href : Text) : Prop :=
  Text.IsWord (Text.ofString "xml-model") tag.name.text ∧ BeginsWithReference tag href

theorem afterWord?_equals_of_ne {c : CodePoint} (h : c ≠ CodePoint.ofChar '=') (t : Text) :
    Text.afterWord? (Text.ofString "=") (c :: t) = none :=
  Text.afterWord?_cons_of_not_sameLetter [] t (CodePoint.sameLetter_eq_false (by decide) h)

theorem ne_equals_of_isMarkupSpace {c : CodePoint} (h : c.isMarkupSpace = true) :
    c ≠ CodePoint.ofChar '=' := by
  rintro rfl
  exact absurd h (by decide)

/-- What is read of a pseudo-attribute after its name. -/
theorem readReference?_afterName (a : WrittenAttribute)
    (hvalue : ∀ c ∈ a.value, isReferenceQuote c = false) (rest : Text) :
    (Text.afterWord? (Text.ofString "=") (a.beforeEquals.text ++ CodePoint.ofChar '='
        :: (a.afterEquals.text ++ a.quote :: (a.value ++ a.quote :: rest)))).bind readReference?
      = if a.beforeEquals.text = [] ∧ a.afterEquals.text = [] ∧ a.value ≠ []
        then some (a.value, rest) else none := by
  cases hbefore : a.beforeEquals.text with
  | cons c gap =>
    have hc := a.beforeEquals.isSpace c (hbefore ▸ List.mem_cons_self)
    rw [List.cons_append, afterWord?_equals_of_ne (ne_equals_of_isMarkupSpace hc), if_neg (by simp)]
    rfl
  | nil =>
    have hequals (t : Text) : Text.afterWord? (Text.ofString "=") (CodePoint.ofChar '=' :: t)
        = some t := Text.afterWord?_self (Text.ofString "=") t
    rw [List.nil_append, hequals, Option.bind_some]
    cases hafter : a.afterEquals.text with
    | cons c gap =>
      have hc := a.afterEquals.isSpace c (hafter ▸ List.mem_cons_self)
      rw [List.cons_append, readReference?_of_not_isQuote (isReferenceQuote_of_isMarkupSpace hc),
        if_neg (by simp)]
    | nil =>
      rw [List.nil_append, readReference?_written (isReferenceQuote_of_isQuote a.isQuote) hvalue]
      by_cases hnil : a.value = [] <;> simp [hnil]

theorem isLetterOf_href_of_isMarkupSpace {c : CodePoint} (h : c.isMarkupSpace = true) :
    c.isLetterOf (Text.ofString "href") = false :=
  CodePoint.isLetterOf_eq_false_of_isBlank (by decide) (CodePoint.isBlank_of_isMarkupSpace h)

/-- A pseudo-attribute after its white space is read as a reference, or not at all. -/
theorem readReference?_attribute (a : WrittenAttribute)
    (hvalue : ∀ c ∈ a.value, isReferenceQuote c = false) (rest : Text) :
    (Text.afterWord? (Text.ofString "href=")
        (a.lead ++ a.quote :: (a.value ++ a.quote :: rest))).bind readReference?
      = if Text.IsWord (Text.ofString "href") a.name.text ∧ a.beforeEquals.text = [] ∧
          a.afterEquals.text = [] ∧ a.value ≠ [] then some (a.value, rest) else none := by
  have hname : ∀ c ∈ a.name.text, ∀ r, ((Text.afterWord? (Text.ofString "=") (c :: r)).bind
      readReference?) = none := fun c hc r => by
    have hval := a.name.val_mem c hc
    have hne : c ≠ CodePoint.ofChar '=' := CodePoint.ne_ofChar (by
      show c.val ≠ 0x3D
      omega)
    rw [afterWord?_equals_of_ne hne, Option.bind_none]
  have hstop : Text.Stops (CodePoint.isLetterOf (Text.ofString "href"))
      (a.beforeEquals.text ++ CodePoint.ofChar '=' :: (a.afterEquals.text
        ++ a.quote :: (a.value ++ a.quote :: rest))) :=
    Text.stops_spacing isLetterOf_href_of_isMarkupSpace a.beforeEquals.isSpace
      (Text.stops_cons (by decide +kernel))
  have hlead : a.lead ++ a.quote :: (a.value ++ a.quote :: rest)
      = a.name.text ++ (a.beforeEquals.text ++ CodePoint.ofChar '=' :: (a.afterEquals.text
          ++ a.quote :: (a.value ++ a.quote :: rest))) := by
    rw [WrittenAttribute.lead]
    simp
  rw [show Text.ofString "href=" = Text.ofString "href" ++ Text.ofString "=" from rfl,
    Text.afterWord?_append_left, Option.bind_assoc, hlead,
    Text.afterWord?_append_bind hname hstop, readReference?_afterName a hvalue]
  by_cases hword : Text.IsWord (Text.ofString "href") a.name.text <;> simp [hword]

theorem firstReference?_of_not_isBlank {c : CodePoint} (h : c.isBlank = false) (t : Text) :
    firstReference? (c :: t) = none := by
  have hrun : Text.afterSome? CodePoint.isBlank (c :: t) = none := by
    rw [Text.afterSome?_eq, List.takeWhile_cons_of_neg (by simp [h]), if_pos rfl]
  rw [firstReference?, Text.afterBlanks?, hrun]
  rfl

theorem firstReference?_spacing (gap : Spacing) : firstReference? gap.text = none := by
  have hblank : ∀ c ∈ gap.text, c.isBlank = true :=
    fun c hc => CodePoint.isBlank_of_isMarkupSpace (gap.isSpace c hc)
  by_cases hnil : gap.text = []
  · rw [hnil]
    rfl
  · have hrun : Text.afterSome? CodePoint.isBlank (gap.text ++ []) = some (gap.text, []) :=
      Text.afterSome?_append hnil hblank (by simp [Text.Stops])
    rw [List.append_nil] at hrun
    rw [firstReference?, Text.afterBlanks?, hrun]
    rfl

theorem firstReference?_render (a : WrittenAttribute)
    (hname : ∀ c ∈ a.name.text, c.isBlank = false)
    (hvalue : ∀ c ∈ a.value, isReferenceQuote c = false) (rest : Text) :
    firstReference? (a.render ++ rest)
      = if (Text.IsWord (Text.ofString "href") a.name.text ∧ a.beforeEquals.text = [] ∧
          a.afterEquals.text = [] ∧ a.value ≠ []) ∧ CodePoint.ofChar '?' ∉ rest
        then some a.value else none := by
  obtain ⟨c, r, hlead⟩ := List.exists_cons_of_ne_nil a.name.ne_nil
  have hgap : ∀ c ∈ a.gap.text, c.isBlank = true :=
    fun c hc => CodePoint.isBlank_of_isMarkupSpace (a.gap.isSpace c hc)
  have hstop (t : Text) : Text.Stops CodePoint.isBlank (a.lead ++ t) := by
    rw [WrittenAttribute.lead, hlead]
    exact Text.stops_cons (hname c (hlead ▸ List.mem_cons_self))
  have hrender : a.render ++ rest
      = a.gap.text ++ (a.lead ++ a.quote :: (a.value ++ a.quote :: rest)) := by
    rw [WrittenAttribute.render]
    simp
  rw [hrender, firstReference?, Text.afterBlanks?,
    Text.afterSome?_append a.gap_ne_nil hgap (hstop _), Option.map_some]
  simp only [Option.bind_eq_bind, Option.bind_some]
  rw [← Option.bind_assoc, readReference?_attribute a hvalue]
  split
  · next hform => by_cases hquestion : CodePoint.ofChar '?' ∈ rest <;> simp [hform, hquestion]
  · next hform => rw [if_neg fun h => hform h.1, Option.bind_none]

theorem firstReference?_body (tag : WrittenTag)
    (hfirst : ∀ a ∈ tag.attributes.head?, (∀ c ∈ a.name.text, c.isBlank = false) ∧
      ∀ c ∈ a.value, isReferenceQuote c = false) (href : Text) :
    firstReference? tag.body = some href ↔ BeginsWithReference tag href := by
  obtain ⟨name, attributes, trailing⟩ := tag
  rw [BeginsWithReference, WrittenTag.body, WrittenAttribute.renderAll]
  cases attributes with
  | nil => simp [firstReference?_spacing]
  | cons a as =>
    obtain ⟨hname, hvalue⟩ := hfirst a rfl
    rw [List.flatMap_cons, List.append_assoc, firstReference?_render a hname hvalue]
    constructor
    · intro h
      split at h
      · next hform =>
        obtain ⟨⟨hword, hbefore, hafter, hne⟩, hquestion⟩ := hform
        obtain rfl := Option.some.inj h
        exact ⟨a, as, rfl, hword, hbefore, hafter, rfl, hne, hquestion⟩
      · cases h
    · rintro ⟨b, bs, hcons, hword, hbefore, hafter, rfl, hne, hquestion⟩
      obtain ⟨rfl, rfl⟩ := List.cons.inj hcons
      rw [if_pos ⟨⟨hword, hbefore, hafter, hne⟩, hquestion⟩]

/-- White space follows the name of a tag, or nothing before its slash. -/
theorem stops_body_of_isMarkupSpace {p : CodePoint → Bool}
    (hp : ∀ {c : CodePoint}, c.isMarkupSpace = true → p c = false) (tag : WrittenTag) :
    Text.Stops p tag.body := by
  obtain ⟨name, attributes, trailing⟩ := tag
  rw [WrittenTag.body, WrittenAttribute.renderAll]
  cases attributes with
  | nil =>
    have hstop := Text.stops_spacing (t := []) hp trailing.isSpace (by simp [Text.Stops])
    rwa [List.append_nil] at hstop
  | cons a as =>
    obtain ⟨c, r, hgap⟩ := List.exists_cons_of_ne_nil a.gap_ne_nil
    rw [List.flatMap_cons, WrittenAttribute.render, hgap]
    exact Text.stops_cons (hp (a.gap.isSpace c (hgap ▸ List.mem_cons_self)))

/-- **The reference of an instruction made of pseudo-attributes.** The value of the first has no
quote of either kind in it, and the names of target and first pseudo-attribute no blank: XML counts
one blank among the code points of names. -/
theorem reference?_written (tag : WrittenTag)
    (htarget : ∀ c ∈ tag.name.text, c.isBlank = false)
    (hfirst : ∀ a ∈ tag.attributes.head?, (∀ c ∈ a.name.text, c.isBlank = false) ∧
      ∀ c ∈ a.value, isReferenceQuote c = false) (href : Text) :
    reference? (tag.name.text ++ tag.body) = some href ↔ NamesModel tag href := by
  have hnext : ∀ c ∈ tag.name.text, ∀ r, firstReference? (c :: r) = none :=
    fun c hc r => firstReference?_of_not_isBlank (htarget c hc) r
  have hstop : Text.Stops (CodePoint.isLetterOf (Text.ofString "xml-model")) tag.body :=
    stops_body_of_isMarkupSpace (fun hc => CodePoint.isLetterOf_eq_false_of_isBlank (by decide)
      (CodePoint.isBlank_of_isMarkupSpace hc)) tag
  rw [reference?, Text.afterWord?_append_bind hnext hstop, NamesModel,
    ← firstReference?_body tag hfirst]
  by_cases hword : Text.IsWord (Text.ofString "xml-model") tag.name.text <;> simp [hword]

/-! ### Finding declarations -/

section findAll

variable {kind : DeclarationKind} {read? : Text → Option (Text × Text)}

theorem findAll_of_none {c : CodePoint} {r : Text} (h : read? (c :: r) = none) :
    findAll kind read? 0 (c :: r) = findAll kind read? 0 r := by
  rw [findAll, h]

/-- Nothing is found in a piece of text where nothing can be read, whatever follows it. -/
theorem findAll_skip {t rest : Text} (h : ∀ s, s ≠ [] → s <:+ t → read? (s ++ rest) = none) :
    findAll kind read? 0 (t ++ rest) = findAll kind read? 0 rest := by
  induction t with
  | nil => rfl
  | cons c t ih =>
    have hnone := h (c :: t) (List.cons_ne_nil c t) (List.suffix_refl _)
    have ht := ih fun s hs hsuffix => h s hs (hsuffix.trans (List.suffix_cons c t))
    exact (findAll_of_none hnone).trans ht

/-- What belongs to a declaration is passed over. -/
theorem findAll_length (t rest : Text) :
    findAll kind read? t.length (t ++ rest) = findAll kind read? 0 rest := by
  induction t with
  | nil => rfl
  | cons c t ih => exact ih

theorem findAll_read {t rest href : Text} (hne : t ≠ [])
    (h : read? (t ++ rest) = some (href, rest)) :
    findAll kind read? 0 (t ++ rest) = ⟨kind, href, t⟩ :: findAll kind read? 0 rest := by
  obtain ⟨c, r, rfl⟩ := List.exists_cons_of_ne_nil hne
  have hlength : (c :: (r ++ rest)).length - rest.length = (c :: r).length := by
    simp only [List.length_cons, List.length_append]
    omega
  have htake : (c :: (r ++ rest)).take (c :: r).length = c :: r := by
    rw [← List.cons_append, List.take_left]
  rw [List.cons_append] at h ⊢
  rw [findAll, h]
  simp only [hlength, htake]
  exact congrArg _ (findAll_length r rest)

theorem kind_of_mem_findAll {n : Nat} {t : Text} :
    ∀ d ∈ findAll kind read? n t, d.kind = kind := by
  induction n, t using findAll.induct read? with
  | case1 n => exact fun d hd => nomatch hd
  | case2 n c r ih => exact ih
  | case3 c r hnone ih =>
    rw [findAll, hnone]
    exact ih
  | case4 c r href rest hread length ih =>
    rw [findAll, hread]
    exact List.forall_mem_cons.mpr ⟨rfl, ih⟩

end findAll

end SchemaDeclaration

/-! ### Documents in pieces -/

namespace Piece

/-- What stands between the delimiters of an instruction. -/
def body? : Piece → Option Text
  | instruction body _ => some body
  | _ => none

/-- The places of a piece where a declaration might begin that is not this instruction. -/
def inside : Piece → Text
  | instruction body _ => CodePoint.ofChar '?' :: (body ++ Text.ofString "?>")
  | w => w.render

/-- Whether no declaration seems to begin inside a piece. -/
def HidesNoModel (w : Piece) : Prop :=
  Text.holdsWord (Text.ofString "<?xml-model") w.inside = false

instance (w : Piece) : Decidable w.HidesNoModel := inferInstanceAs (Decidable (_ = _))

/-- The declaration that a piece is, if it is an instruction that declares a model. -/
def model? (w : Piece) : Option SchemaDeclaration :=
  w.body?.bind fun body => (SchemaDeclaration.reference? body).map fun href =>
    ⟨.xmlModel, href, Text.ofString "<?" ++ (body ++ Text.ofString "?>")⟩

/-- Other pieces than prose end at the end of a tag or with a closing delimiter. -/
theorem exists_inside_eq (w : Piece) :
    (∃ t noTag, w = .prose t noTag) ∨ ∃ t, w.inside = t ++ [CodePoint.ofChar '>'] := by
  have happend {s t u : Text} {c : CodePoint} (h : t = u ++ [c]) : s ++ t = s ++ u ++ [c] := by
    rw [h, List.append_assoc]
  cases w with
  | opening tag closed =>
    exact Or.inr ⟨_, happend (s := [CodePoint.ofChar '<']) (happend rfl)⟩
  | closing tag gap =>
    exact Or.inr ⟨_, happend (s := Text.ofString "</")
      (happend (happend (s := gap.text) (u := []) rfl))⟩
  | prose t noTag => exact Or.inl ⟨t, noTag, rfl⟩
  | comment body _ _ =>
    exact Or.inr ⟨_, happend (happend (u := Text.ofString "--") rfl)⟩
  | cdata body _ =>
    exact Or.inr ⟨_, happend (happend (u := Text.ofString "]]") rfl)⟩
  | instruction body _ =>
    exact Or.inr ⟨_, happend (s := [CodePoint.ofChar '?']) (happend (u := Text.ofString "?") rfl)⟩

end Piece

namespace SchemaDeclaration

theorem readXmlModel?_eq_none {t : Text}
    (h : Text.afterWord? (Text.ofString "<?xml-model") t = none) : readXmlModel? t = none := by
  rw [readXmlModel?, h]
  rfl

/-- Where no declaration begins inside a piece, none begins there and ends behind the piece. -/
theorem readXmlModel?_inside {w : Piece} (hinside : w.HidesNoModel) {s : Text} (hne : s ≠ [])
    (hs : s <:+ w.inside) (rest : Text) : readXmlModel? (s ++ rest) = none := by
  refine readXmlModel?_eq_none ?_
  rcases w.exists_inside_eq with ⟨t, noTag, rfl⟩ | ⟨t, ht⟩
  · obtain ⟨c, r, rfl⟩ := List.exists_cons_of_ne_nil hne
    have hc : c ≠ CodePoint.ofChar '<' := by
      rintro rfl
      exact noTag (hs.subset List.mem_cons_self)
    exact Text.afterWord?_cons_of_not_sameLetter (Text.ofString "?xml-model") (r ++ rest)
      (CodePoint.sameLetter_eq_false (by decide) hc)
  · have hnone := Text.afterWord?_eq_none_of_suffix hinside hs hne
    -- the last code point of the piece is no letter of the word
    rw [ht] at hs
    rcases List.suffix_concat_iff.mp hs with rfl | ⟨r, rfl, -⟩
    · exact absurd rfl hne
    · have hword (rest : Text) := Text.afterWord?_append_cons
        (w := Text.ofString "<?xml-model") (q := CodePoint.ofChar '>') (by decide +kernel) r rest
      rw [hword] at hnone
      rw [List.append_assoc]
      exact (hword rest).trans (by rw [Option.map_eq_none_iff.mp hnone]; rfl)

/-- **One piece** is a declaration or has none. -/
theorem findAll_render {w : Piece} (hinside : w.HidesNoModel)
    (hquotes : ∀ body ∈ w.body?, ClosesQuotes body) (rest : Text) :
    findAll .xmlModel readXmlModel? 0 (w.render ++ rest)
      = w.model?.toList ++ findAll .xmlModel readXmlModel? 0 rest := by
  have hskip : findAll .xmlModel readXmlModel? 0 (w.inside ++ rest)
      = findAll .xmlModel readXmlModel? 0 rest :=
    findAll_skip fun s hne hs => readXmlModel?_inside hinside hne hs rest
  cases w with
  | instruction body noEnd =>
    have hread := readXmlModel?_instruction noEnd (hquotes body rfl) rest
    rw [Piece.model?, Piece.body?, Option.bind_some]
    cases hreference : reference? body with
    | none =>
      -- nothing begins at the delimiter of the instruction, and nothing inside it
      rw [hreference, Option.map_none] at hread
      exact (findAll_of_none hread).trans hskip
    | some href =>
      rw [hreference, Option.map_some] at hread
      exact findAll_read (List.cons_ne_nil _ _) hread
  | _ => exact hskip

theorem findAll_renderAll {ps : List Piece} (hinside : ∀ w ∈ ps, w.HidesNoModel)
    (hquotes : ∀ w ∈ ps, ∀ body ∈ w.body?, ClosesQuotes body) :
    findAll .xmlModel readXmlModel? 0 (Piece.renderAll ps) = ps.filterMap Piece.model? := by
  induction ps with
  | nil => rfl
  | cons w ps ih =>
    obtain ⟨hw, hps⟩ := List.forall_mem_cons.mp hinside
    obtain ⟨hwquotes, hpsquotes⟩ := List.forall_mem_cons.mp hquotes
    rw [Piece.renderAll_cons, findAll_render hw hwquotes, ih hps hpsquotes, List.filterMap_cons]
    cases w.model? <;> rfl

/-- **The models that a document in pieces declares,** if no declaration seems to begin anywhere but
at an instruction, and no quote stands alone in one that names models. There is one declaration for
each instruction that is one, in their order, and no other; each is all of its instruction. An
instruction made of pseudo-attributes is one exactly if it names a model with its first. -/
theorem ofDocument_pieces (ps : List Piece) (hinside : ∀ w ∈ ps, w.HidesNoModel)
    (hquotes : ∀ w ∈ ps, ∀ body ∈ w.body?, ClosesQuotes body) :
    (ofDocument (Piece.renderAll ps)).filter (·.kind = .xmlModel) = ps.filterMap Piece.model? ∧
    ∀ (tag : WrittenTag) (noEnd : ¬ Text.ofString "?>" <:+: tag.name.text ++ tag.body),
      (∀ c ∈ tag.name.text, c.isBlank = false) →
      (∀ a ∈ tag.attributes.head?, (∀ c ∈ a.name.text, c.isBlank = false) ∧
        ∀ c ∈ a.value, isReferenceQuote c = false) →
      ∀ d, (Piece.instruction (tag.name.text ++ tag.body) noEnd).model? = some d ↔
        ∃ href, NamesModel tag href ∧ d = ⟨.xmlModel, href,
          Text.ofString "<?" ++ (tag.name.text ++ tag.body ++ Text.ofString "?>")⟩ := by
  refine ⟨?_, fun tag noEnd htarget hfirst d => ?_⟩
  · have hmodels : (findAll .xmlModel readXmlModel? 0 (Piece.renderAll ps)).filter
        (·.kind = .xmlModel) = findAll .xmlModel readXmlModel? 0 (Piece.renderAll ps) :=
      List.filter_eq_self.mpr fun d hd => by simp [kind_of_mem_findAll d hd]
    have htypes : (findAll .docType readDocType? 0 (Piece.renderAll ps)).filter
        (·.kind = .xmlModel) = [] :=
      List.filter_eq_nil_iff.mpr fun d hd => by simp [kind_of_mem_findAll d hd]
    rw [ofDocument, List.filter_append, hmodels, htypes, List.append_nil,
      findAll_renderAll hinside hquotes]
  · have hreference := reference?_written tag htarget hfirst
    rw [Piece.model?, Piece.body?, Option.bind_some, Option.map_eq_some_iff]
    constructor
    · rintro ⟨href, h, rfl⟩
      exact ⟨href, (hreference href).mp h, rfl⟩
    · rintro ⟨href, h, rfl⟩
      exact ⟨href, (hreference href).mpr h, rfl⟩

theorem isQuote_quotationMark : (CodePoint.ofChar '"').isQuote = true := rfl

/-- An attribute with one space before it and its value in double quotes. -/
def spaced (name : XmlName) (value : Text) (h : CodePoint.ofChar '"' ∉ value) :
    WrittenAttribute where
  gap := ⟨[CodePoint.ofChar ' '], by decide⟩
  gap_ne_nil := by decide
  name := name
  beforeEquals := Spacing.none
  afterEquals := Spacing.none
  quote := CodePoint.ofChar '"'
  isQuote := isQuote_quotationMark
  value := value
  isFree := h

/-- An instruction that names a model and says something about it. -/
def titled (title : Text) (h : CodePoint.ofChar '"' ∉ title) : WrittenTag where
  name := ⟨Text.ofString "xml-model", by decide⟩
  attributes :=
    [spaced ⟨Text.ofString "href", by decide⟩ (Text.ofString "a.rng") (by decide),
      spaced ⟨Text.ofString "title", by decide⟩ title h]
  trailing := Spacing.none

/-- A document with such an instruction, before a comment about models and an element. -/
def titledDocument (title : Text) (h : CodePoint.ofChar '"' ∉ title)
    (noEnd : ¬ Text.ofString "?>" <:+: (titled title h).name.text ++ (titled title h).body) :
    List Piece :=
  [.instruction ((titled title h).name.text ++ (titled title h).body) noEnd,
    .comment (Text.ofString "xml-model") (by decide +kernel) (by decide +kernel),
    .opening (.plain ⟨Text.ofString "TEI", by decide⟩) (some Spacing.none)]

theorem ofDocument_pieces_titled :
    (ofDocument (Text.ofString
        "<?xml-model href=\"a.rng\" title=\"Why\"?><!--xml-model--><TEI/>")).filter
        (·.kind = .xmlModel)
      = [⟨.xmlModel, Text.ofString "a.rng",
          Text.ofString "<?xml-model href=\"a.rng\" title=\"Why\"?>"⟩] ∧
    NamesModel (titled (Text.ofString "Why") (by decide)) (Text.ofString "a.rng") := by
  have hmodels := ofDocument_pieces
    (titledDocument (Text.ofString "Why") (by decide) (by decide +kernel))
    (by decide +kernel) (by decide +kernel)
  have htext : Piece.renderAll
      (titledDocument (Text.ofString "Why") (by decide) (by decide +kernel)) = Text.ofString
        "<?xml-model href=\"a.rng\" title=\"Why\"?><!--xml-model--><TEI/>" := by decide +kernel
  obtain ⟨href, hnames, heq⟩ := (hmodels.2 (titled (Text.ofString "Why") (by decide))
    (by decide +kernel) (by decide +kernel) (by decide +kernel)
    ⟨.xmlModel, Text.ofString "a.rng",
      Text.ofString "<?xml-model href=\"a.rng\" title=\"Why\"?>"⟩).mp (by decide +kernel)
  obtain ⟨-, rfl, -⟩ := SchemaDeclaration.mk.inj heq
  rw [← htext]
  exact ⟨hmodels.1.trans (by decide +kernel), hnames⟩

/-- A question mark in a later value hides the instruction. -/
theorem ofDocument_titled_question :
    Piece.renderAll (titledDocument (Text.ofString "Why?") (by decide) (by decide +kernel))
      = Text.ofString "<?xml-model href=\"a.rng\" title=\"Why?\"?><!--xml-model--><TEI/>" ∧
    ofDocument (Piece.renderAll
      (titledDocument (Text.ofString "Why?") (by decide) (by decide +kernel))) = [] := by
  decide +kernel

end SchemaDeclaration

end MarkupGrammar
