import MarkupGrammar.Proofs.Markup.Lexing

/-!
# Document type declarations

A document may begin with a declaration of its type. `WrittenDocType` is such a declaration as its
author writes it: a name, perhaps the address of an external part, and perhaps an internal subset
between square brackets, made of declarations with literals, comments, processing instructions and
references.

The scanner looks for the end of the declaration with one open quote and one count of brackets. It
does not tell a comment from a declaration, so what a comment or an instruction in the subset says
counts too: an apostrophe there opens a quote, and what follows is taken for its text. The
declaration is passed over exactly when this comes to nothing, which is what `Text.Settles` says of
the text of the subset.

## Main results

* `TagSpan.skipDeclaration_subset_iff` — where the search for the end of a subset ends
* `WrittenDocType.skipDeclaration_body_iff` — a declaration is passed over exactly when its subset
  settles
* `WrittenDocType.settles_of_isQuiet` — a subset settles when no comment or instruction in it has a
  quote or a square bracket
-/

namespace MarkupGrammar

/-! ### Declarations as they are written -/

/-- White space between parts that must not touch. -/
structure Gap extends Spacing where
  ne_nil : text ≠ []

/-- A literal: anything but a quote between two of this quote. -/
structure WrittenLiteral where
  quote : CodePoint
  isQuote : quote.isQuote = true
  value : Text
  isFree : quote ∉ value

/-- Where the external part of a document type is found: at an address, or under a public name with
an address to fall back on. -/
inductive ExternalId where
  | system (gap : Gap) (address : WrittenLiteral)
  | publicName (gap : Gap) (name : WrittenLiteral) (between : Gap) (address : WrittenLiteral)

namespace CodePoint

/-- Whether the code point is a quote or a square bracket, and so counts in the search for the end
of a declaration wherever it stands outside quotes. -/
def counts (c : CodePoint) : Bool := c.isQuote || c = ofChar '[' || c = ofChar ']'

/-- Whether the code point is a quote or a bracket of either kind. -/
def delimits (c : CodePoint) : Bool := c.counts || c = ofChar '<' || c = ofChar '>'

end CodePoint

/-- What stands in a markup declaration: literals, and between them text without delimiters. -/
inductive DeclarationPart where
  | plain (t : Text) (isPlain : ∀ c ∈ t, c.delimits = false)
  | literal (l : WrittenLiteral)

/-- A part of an internal subset. -/
inductive SubsetPart where
  | spacing (gap : Spacing)
  | reference (name : XmlName)
  | declaration (keyword : XmlName) (parts : List DeclarationPart)
  | comment (body : Text) (noHyphens : ¬ Text.ofString "--" <:+: body)
      (noLastHyphen : body.getLast? ≠ some (CodePoint.ofChar '-'))
  | instruction (body : Text) (noEnd : ¬ Text.ofString "?>" <:+: body)

/-- A document type declaration. White space may stand before its subset and after it. -/
structure WrittenDocType where
  gap : Gap
  name : XmlName
  externalId : Option ExternalId
  spacing : Spacing
  subset : Option (List SubsetPart × Spacing)

/-! ### Writing down -/

namespace WrittenLiteral

/-- The text of a literal. -/
def render (l : WrittenLiteral) : Text := l.quote :: (l.value ++ [l.quote])

end WrittenLiteral

namespace ExternalId

/-- The text of an external identifier, with the white space before it. -/
def render : ExternalId → Text
  | system gap address => gap.text ++ (Text.ofString "SYSTEM" ++ address.render)
  | publicName gap name between address =>
    gap.text ++ (Text.ofString "PUBLIC" ++ (name.render ++ (between.text ++ address.render)))

end ExternalId

namespace DeclarationPart

/-- The text of a part of a markup declaration. -/
def render : DeclarationPart → Text
  | plain t _ => t
  | literal l => l.render

end DeclarationPart

namespace SubsetPart

/-- The text of a part of an internal subset. -/
def render : SubsetPart → Text
  | spacing gap => gap.text
  | reference name => CodePoint.ofChar '%' :: (name.text ++ Text.ofString ";")
  | declaration keyword parts =>
    Text.ofString "<!" ++ (keyword.text
      ++ (parts.flatMap DeclarationPart.render ++ Text.ofString ">"))
  | comment body _ _ => Text.ofString "<!--" ++ (body ++ Text.ofString "-->")
  | instruction body _ => Text.ofString "<?" ++ (body ++ Text.ofString "?>")

end SubsetPart

namespace WrittenDocType

/-- What stands in a declaration before its subset. -/
def head (d : WrittenDocType) : Text :=
  Text.ofString "DOCTYPE" ++ (d.gap.text ++ (d.name.text
    ++ ((d.externalId.map ExternalId.render).getD [] ++ d.spacing.text)))

/-- The text of the subset, without its brackets. -/
def subsetText (d : WrittenDocType) : Text :=
  (d.subset.map fun s => s.1.flatMap SubsetPart.render).getD []

/-- What stands in a declaration after its subset: the bracket that ends the subset, if there is
one, and the `>`. -/
def tail : Option (List SubsetPart × Spacing) → Text
  | none => Text.ofString ">"
  | some (_, gap) => CodePoint.ofChar ']' :: (gap.text ++ Text.ofString ">")

/-- The text of a declaration after its `<!`. -/
def body (d : WrittenDocType) : Text :=
  d.head ++ ((if d.subset.isSome then Text.ofString "[" else []) ++ (d.subsetText ++ tail d.subset))

/-- The text of a declaration. -/
def render (d : WrittenDocType) : Text := Text.ofString "<!" ++ d.body

end WrittenDocType

/-! ### What settles -/

namespace Text

/-- What stands outside quotes, when a quote may be open at the beginning; nothing when one is open
at the end. -/
def unquoted? : Option CodePoint → Text → Option Text
  | none, [] => some []
  | some _, [] => none
  | some q, c :: t => unquoted? (if c = q then none else some q) t
  | none, c :: t =>
    if c.isQuote then unquoted? (some c) t else (unquoted? none t).map (c :: ·)

/-- How many more square brackets a text opens than it closes. -/
def bracketBalance (t : Text) : Int :=
  (t.count (CodePoint.ofChar '[') : Int) - t.count (CodePoint.ofChar ']')

/-- Whether no `>` of a text stands after more closing than opening square brackets, when some are
open at the beginning. -/
def KeepsOpen (depth : Int) (t : Text) : Prop :=
  ∀ before, before ++ [CodePoint.ofChar '>'] <+: t → 0 < depth + bracketBalance before

/-- **A text settles** when its quotes are all closed, and when outside quotes it opens no square
bracket without closing it, and closes none before a `>` that it has not opened. -/
def Settles (t : Text) : Prop :=
  ∃ u, unquoted? none t = some u ∧ KeepsOpen 1 u ∧ bracketBalance u ≤ 0

theorem keepsOpen_nil (depth : Int) : KeepsOpen depth [] :=
  fun _ h => absurd (List.prefix_nil.mp h) (by simp)

theorem settles_nil : Settles [] := ⟨[], rfl, keepsOpen_nil 1, Int.le_refl 0⟩

@[simp] theorem bracketBalance_nil : bracketBalance [] = 0 := rfl

theorem bracketBalance_cons (c : CodePoint) (t : Text) :
    bracketBalance (c :: t) = bracketBalance [c] + bracketBalance t := by
  simp only [bracketBalance, List.count_cons, List.count_nil]
  omega

theorem bracketBalance_of_ne {c : CodePoint} (hopen : c ≠ CodePoint.ofChar '[')
    (hclose : c ≠ CodePoint.ofChar ']') : bracketBalance [c] = 0 := by
  simp [bracketBalance, hopen, hclose]

theorem keepsOpen_cons_iff {depth : Int} {c : CodePoint} {t : Text} :
    KeepsOpen depth (c :: t) ↔
      (c = CodePoint.ofChar '>' → 0 < depth) ∧ KeepsOpen (depth + bracketBalance [c]) t := by
  constructor
  · refine fun h => ⟨?_, fun before hbefore => ?_⟩
    · rintro rfl
      simpa [bracketBalance] using h [] ⟨t, rfl⟩
    · have := h (c :: before) (by
        obtain ⟨rest, rfl⟩ := hbefore
        exact ⟨rest, rfl⟩)
      rw [bracketBalance_cons] at this
      omega
  · rintro ⟨hc, ht⟩ before ⟨rest, hrest⟩
    cases before with
    | nil =>
      have := hc (List.cons.inj hrest).1.symm
      simpa [bracketBalance] using this
    | cons d before =>
      obtain ⟨rfl, htail⟩ := List.cons.inj hrest
      have := ht before ⟨rest, htail⟩
      rw [bracketBalance_cons]
      omega

/-- What is asked of the text outside quotes, after a code point that is outside quotes. -/
theorem exists_keepsOpen_cons_iff {depth : Int} {c : CodePoint} {unquoted : Option Text} :
    (∃ u, unquoted.map (c :: ·) = some u ∧ KeepsOpen depth u ∧ depth + bracketBalance u ≤ 1) ↔
      (c = CodePoint.ofChar '>' → 0 < depth) ∧
        ∃ u, unquoted = some u ∧ KeepsOpen (depth + bracketBalance [c]) u
          ∧ depth + bracketBalance [c] + bracketBalance u ≤ 1 := by
  constructor
  · rintro ⟨v, hv, hopen, hbalance⟩
    obtain ⟨u, rfl, rfl⟩ := Option.map_eq_some_iff.mp hv
    obtain ⟨hc, hu⟩ := keepsOpen_cons_iff.mp hopen
    rw [bracketBalance_cons, ← Int.add_assoc] at hbalance
    exact ⟨hc, u, rfl, hu, hbalance⟩
  · rintro ⟨hc, u, rfl, hu, hbalance⟩
    rw [Int.add_assoc, ← bracketBalance_cons] at hbalance
    exact ⟨c :: u, rfl, keepsOpen_cons_iff.mpr ⟨hc, hu⟩, hbalance⟩

end Text

/-! ### The search for the end of a declaration -/

namespace CodePoint

theorem counts_eq_false_iff {c : CodePoint} :
    c.counts = false ↔ c.isQuote = false ∧ c ≠ ofChar '[' ∧ c ≠ ofChar ']' := by
  simp [counts, and_assoc]

theorem delimits_eq_false {c : CodePoint} (h : c.val ≠ 0x22 ∧ c.val ≠ 0x27 ∧ c.val ≠ 0x3C
      ∧ c.val ≠ 0x3E ∧ c.val ≠ 0x5B ∧ c.val ≠ 0x5D) : c.delimits = false := by
  obtain ⟨hdouble, hsingle, hless, hgreater, hopen, hclose⟩ := h
  have hne : ∀ d : Char, c.val ≠ d.toNat → decide (c = ofChar d) = false := fun d hd =>
    decide_eq_false (ne_ofChar hd)
  rw [delimits, counts, hne '<' hless, hne '>' hgreater, hne '[' hopen, hne ']' hclose, isQuote]
  simp [hdouble, hsingle]

end CodePoint

namespace TagSpan

/-- How the search goes on after a code point outside quotes. -/
theorem skipDeclaration_cons (depth : Int) {c : CodePoint} (hc : c.isQuote = false) (r : Text) :
    skipDeclaration depth none (c :: r)
      = if c = CodePoint.ofChar '>' ∧ depth ≤ 0 then r
        else skipDeclaration (depth + Text.bracketBalance [c]) none r := by
  rw [skipDeclaration, hc, if_neg Bool.false_ne_true]
  by_cases hopen : c = CodePoint.ofChar '['
  · subst hopen
    rw [if_pos rfl, if_neg (by simp [CodePoint.ofChar])]
    rfl
  by_cases hclose : c = CodePoint.ofChar ']'
  · subst hclose
    rw [if_neg hopen, if_pos rfl, if_neg (by simp [CodePoint.ofChar])]
    rfl
  rw [if_neg hopen, if_neg hclose, Text.bracketBalance_of_ne hopen hclose, Int.add_zero]
  simp

theorem skipDeclaration_some_eq_nil {q : CodePoint} (depth : Int) {t : Text} (h : q ∉ t) :
    skipDeclaration depth (some q) t = [] := by
  induction t with
  | nil => rw [skipDeclaration]
  | cons c t ih =>
    have hc : c ≠ q := fun hc => h (hc ▸ List.mem_cons_self)
    rw [skipDeclaration, if_neg hc]
    exact ih fun hq => h (List.mem_cons_of_mem c hq)

/-- What the search for the end of a declaration passes over, however many brackets are open. -/
def IsSkipped (t : Text) : Prop :=
  ∀ depth r, skipDeclaration depth none (t ++ r) = skipDeclaration depth none r

/-- What the search passes over inside a subset. -/
def IsSkippedInside (t : Text) : Prop :=
  ∀ depth, 0 < depth → ∀ r, skipDeclaration depth none (t ++ r) = skipDeclaration depth none r

theorem isSkipped_nil : IsSkipped [] := fun _ _ => rfl

theorem IsSkipped.append {s t : Text} (hs : IsSkipped s) (ht : IsSkipped t) :
    IsSkipped (s ++ t) := by
  intro depth r
  rw [List.append_assoc, hs, ht]

theorem IsSkipped.inside {t : Text} (h : IsSkipped t) : IsSkippedInside t :=
  fun depth _ r => h depth r

theorem IsSkippedInside.append {s t : Text} (hs : IsSkippedInside s) (ht : IsSkippedInside t) :
    IsSkippedInside (s ++ t) := by
  intro depth hdepth r
  rw [List.append_assoc, hs depth hdepth, ht depth hdepth]

theorem isSkippedInside_flatMap {α : Type} {f : α → Text} {as : List α}
    (h : ∀ a ∈ as, IsSkippedInside (f a)) : IsSkippedInside (as.flatMap f) := by
  induction as with
  | nil => exact isSkipped_nil.inside
  | cons a as ih =>
    rw [List.flatMap_cons]
    exact (h a List.mem_cons_self).append (ih fun b hb => h b (List.mem_cons_of_mem a hb))

/-- Inside a subset, only quotes and square brackets stop the search from passing over a text. -/
theorem isSkippedInside_of_forall {t : Text} (h : ∀ c ∈ t, c.counts = false) :
    IsSkippedInside t := by
  intro depth hdepth r
  induction t with
  | nil => rfl
  | cons c t ih =>
    obtain ⟨hquote, hopen, hclose⟩ := CodePoint.counts_eq_false_iff.mp (h c List.mem_cons_self)
    rw [List.cons_append, skipDeclaration_cons depth hquote, if_neg fun hend => by omega,
      Text.bracketBalance_of_ne hopen hclose, Int.add_zero]
    exact ih fun d hd => h d (List.mem_cons_of_mem c hd)

theorem isSkipped_plain {t : Text} (h : ∀ c ∈ t, c.delimits = false) : IsSkipped t := by
  intro depth r
  induction t with
  | nil => rfl
  | cons c t ih =>
    have hc := h c List.mem_cons_self
    simp only [CodePoint.delimits, Bool.or_eq_false_iff, decide_eq_false_iff_not] at hc
    obtain ⟨⟨hcounts, -⟩, hend⟩ := hc
    obtain ⟨hquote, hopen, hclose⟩ := CodePoint.counts_eq_false_iff.mp hcounts
    rw [List.cons_append, skipDeclaration_cons depth hquote, if_neg fun h => hend h.1,
      Text.bracketBalance_of_ne hopen hclose, Int.add_zero]
    exact ih fun d hd => h d (List.mem_cons_of_mem c hd)

/-- Inside quotes only the quote itself matters. -/
theorem skipDeclaration_quoted {q : CodePoint} {value : Text} (h : q ∉ value) (depth : Int)
    (r : Text) :
    skipDeclaration depth (some q) (value ++ q :: r) = skipDeclaration depth none r := by
  induction value with
  | nil => rw [List.nil_append, skipDeclaration, if_pos rfl]
  | cons c value ih =>
    have hc : c ≠ q := fun hc => h (hc ▸ List.mem_cons_self)
    rw [List.cons_append, skipDeclaration, if_neg hc]
    exact ih fun hq => h (List.mem_cons_of_mem c hq)

theorem isSkipped_literal (l : WrittenLiteral) : IsSkipped l.render := by
  intro depth r
  rw [WrittenLiteral.render, List.cons_append, List.append_assoc, skipDeclaration, if_pos l.isQuote]
  exact skipDeclaration_quoted l.isFree depth r

theorem isSkipped_spacing (gap : Spacing) : IsSkipped gap.text := by
  refine isSkipped_plain fun c hc => CodePoint.delimits_eq_false ?_
  have hval := CodePoint.val_of_isMarkupSpace (gap.isSpace c hc)
  omega

theorem isSkipped_xmlName (name : XmlName) : IsSkipped name.text := by
  refine isSkipped_plain fun c hc => CodePoint.delimits_eq_false ?_
  have hval := name.val_mem c hc
  omega

/-! ### Where the search ends -/

/-- What follows a subset ends the declaration when no more than its own bracket is open. -/
theorem skipDeclaration_tail_iff (gap : Spacing) (depth : Int) :
    (∀ r, skipDeclaration depth none
        (CodePoint.ofChar ']' :: (gap.text ++ CodePoint.ofChar '>' :: r)) = r) ↔ depth ≤ 1 := by
  have htail : ∀ r, skipDeclaration depth none
        (CodePoint.ofChar ']' :: (gap.text ++ CodePoint.ofChar '>' :: r))
      = if depth ≤ 1 then r else skipDeclaration (depth - 1) none r := by
    intro r
    have hclose : depth + Text.bracketBalance [CodePoint.ofChar ']'] = depth - 1 := rfl
    have hend : depth - 1 + Text.bracketBalance [CodePoint.ofChar '>'] = depth - 1 :=
      Int.add_zero _
    have hdepth : depth - 1 ≤ 0 ↔ depth ≤ 1 := by omega
    rw [skipDeclaration_cons depth (by decide), if_neg (by simp [CodePoint.ofChar]), hclose,
      isSkipped_spacing gap, skipDeclaration_cons _ (by decide), hend]
    simp only [true_and, hdepth]
  constructor
  · intro h
    by_contra hdepth
    have hrest := h [CodePoint.ofChar 'a']
    rw [htail, if_neg hdepth, skipDeclaration_cons _ (by decide),
      if_neg (by simp [CodePoint.ofChar]), skipDeclaration] at hrest
    exact nomatch hrest
  · intro hdepth r
    rw [htail, if_pos hdepth]

/-- A quote that is open where a subset ends hides the end. -/
theorem skipDeclaration_open_quote (gap : Spacing) {q : CodePoint} (hq : q.isQuote = true)
    (depth : Int) :
    ¬ ∀ r, skipDeclaration depth (some q)
        (CodePoint.ofChar ']' :: (gap.text ++ CodePoint.ofChar '>' :: r)) = r := by
  intro h
  have hval := CodePoint.val_of_isQuote hq
  have hne : ∀ d : Char, d.toNat ≠ 0x22 ∧ d.toNat ≠ 0x27 → q ≠ CodePoint.ofChar d :=
    fun d hd => CodePoint.ne_ofChar (by omega)
  have hgap : q ∉ gap.text := by
    intro hmem
    have := CodePoint.val_of_isMarkupSpace (gap.isSpace q hmem)
    omega
  have hfree : q ∉ CodePoint.ofChar ']' :: (gap.text ++ CodePoint.ofChar '>'
      :: [CodePoint.ofChar 'a']) := by
    simp [hgap, hne ']' (by decide), hne '>' (by decide), hne 'a' (by decide)]
  have hrest := h [CodePoint.ofChar 'a']
  rw [skipDeclaration_some_eq_nil depth hfree] at hrest
  exact nomatch hrest

/-- **The end of a subset is found exactly when the subset settles.** Then the bracket after it is
its own, and so is the `>` that ends the declaration. -/
theorem skipDeclaration_subset_iff (gap : Spacing) {quote : Option CodePoint}
    (hquote : ∀ q ∈ quote, q.isQuote = true) (depth : Int) (t : Text) :
    (∀ r, skipDeclaration depth quote
        (t ++ CodePoint.ofChar ']' :: (gap.text ++ CodePoint.ofChar '>' :: r)) = r) ↔
      ∃ u, Text.unquoted? quote t = some u ∧ Text.KeepsOpen depth u
        ∧ depth + Text.bracketBalance u ≤ 1 := by
  -- on the text, one code point after the other, as the search goes
  induction t generalizing depth quote with
  | nil =>
    cases quote with
    | none =>
      refine (skipDeclaration_tail_iff gap depth).trans ⟨fun h => ?_, ?_⟩
      · exact ⟨[], rfl, Text.keepsOpen_nil depth, by simpa using h⟩
      · rintro ⟨u, hu, -, h⟩
        obtain rfl := Option.some.inj hu
        simpa using h
    | some q =>
      refine iff_of_false (skipDeclaration_open_quote gap (hquote q rfl) depth) ?_
      rintro ⟨u, hu, -⟩
      exact nomatch hu
  | cons c t ih =>
    cases quote with
    | some q =>
      have hrest : ∀ p ∈ (if c = q then none else some q), p.isQuote = true := by
        split
        · exact fun p hp => nomatch hp
        · exact hquote
      simp only [List.cons_append, skipDeclaration]
      rw [ih hrest, Text.unquoted?]
    | none =>
      rw [Text.unquoted?]
      by_cases hc : c.isQuote = true
      · simp only [List.cons_append, skipDeclaration, if_pos hc]
        exact ih (by rintro p ⟨⟩; exact hc) depth
      · rw [if_neg hc, Text.exists_keepsOpen_cons_iff, ← ih (by rintro p ⟨⟩)]
        simp only [List.cons_append, skipDeclaration_cons depth (Bool.eq_false_iff.mpr hc)]
        by_cases hend : c = CodePoint.ofChar '>' ∧ depth ≤ 0
        · -- the declaration ends here, and the subset is left over
          have hlong : ¬ ∀ r : Text, t ++ CodePoint.ofChar ']'
              :: (gap.text ++ CodePoint.ofChar '>' :: r) = r := by
            intro h
            have := congrArg List.length (h [])
            simp at this
          simp only [if_pos hend]
          refine iff_of_false hlong ?_
          rintro ⟨hdepth, -⟩
          have := hdepth hend.1
          omega
        · simp only [if_neg hend]
          refine (and_iff_right fun hgreater => ?_).symm
          exact Int.not_le.mp fun hdepth => hend ⟨hgreater, hdepth⟩

/-- A subset settles exactly when the search that begins after its bracket ends where the
declaration does. -/
theorem skipDeclaration_settles_iff (gap : Spacing) (t : Text) :
    (∀ r, skipDeclaration 1 none
        (t ++ CodePoint.ofChar ']' :: (gap.text ++ CodePoint.ofChar '>' :: r)) = r) ↔
      t.Settles := by
  refine (skipDeclaration_subset_iff gap (by rintro q ⟨⟩) 1 t).trans (exists_congr fun u => ?_)
  have hbalance : 1 + Text.bracketBalance u ≤ 1 ↔ Text.bracketBalance u ≤ 0 := by omega
  rw [hbalance]

/-- What the search passes over inside a subset settles as a subset. -/
theorem IsSkippedInside.settles {t : Text} (h : IsSkippedInside t) : t.Settles := by
  refine (skipDeclaration_settles_iff ⟨[], nofun⟩ t).mp fun r => ?_
  rw [h 1 Int.one_pos]
  exact (skipDeclaration_tail_iff ⟨[], nofun⟩ 1).mpr (Int.le_refl 1) r

end TagSpan

/-! ### Passing over a declaration -/

namespace DeclarationPart

theorem isSkipped_render (part : DeclarationPart) : TagSpan.IsSkipped part.render := by
  cases part with
  | plain t isPlain => exact TagSpan.isSkipped_plain isPlain
  | literal l => exact TagSpan.isSkipped_literal l

end DeclarationPart

namespace SubsetPart

/-- Whether the part is anything but a comment or an instruction that has a quote or a square
bracket in it. -/
def isQuiet : SubsetPart → Bool
  | comment body _ _ => body.all fun c => !c.counts
  | instruction body _ => body.all fun c => !c.counts
  | _ => true

/-- Text without quotes and square brackets, between delimiters that have none. -/
theorem isSkippedInside_delimited {opening body closing : Text}
    (hopening : ∀ c ∈ opening, c.counts = false) (hbody : body.all (fun c => !c.counts) = true)
    (hclosing : ∀ c ∈ closing, c.counts = false) :
    TagSpan.IsSkippedInside (opening ++ (body ++ closing)) := by
  refine TagSpan.isSkippedInside_of_forall fun c hc => ?_
  rcases List.mem_append.mp hc with hc | hc
  · exact hopening c hc
  · rcases List.mem_append.mp hc with hc | hc
    · exact (Bool.not_eq_true' _).mp (List.all_eq_true.mp hbody c hc)
    · exact hclosing c hc

/-- Inside a subset the search passes over every quiet part: its literals are quoted, and a `>` does
not count there. -/
theorem isSkippedInside_render {part : SubsetPart} (h : part.isQuiet = true) :
    TagSpan.IsSkippedInside part.render := by
  cases part with
  | spacing gap => exact (TagSpan.isSkipped_spacing gap).inside
  | reference name =>
    have hpercent : TagSpan.IsSkipped (Text.ofString "%") := TagSpan.isSkipped_plain (by decide)
    have hend : TagSpan.IsSkipped (Text.ofString ";") := TagSpan.isSkipped_plain (by decide)
    exact (hpercent.append ((TagSpan.isSkipped_xmlName name).append hend)).inside
  | declaration keyword parts =>
    have hopening : TagSpan.IsSkippedInside (Text.ofString "<!") :=
      TagSpan.isSkippedInside_of_forall (by decide)
    have hclosing : TagSpan.IsSkippedInside (Text.ofString ">") :=
      TagSpan.isSkippedInside_of_forall (by decide)
    have hparts : TagSpan.IsSkippedInside (parts.flatMap DeclarationPart.render) :=
      TagSpan.isSkippedInside_flatMap fun part _ => part.isSkipped_render.inside
    exact hopening.append ((TagSpan.isSkipped_xmlName keyword).inside.append
      (hparts.append hclosing))
  | comment body _ _ => exact isSkippedInside_delimited (by decide) h (by decide)
  | instruction body _ => exact isSkippedInside_delimited (by decide) h (by decide)

end SubsetPart

namespace ExternalId

theorem isSkipped_render (e : ExternalId) : TagSpan.IsSkipped e.render := by
  cases e with
  | system gap address =>
    have hkeyword : TagSpan.IsSkipped (Text.ofString "SYSTEM") :=
      TagSpan.isSkipped_plain (by decide)
    exact (TagSpan.isSkipped_spacing gap.toSpacing).append
      (hkeyword.append (TagSpan.isSkipped_literal address))
  | publicName gap name between address =>
    have hkeyword : TagSpan.IsSkipped (Text.ofString "PUBLIC") :=
      TagSpan.isSkipped_plain (by decide)
    exact (TagSpan.isSkipped_spacing gap.toSpacing).append
      (hkeyword.append ((TagSpan.isSkipped_literal name).append
        ((TagSpan.isSkipped_spacing between.toSpacing).append (TagSpan.isSkipped_literal address))))

end ExternalId

namespace WrittenDocType

theorem isSkipped_head (d : WrittenDocType) : TagSpan.IsSkipped d.head := by
  have hkeyword : TagSpan.IsSkipped (Text.ofString "DOCTYPE") :=
    TagSpan.isSkipped_plain (by decide)
  have hexternal : TagSpan.IsSkipped ((d.externalId.map ExternalId.render).getD []) := by
    cases d.externalId with
    | none => exact TagSpan.isSkipped_nil
    | some e => exact e.isSkipped_render
  exact hkeyword.append ((TagSpan.isSkipped_spacing d.gap.toSpacing).append
    ((TagSpan.isSkipped_xmlName d.name).append
      (hexternal.append (TagSpan.isSkipped_spacing d.spacing))))

/-- **A declaration is passed over exactly when its subset settles,** whatever follows it. -/
theorem skipDeclaration_body_iff (d : WrittenDocType) :
    (∀ rest, TagSpan.skipDeclaration 0 none (d.body ++ rest) = rest) ↔ d.subsetText.Settles := by
  obtain ⟨gap, name, externalId, spacing, subset⟩ := d
  cases subset with
  | none =>
    refine iff_of_true (fun rest => ?_) Text.settles_nil
    rw [body, List.append_assoc, isSkipped_head]
    rfl
  | some subset =>
    obtain ⟨parts, after⟩ := subset
    refine Iff.trans (forall_congr' fun rest => ?_)
      (TagSpan.skipDeclaration_settles_iff after (parts.flatMap SubsetPart.render))
    have hsubset : (Text.ofString "[" ++ (parts.flatMap SubsetPart.render
          ++ CodePoint.ofChar ']' :: (after.text ++ Text.ofString ">"))) ++ rest
        = CodePoint.ofChar '[' :: (parts.flatMap SubsetPart.render
          ++ CodePoint.ofChar ']' :: (after.text ++ CodePoint.ofChar '>' :: rest)) := by
      simp [Text.ofString]
    rw [body, List.append_assoc, isSkipped_head]
    show TagSpan.skipDeclaration 0 none ((Text.ofString "[" ++ (parts.flatMap SubsetPart.render
      ++ CodePoint.ofChar ']' :: (after.text ++ Text.ofString ">"))) ++ rest) = rest ↔ _
    rw [hsubset, TagSpan.skipDeclaration_cons 0 (by decide), if_neg (by simp [CodePoint.ofChar])]
    rfl

/-- **A quiet subset settles:** one in which no comment and no instruction has a quote or a square
bracket. -/
theorem settles_of_isQuiet {d : WrittenDocType}
    (h : ∀ s ∈ d.subset, ∀ part ∈ s.1, part.isQuiet = true) : d.subsetText.Settles := by
  rw [subsetText]
  cases hsubset : d.subset with
  | none => exact Text.settles_nil
  | some s =>
    exact (TagSpan.isSkippedInside_flatMap fun part hpart =>
      SubsetPart.isSkippedInside_render (h s hsubset part hpart)).settles

/-- Where the scan meets a declaration whose subset settles, it goes on just after it. -/
theorem scanFrom_render {d : WrittenDocType} (h : d.subsetText.Settles) (total : Nat)
    (rest : Text) :
    TagSpan.scanFrom total (d.render ++ rest) = TagSpan.scanFrom total rest := by
  have hconstruct : Construct.ofText (CodePoint.ofChar '!' :: (d.body ++ rest))
      = (.declaration, d.body ++ rest) := by
    rw [body, head]
    rfl
  rw [render, List.append_assoc]
  show TagSpan.scanFrom total
    (CodePoint.ofChar '<' :: CodePoint.ofChar '!' :: (d.body ++ rest)) = _
  rw [TagSpan.scanFrom_construct, TagSpan.step, hconstruct]
  simp only [d.skipDeclaration_body_iff.mpr h rest, Option.toList_none, List.nil_append]

end WrittenDocType

end MarkupGrammar
