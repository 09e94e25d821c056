import MarkupGrammar.Proofs.Markup.DocType
import MarkupGrammar.Proofs.Markup.Offset
import Mathlib.Data.List.Pairwise
import Mathlib.Data.List.TakeWhile

/-!
# What the scan passes over

The scan of a document comes to a `<`, sees what construct it begins and passes over it at once: up
to where the construct is closed, or to the end of the text when it is not. Such a stretch of the
text may be a tag, and may be something in which tags do not count. Stretches do not overlap, every
`<` is in one, and each is begun by a `<`. So the tags of a document do not overlap either, nor do
they stand in a comment, and there are no more of them than there are `<`.

## Where a construct is closed

A comment is closed by the first `-->`, a tag by the first `>` outside quotes behind its name. In
each case it is a matter of the text behind the opening delimiter whether its last code point is the
one that closes the construct (`Construct.ClosedBy`), and the stretch ends at the first place where
it is (`Text.IsUpTo`).

## Main results

* `TagSpan.exists_step_isUpTo` — a step goes on where the construct is closed
* `Stretch.pairwise_ofText`, `Stretch.exists_of_getElem?` — stretches do not overlap, and have every
  `<`
* `TagSpan.scan_separates` — the tags of any text
-/

namespace MarkupGrammar

/-! ### First ends -/

namespace Text

/-- A text up to the first place where something is the case, or the whole of it when it never
is. -/
structure IsUpTo (p : Text → Prop) (t u : Text) : Prop where
  begins : u <+: t
  least : ∀ v, v <+: t → p v → u <+: v
  ends : p u ∨ u = t

variable {p q : Text → Prop} {c : CodePoint} {t u : Text}

theorem isUpTo_nil (p : Text → Prop) : IsUpTo p [] [] :=
  ⟨List.prefix_refl [], fun _ _ _ => List.nil_prefix, Or.inr rfl⟩

theorem IsUpTo.congr (h : IsUpTo p t u) (hpq : ∀ v, v <+: t → (p v ↔ q v)) : IsUpTo q t u :=
  ⟨h.begins, fun v hv hq => h.least v hv ((hpq v hv).mpr hq),
    h.ends.imp_left (hpq u h.begins).mp⟩

/-- The first place is behind the first code point when it is not before it. -/
theorem IsUpTo.cons (h : IsUpTo p t u) (hnil : ¬ q [])
    (hpq : ∀ v, v <+: t → (p v ↔ q (c :: v))) : IsUpTo q (c :: t) (c :: u) := by
  refine ⟨(List.prefix_cons_inj c).mpr h.begins, fun v hv hq => ?_, ?_⟩
  · cases v with
    | nil => exact absurd hq hnil
    | cons d v =>
      obtain ⟨rfl, htail⟩ := List.cons_prefix_cons.mp hv
      exact (List.prefix_cons_inj d).mpr (h.least v htail ((hpq v htail).mpr hq))
  · exact h.ends.imp (hpq u h.begins).mp (congrArg (c :: ·))

/-- A mark that does not stand at the beginning of a text ends a part of it when it ends this part
without its first code point. -/
theorem suffix_cons_iff_of_not_prefix {mark : Text} (h : ¬ mark <+: c :: t) {v : Text}
    (hv : v <+: t) : mark <:+ v ↔ mark <:+ c :: v := by
  rw [List.suffix_cons_iff]
  refine ⟨Or.inr, fun hmark => hmark.resolve_left ?_⟩
  rintro rfl
  exact h ((List.prefix_cons_inj c).mpr hv)

/-- The search for a closing delimiter ends at the first place behind one. -/
theorem exists_skipPast_isUpTo {mark : Text} (hne : mark ≠ []) (t : Text) :
    ∃ u, t = u ++ skipPast mark t ∧ IsUpTo (mark <:+ ·) t u := by
  induction t with
  | nil =>
    refine ⟨[], ?_, isUpTo_nil _⟩
    rw [skipPast, cutAt?, if_neg (by simpa using hne)]
    rfl
  | cons c r ih =>
    rw [skipPast, cutAt?]
    cases hmark : after? mark (c :: r) with
    | some rest =>
      have heq := after?_eq_some_iff.mp hmark
      refine ⟨mark, heq, ⟨⟨rest, heq.symm⟩, fun v hv hend => ?_, Or.inl (List.suffix_refl _)⟩⟩
      exact List.prefix_of_prefix_length_le ⟨rest, heq.symm⟩ hv hend.length_le
    | none =>
      have hfree : ¬ mark <+: c :: r := by
        rintro ⟨rest, hrest⟩
        have hsome : after? mark (c :: r) = some rest := after?_eq_some_iff.mpr hrest.symm
        exact absurd (hsome.symm.trans hmark) (Option.some_ne_none rest)
      obtain ⟨u, hu, hupto⟩ := ih
      refine ⟨c :: u, ?_, hupto.cons (by simpa using hne) fun v hv =>
        suffix_cons_iff_of_not_prefix hfree hv⟩
      rw [skipPast] at hu
      cases hcut : cutAt? mark r <;> rw [hcut] at hu <;> exact congrArg (c :: ·) hu

/-- Whether a text ends with a `>` that stands outside quotes, when one may be open at the
beginning, and what stands outside quotes before it is as asked. -/
def IsClosed (p : Text → Prop) (quote : Option CodePoint) (t : Text) : Prop :=
  ∃ w u, t = w ++ [CodePoint.ofChar '>'] ∧ unquoted? quote w = some u ∧ p u

theorem not_isClosed_nil (p : Text → Prop) (quote : Option CodePoint) : ¬ IsClosed p quote [] := by
  rintro ⟨w, u, heq, -⟩
  exact List.append_ne_nil_of_right_ne_nil w (List.cons_ne_nil _ _) heq.symm

/-- Whether a text is closed is decided behind its first code point, when that does not close it. -/
theorem isClosed_cons_iff {quote rest : Option CodePoint} {f : Text → Text}
    (hstep : ∀ w, unquoted? quote (c :: w) = (unquoted? rest w).map f)
    (hopen : c = CodePoint.ofChar '>' → ∀ u, unquoted? quote [] = some u → ¬ p u) (v : Text) :
    IsClosed (fun u => p (f u)) rest v ↔ IsClosed p quote (c :: v) := by
  constructor
  · rintro ⟨w, u, rfl, hu, hp⟩
    exact ⟨c :: w, f u, rfl, by rw [hstep, hu]; rfl, hp⟩
  · rintro ⟨w, u, heq, hu, hp⟩
    cases w with
    | nil => exact absurd hp (hopen (List.cons.inj heq).1 u hu)
    | cons d w =>
      obtain ⟨rfl, rfl⟩ := List.cons.inj heq
      rw [hstep] at hu
      obtain ⟨u, hrest, rfl⟩ := Option.map_eq_some_iff.mp hu
      exact ⟨w, u, rfl, hrest, hp⟩

theorem isClosed_quoted_iff (p : Text → Prop) (q c : CodePoint) (v : Text) :
    IsClosed p (if c = q then none else some q) v ↔ IsClosed p (some q) (c :: v) :=
  isClosed_cons_iff (f := id) (fun w => by rw [unquoted?, Option.map_id, id]) nofun v

theorem isClosed_quote_iff (p : Text → Prop) (hc : c.isQuote = true) (v : Text) :
    IsClosed p (some c) v ↔ IsClosed p none (c :: v) := by
  refine isClosed_cons_iff (f := id) (fun w => ?_) (fun hend => ?_) v
  · rw [unquoted?, if_pos hc, Option.map_id, id]
  · subst hend
    exact absurd hc (by decide)

theorem isClosed_unquoted_iff (hc : c.isQuote = false) (hopen : c = CodePoint.ofChar '>' → ¬ p [])
    (v : Text) : IsClosed (fun u => p (c :: u)) none v ↔ IsClosed p none (c :: v) := by
  refine isClosed_cons_iff (fun w => ?_) (fun hend u hu => ?_) v
  · rw [unquoted?, if_neg (Bool.eq_false_iff.mp hc)]
  · obtain rfl := Option.some.inj hu
    exact hopen hend

/-- A text is closed by its first code point. -/
theorem isUpTo_isClosed (hp : p []) (t : Text) :
    IsUpTo (IsClosed p none) (CodePoint.ofChar '>' :: t) [CodePoint.ofChar '>'] := by
  refine ⟨⟨t, rfl⟩, fun v hv hclosed => ?_, Or.inl ⟨[], [], rfl, rfl, hp⟩⟩
  cases v with
  | nil => exact absurd hclosed (not_isClosed_nil p none)
  | cons d v =>
    obtain ⟨rfl, -⟩ := List.cons_prefix_cons.mp hv
    exact (List.prefix_cons_inj _).mpr List.nil_prefix

end Text

namespace TagSpan

/-- The search for the end of a declaration ends at the first `>` outside quotes before which as
many square brackets are closed as are open. -/
theorem exists_skipDeclaration_isUpTo (depth : Int) (quote : Option CodePoint) (t : Text) :
    ∃ u, t = u ++ skipDeclaration depth quote t ∧
      Text.IsUpTo (Text.IsClosed (fun v => depth + Text.bracketBalance v ≤ 0) quote) t u := by
  induction t generalizing depth quote with
  | nil =>
    refine ⟨[], ?_, Text.isUpTo_nil _⟩
    cases quote <;> rfl
  | cons c r ih =>
    cases quote with
    | some q =>
      obtain ⟨u, hu, hupto⟩ := ih depth (if c = q then none else some q)
      exact ⟨c :: u, congrArg (c :: ·) hu, hupto.cons (Text.not_isClosed_nil _ _) fun v _ =>
        Text.isClosed_quoted_iff _ q c v⟩
    | none =>
      cases hc : c.isQuote with
      | true =>
        obtain ⟨u, hu, hupto⟩ := ih depth (some c)
        rw [skipDeclaration, if_pos hc]
        exact ⟨c :: u, congrArg (c :: ·) hu, hupto.cons (Text.not_isClosed_nil _ _) fun v _ =>
          Text.isClosed_quote_iff _ hc v⟩
      | false =>
        rw [skipDeclaration_cons depth hc]
        by_cases hend : c = CodePoint.ofChar '>' ∧ depth ≤ 0
        · obtain ⟨rfl, hdepth⟩ := hend
          rw [if_pos ⟨rfl, hdepth⟩]
          exact ⟨_, rfl, Text.isUpTo_isClosed (by simpa using hdepth) r⟩
        · rw [if_neg hend]
          obtain ⟨u, hu, hupto⟩ := ih (depth + Text.bracketBalance [c]) none
          refine ⟨c :: u, congrArg (c :: ·) hu,
            hupto.cons (Text.not_isClosed_nil _ _) fun v _ => ?_⟩
          have hbalance : (fun v => depth + Text.bracketBalance [c] + Text.bracketBalance v ≤ 0)
              = fun v => depth + Text.bracketBalance (c :: v) ≤ 0 := by
            funext v
            rw [Text.bracketBalance_cons c v, Int.add_assoc]
          rw [hbalance]
          exact Text.isClosed_unquoted_iff (p := fun v => depth + Text.bracketBalance v ≤ 0) hc
            (fun hgreater hdepth => hend ⟨hgreater, by simpa using hdepth⟩) v

/-- The search for the end of a tag ends at the first `>` outside quotes. -/
theorem exists_cutTag_isUpTo (quote : Option CodePoint) (t : Text) :
    ∃ u, t = u ++ (cutTag quote t).2.getD [] ∧
      Text.IsUpTo (Text.IsClosed (fun _ => True) quote) t u := by
  induction t generalizing quote with
  | nil =>
    refine ⟨[], ?_, Text.isUpTo_nil _⟩
    cases quote <;> rfl
  | cons c r ih =>
    cases quote with
    | some q =>
      obtain ⟨u, hu, hupto⟩ := ih (if c = q then none else some q)
      exact ⟨c :: u, congrArg (c :: ·) hu, hupto.cons (Text.not_isClosed_nil _ _) fun v _ =>
        Text.isClosed_quoted_iff _ q c v⟩
    | none =>
      rw [cutTag]
      by_cases hend : c = CodePoint.ofChar '>'
      · subst hend
        rw [if_pos rfl]
        exact ⟨_, rfl, Text.isUpTo_isClosed trivial r⟩
      · rw [if_neg hend]
        obtain ⟨u, hu, hupto⟩ := ih (if c.isQuote then some c else none)
        refine ⟨c :: u, congrArg (c :: ·) hu, hupto.cons (Text.not_isClosed_nil _ _) fun v _ => ?_⟩
        cases hc : c.isQuote with
        | true => exact Text.isClosed_quote_iff _ hc v
        | false => exact Text.isClosed_unquoted_iff (p := fun _ => True) hc (absurd · hend) v

end TagSpan

/-! ### Constructs -/

namespace Construct

/-- What stands between the `<` of a construct and its body. -/
def opening : Construct → Text
  | .comment => Text.ofString "!--"
  | .cdata => Text.ofString "![CDATA["
  | .instruction => Text.ofString "?"
  | .declaration => Text.ofString "!"
  | .endTag => Text.ofString "/"
  | .startTag => []
  | .stray => []

/-- Whether a construct is closed with the last code point of a text that begins its body. A `<`
that begins nothing is closed at once. -/
def ClosedBy : Construct → Text → Prop
  | .comment, t => Text.ofString "-->" <:+ t
  | .cdata, t => Text.ofString "]]>" <:+ t
  | .instruction, t => Text.ofString "?>" <:+ t
  | .declaration, t => Text.IsClosed (fun u => Text.bracketBalance u ≤ 0) none t
  | .endTag, t => Text.IsClosed (fun _ => True) none (t.dropWhile CodePoint.continuesTagName)
  | .startTag, t => Text.IsClosed (fun _ => True) none (t.dropWhile CodePoint.continuesTagName)
  | .stray, _ => True

theorem eq_opening_append (r : Text) : r = (ofText r).1.opening ++ (ofText r).2 := by
  unfold ofText
  split
  · next h => exact Text.after?_eq_some_iff.mp h
  · split
    · next h => exact Text.after?_eq_some_iff.mp h
    · split
      · rfl
      · next c body _ _ =>
        split
        · next hc => rw [hc]; rfl
        · split
          · next hc => rw [hc]; rfl
          · split
            · next hc => rw [hc]; rfl
            · split <;> rfl

end Construct

namespace TagSpan

/-- What closes a tag is searched for behind the name. -/
theorem isUpTo_of_dropWhile {p : Text → Prop} (hp : ¬ p []) {body u : Text}
    (h : Text.IsUpTo p (body.dropWhile CodePoint.continuesTagName) u) :
    Text.IsUpTo (fun t => p (t.dropWhile CodePoint.continuesTagName)) body
      (body.takeWhile CodePoint.continuesTagName ++ u) := by
  induction body with
  | nil =>
    refine h.congr fun v hv => ?_
    rw [List.prefix_nil.mp hv]
    rfl
  | cons c r ih =>
    cases hc : c.continuesTagName with
    | true =>
      rw [List.dropWhile_cons_of_pos hc] at h
      rw [List.takeWhile_cons_of_pos hc]
      refine (ih h).cons hp fun v _ => ?_
      rw [List.dropWhile_cons_of_pos hc]
    | false =>
      have hneg : ¬ c.continuesTagName = true := Bool.eq_false_iff.mp hc
      rw [List.dropWhile_cons_of_neg hneg] at h
      rw [List.takeWhile_cons_of_neg hneg, List.nil_append]
      refine h.congr fun v hv => ?_
      cases v with
      | nil => rfl
      | cons d v =>
        obtain ⟨rfl, -⟩ := List.cons_prefix_cons.mp hv
        rw [List.dropWhile_cons_of_neg hneg]

/-- A tag ends at the first `>` outside quotes behind its name. -/
theorem exists_tag_isUpTo (body : Text) :
    ∃ u, body = u ++ (cutTag none (body.dropWhile CodePoint.continuesTagName)).2.getD [] ∧
      Text.IsUpTo (fun t => Text.IsClosed (fun _ => True) none
        (t.dropWhile CodePoint.continuesTagName)) body u := by
  obtain ⟨u, hu, hupto⟩ := exists_cutTag_isUpTo none (body.dropWhile CodePoint.continuesTagName)
  refine ⟨_, ?_, isUpTo_of_dropWhile (Text.not_isClosed_nil _ _) hupto⟩
  rw [List.append_assoc, ← hu, List.takeWhile_append_dropWhile]

/-- **A step goes on where the construct is closed,** or at the end of the text. -/
theorem exists_step_isUpTo (total : Nat) (r : Text) :
    ∃ u, (Construct.ofText r).2 = u ++ (step total r).2 ∧
      Text.IsUpTo (Construct.ofText r).1.ClosedBy (Construct.ofText r).2 u := by
  unfold step
  split <;> rename_i body hconstruct <;> rw [hconstruct]
  · exact Text.exists_skipPast_isUpTo (by decide) body
  · exact Text.exists_skipPast_isUpTo (by decide) body
  · exact Text.exists_skipPast_isUpTo (by decide) body
  · obtain ⟨u, hu, hupto⟩ := exists_skipDeclaration_isUpTo 0 none body
    refine ⟨u, hu, hupto.congr fun v _ => ?_⟩
    simp only [Int.zero_add]
    rfl
  · exact exists_tag_isUpTo body
  · exact exists_tag_isUpTo body
  · exact ⟨[], rfl, List.nil_prefix, fun _ _ _ => List.nil_prefix, Or.inl trivial⟩

end TagSpan

/-! ### Stretches -/

/-- A stretch of a text that the scan passes over at once. It covers the offsets from `start`, where
its `<` stands, up to `stop`. -/
structure Stretch where
  construct : Construct
  start : Nat
  stop : Nat
  /-- The tag that it is, if it is one. -/
  tag : Option TagSpan

namespace Stretch

/-- The stretch that begins with a `<` followed by `r`. The text has length `total`. -/
def ofStep (total : Nat) (r : Text) : Stretch where
  construct := (Construct.ofText r).1
  start := total - (r.length + 1)
  stop := total - (TagSpan.step total r).2.length
  tag := (TagSpan.step total r).1

/-- The stretches in a suffix of a text of length `total`. -/
def scanFrom (total : Nat) : Text → List Stretch
  | [] => []
  | c :: r =>
    if c = CodePoint.ofChar '<' then ofStep total r :: scanFrom total (TagSpan.step total r).2
    else scanFrom total r
termination_by t => t.length
decreasing_by
  · exact Nat.lt_succ_of_le (TagSpan.length_step_le total r)
  · simp

/-- The stretches of a text, in order. -/
def ofText (t : Text) : List Stretch := scanFrom t.length t

/-- Where a stretch lies in a text. -/
structure LiesIn (text : Text) (s : Stretch) : Prop where
  /-- It begins with the `<` of its construct and ends where this is closed, or with the text. -/
  extends_to : ∃ body u, text.drop s.start = CodePoint.ofChar '<' :: (s.construct.opening ++ body) ∧
    Construct.ofText (s.construct.opening ++ body) = (s.construct, body) ∧
    Text.IsUpTo s.construct.ClosedBy body u ∧
    s.stop = s.start + 1 + s.construct.opening.length + u.length
  stop_le : s.stop ≤ text.length
  /-- Only tags are tags, and they cover what the stretch covers. -/
  tag : ∀ span ∈ s.tag, (s.construct = .startTag ∨ s.construct = .endTag) ∧
    span.start = s.start ∧ span.stop = s.stop

theorem construct_of_step {total : Nat} {r : Text} {span : TagSpan}
    (h : (TagSpan.step total r).1 = some span) :
    (Construct.ofText r).1 = .startTag ∨ (Construct.ofText r).1 = .endTag := by
  unfold TagSpan.step at h
  split at h
  · exact nomatch h
  · exact nomatch h
  · exact nomatch h
  · exact nomatch h
  · next hconstruct => exact Or.inr (congrArg Prod.fst hconstruct)
  · next hconstruct => exact Or.inl (congrArg Prod.fst hconstruct)
  · exact nomatch h

theorem ofStep_liesIn {before r text : Text} (htext : text = before ++ CodePoint.ofChar '<' :: r) :
    (ofStep text.length r).LiesIn text ∧ (ofStep text.length r).start = before.length := by
  have hlength : text.length = before.length + (r.length + 1) := by
    rw [htext, List.length_append, List.length_cons]
  have hstart : (ofStep text.length r).start = before.length := by
    show text.length - (r.length + 1) = before.length
    omega
  obtain ⟨u, hbody, hupto⟩ := TagSpan.exists_step_isUpTo text.length r
  have hopening := Construct.eq_opening_append r
  have hr : r.length = (Construct.ofText r).1.opening.length
      + (u.length + (TagSpan.step text.length r).2.length) := by
    have hparts := congrArg List.length hopening
    rwa [List.length_append, hbody, List.length_append] at hparts
  refine ⟨⟨⟨(Construct.ofText r).2, u, ?_, ?_, hupto, ?_⟩, Nat.sub_le _ _, ?_⟩, hstart⟩
  · show text.drop (ofStep text.length r).start = CodePoint.ofChar '<'
      :: ((Construct.ofText r).1.opening ++ (Construct.ofText r).2)
    rw [← hopening, hstart, htext, List.drop_left]
  · show Construct.ofText ((Construct.ofText r).1.opening ++ (Construct.ofText r).2)
      = Construct.ofText r
    rw [← hopening]
  · rw [hstart]
    show text.length - (TagSpan.step text.length r).2.length
      = before.length + 1 + (Construct.ofText r).1.opening.length + u.length
    omega
  · intro span hspan
    obtain ⟨-, hspanStart, hspanStop⟩ := TagSpan.step_liesIn htext hspan
    exact ⟨construct_of_step hspan, hspanStart.trans hstart.symm, hspanStop⟩

theorem scanFrom_construct (total : Nat) (r : Text) :
    scanFrom total (CodePoint.ofChar '<' :: r)
      = ofStep total r :: scanFrom total (TagSpan.step total r).2 := by
  rw [scanFrom, if_pos rfl]

/-- What a step passes over, and where the scan goes on in the text. -/
theorem exists_passed {before r text : Text} (htext : text = before ++ CodePoint.ofChar '<' :: r) :
    ∃ passed, text = passed ++ (TagSpan.step text.length r).2 ∧
      passed.length = (ofStep text.length r).stop ∧ before.length < passed.length := by
  obtain ⟨cut, hcut⟩ := TagSpan.step_suffix text.length r
  have hrest : text
      = (before ++ CodePoint.ofChar '<' :: cut) ++ (TagSpan.step text.length r).2 := by
    rw [List.append_assoc, List.cons_append, hcut]
    exact htext
  refine ⟨_, hrest, ?_, ?_⟩
  · have hlength := congrArg List.length hrest
    rw [List.length_append] at hlength
    show _ = text.length - (TagSpan.step text.length r).2.length
    omega
  · rw [List.length_append, List.length_cons]
    omega

/-- The tags are the stretches that are tags. -/
theorem filterMap_tag_scanFrom (total : Nat) (r : Text) :
    (scanFrom total r).filterMap tag = TagSpan.scanFrom total r := by
  induction r using scanFrom.induct total with
  | case1 =>
    rw [scanFrom, TagSpan.scanFrom]
    rfl
  | case2 r ih =>
    rw [scanFrom_construct, TagSpan.scanFrom_construct, ← ih, List.filterMap_cons, ofStep]
    cases (TagSpan.step total r).1 <;> rfl
  | case3 c r hc ih => rw [scanFrom, if_neg hc, TagSpan.scanFrom, if_neg hc, ih]

/-- The stretches in what is left of a text lie in the text: not before what is left, and none
before the end of the one before it. -/
theorem scanFrom_liesIn {before r text : Text} (htext : text = before ++ r) :
    (∀ s ∈ scanFrom text.length r, s.LiesIn text ∧ before.length ≤ s.start) ∧
      (scanFrom text.length r).Pairwise fun a b => a.stop ≤ b.start := by
  -- by the recursion of the scan, which goes on after a construct where the step says
  induction r using scanFrom.induct text.length generalizing before with
  | case1 =>
    rw [scanFrom]
    exact ⟨List.forall_mem_nil _, .nil⟩
  | case2 r ih =>
    obtain ⟨passed, hrest, hstop, hlt⟩ := exists_passed htext
    obtain ⟨hlies, hpairwise⟩ := ih hrest
    obtain ⟨hfirst, hstart⟩ := ofStep_liesIn htext
    rw [scanFrom_construct]
    refine ⟨List.forall_mem_cons.mpr ⟨⟨hfirst, Nat.le_of_eq hstart.symm⟩, fun s hs => ?_⟩,
      List.pairwise_cons.mpr ⟨fun s hs => ?_, hpairwise⟩⟩
    · exact ⟨(hlies s hs).1, Nat.le_trans (Nat.le_of_lt hlt) (hlies s hs).2⟩
    · exact hstop ▸ (hlies s hs).2
  | case3 c r hc ih =>
    have hrest : text = (before ++ [c]) ++ r := by rw [htext, List.append_assoc]; rfl
    obtain ⟨hlies, hpairwise⟩ := ih hrest
    rw [scanFrom, if_neg hc]
    refine ⟨fun s hs => ⟨(hlies s hs).1, Nat.le_trans ?_ (hlies s hs).2⟩, hpairwise⟩
    rw [List.length_append]
    exact Nat.le_add_right _ _

/-- Every `<` in what is left of a text is in a stretch. -/
theorem exists_of_getElem?_scanFrom {before r text : Text} (htext : text = before ++ r) {i : Nat}
    (hle : before.length ≤ i) (hi : text[i]? = some (CodePoint.ofChar '<')) :
    ∃ s ∈ scanFrom text.length r, s.start ≤ i ∧ i < s.stop := by
  induction r using scanFrom.induct text.length generalizing before with
  | case1 =>
    rw [List.append_nil] at htext
    exact nomatch (List.getElem?_eq_none (htext ▸ hle)).symm.trans hi
  | case2 r ih =>
    obtain ⟨passed, hrest, hstop, -⟩ := exists_passed htext
    rw [scanFrom_construct]
    by_cases hlt : i < (ofStep text.length r).stop
    · exact ⟨_, List.mem_cons_self, (ofStep_liesIn htext).2 ▸ hle, hlt⟩
    · obtain ⟨s, hs, hcovers⟩ := ih hrest (hstop ▸ Nat.le_of_not_lt hlt)
      exact ⟨s, List.mem_cons_of_mem _ hs, hcovers⟩
  | case3 c r hc ih =>
    have hrest : text = (before ++ [c]) ++ r := by rw [htext, List.append_assoc]; rfl
    rw [scanFrom, if_neg hc]
    refine ih hrest ?_
    rw [List.length_append, List.length_singleton]
    refine Nat.lt_of_le_of_ne hle ?_
    rintro rfl
    rw [htext, List.getElem?_append_right (Nat.le_refl _), Nat.sub_self] at hi
    exact hc (Option.some.inj hi)

/-- There are no more stretches than there are `<`. -/
theorem length_scanFrom_le (total : Nat) (r : Text) :
    (scanFrom total r).length ≤ r.count (CodePoint.ofChar '<') := by
  induction r using scanFrom.induct total with
  | case1 =>
    rw [scanFrom]
    exact Nat.le_refl 0
  | case2 r ih =>
    rw [scanFrom_construct, List.length_cons, List.count_cons_self]
    exact Nat.succ_le_succ (Nat.le_trans ih ((TagSpan.step_suffix total r).sublist.count_le _))
  | case3 c r hc ih =>
    rw [scanFrom, if_neg hc, List.count_cons_of_ne hc]
    exact ih

variable {text : Text} {s : Stretch}

theorem filterMap_tag_ofText (text : Text) : (ofText text).filterMap tag = TagSpan.scan text :=
  filterMap_tag_scanFrom text.length text

/-- **Where the stretches of a text lie.** -/
theorem liesIn_of_mem_ofText (h : s ∈ ofText text) : s.LiesIn text :=
  ((scanFrom_liesIn (List.nil_append text).symm).1 s h).1

/-- **Stretches do not overlap.** -/
theorem pairwise_ofText (text : Text) : (ofText text).Pairwise fun a b => a.stop ≤ b.start :=
  (scanFrom_liesIn (List.nil_append text).symm).2

/-- **Every `<` of a text is in a stretch.** -/
theorem exists_of_getElem? {i : Nat} (hi : text[i]? = some (CodePoint.ofChar '<')) :
    ∃ s ∈ ofText text, s.start ≤ i ∧ i < s.stop :=
  exists_of_getElem?_scanFrom (List.nil_append text).symm (Nat.zero_le i) hi

end Stretch

/-! ### The tags of any text -/

namespace TagSpan

/-- The name of a tag has no white space, no slash and no `>`. -/
theorem continuesTagName_of_mem_name {text : Text} {span : TagSpan} (h : span ∈ scan text) :
    ∀ c ∈ span.name, c.continuesTagName = true := by
  obtain ⟨-, rest, -, -, hstep⟩ := exists_step_of_mem_scan h
  unfold step at hstep
  split at hstep
  · exact nomatch hstep
  · exact nomatch hstep
  · exact nomatch hstep
  · exact nomatch hstep
  · unfold endTag at hstep
    simp only at hstep
    split at hstep
    · exact nomatch hstep
    · obtain rfl := Option.some.inj hstep
      exact fun c hc => List.mem_takeWhile_imp hc
  · obtain rfl := Option.some.inj hstep
    exact fun c hc => List.mem_takeWhile_imp hc
  · exact nomatch hstep

/-- How the tags of a text stand in it, among the stretches that the scan passes over. -/
structure Separates (text : Text) (ss : List Stretch) (spans : List TagSpan) : Prop where
  /-- The search by offsets comes to an end, and these are the tags that it finds. -/
  found : Checked.tagsFrom (LineIndex.ofText text) text 0
    = .ok (spans.map (locate (LineIndex.ofText text)))
  /-- The tags are the stretches that are tags. -/
  tags : ss.filterMap Stretch.tag = spans
  /-- A stretch extends from the `<` of its construct to where this is closed. -/
  stretches : ∀ s ∈ ss, s.LiesIn text
  /-- Stretches do not overlap. -/
  apart : ss.Pairwise fun a b => a.stop ≤ b.start
  /-- Every `<` is in one. -/
  covered : ∀ i, text[i]? = some (CodePoint.ofChar '<') → ∃ s ∈ ss, s.start ≤ i ∧ i < s.stop
  /-- Tags begin one after the other, each at a `<`. -/
  increasing : spans.Pairwise fun a b => a.start < b.start
  bracket : ∀ span ∈ spans, text[span.start]? = some (CodePoint.ofChar '<')
  /-- Tags do not overlap. -/
  tags_apart : spans.Pairwise fun a b => a.stop ≤ b.start
  /-- No tag overlaps what is passed over and is none. -/
  passed_apart : ∀ span ∈ spans, ∀ s ∈ ss, s.tag = none → span.stop ≤ s.start ∨ s.stop ≤ span.start
  /-- There are no more tags than there are `<`. -/
  length_le : spans.length ≤ text.count (CodePoint.ofChar '<')
  /-- The name of a tag is not empty and has no white space, no slash and no `>`. -/
  name : ∀ span ∈ spans, span.name ≠ [] ∧ ∀ c ∈ span.name,
    c.isMarkupSpace = false ∧ c ≠ CodePoint.ofChar '/' ∧ c ≠ CodePoint.ofChar '>'
  /-- The attribute text of a tag stands at its offset. -/
  attrText : ∀ span ∈ spans, span.attrText <+: text.drop span.attrStart

/-- **The tags of any text are separate.** -/
theorem scan_separates (text : Text) : Separates text (Stretch.ofText text) (scan text) where
  found := Checked.tagsFrom_zero text
  tags := Stretch.filterMap_tag_ofText text
  stretches _ hs := Stretch.liesIn_of_mem_ofText hs
  apart := Stretch.pairwise_ofText text
  covered _ hi := Stretch.exists_of_getElem? hi
  increasing := (pairwise_scan text).imp_of_mem fun ha _ hab => by
    have hlt := (liesIn_of_mem_scan ha).name_lt_stop
    omega
  bracket span hspan := by
    obtain ⟨passed, rest, htext, hlength, -⟩ := exists_step_of_mem_scan hspan
    rw [← hlength, htext, List.getElem?_append_right (Nat.le_refl _), Nat.sub_self]
    rfl
  tags_apart := pairwise_scan text
  passed_apart span hspan s hs hnone := by
    rw [← Stretch.filterMap_tag_ofText] at hspan
    obtain ⟨a, ha, htag⟩ := List.mem_filterMap.mp hspan
    obtain ⟨-, hstart, hstop⟩ := (Stretch.liesIn_of_mem_ofText ha).tag span htag
    have hne : a ≠ s := by
      rintro rfl
      exact nomatch hnone.symm.trans htag
    have hsymm : Std.Symm fun a b : Stretch => a.stop ≤ b.start ∨ b.stop ≤ a.start :=
      ⟨fun _ _ => Or.symm⟩
    have hapart : (Stretch.ofText text).Pairwise fun a b =>
        a.stop ≤ b.start ∨ b.stop ≤ a.start := (Stretch.pairwise_ofText text).imp Or.inl
    rw [hstart, hstop]
    exact hapart.forall ha hs hne
  length_le := by
    rw [← Stretch.filterMap_tag_ofText]
    exact Nat.le_trans (List.length_filterMap_le _ _) (Stretch.length_scanFrom_le _ text)
  name span hspan := by
    refine ⟨(liesIn_of_mem_scan hspan).name_ne_nil, fun c hc => ?_⟩
    have hname := continuesTagName_of_mem_name hspan c hc
    refine ⟨?_, ?_, ?_⟩
    · cases hspace : c.isMarkupSpace with
      | false => rfl
      | true => simp [CodePoint.continuesTagName, hspace] at hname
    · rintro rfl
      exact absurd hname (by decide)
    · rintro rfl
      exact absurd hname (by decide)
  attrText span hspan := by
    rcases (liesIn_of_mem_scan hspan).attributes with hnil | ⟨-, hattrs, -⟩
    · rw [hnil]
      exact List.nil_prefix
    · exact hattrs

/-- A tag in a comment does not count, a `<` before a digit begins nothing, and a tag that is not
closed goes to the end of the text. -/
example : (Stretch.ofText (Text.ofString "<!--<a>-->1<2<b c='>'")).map
      (fun s => (s.construct, s.start, s.stop))
    = [(.comment, 0, 10), (.stray, 11, 12), (.startTag, 13, 21)] := by
  cbv

end TagSpan

end MarkupGrammar
