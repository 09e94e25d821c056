import MarkupGrammar.Proofs.Markup.Extent
import MarkupGrammar.Proofs.Reading

/-!
# Reading by offsets

A scanner whose place in a text is what is left of the text cannot read beyond its end. One that
keeps an offset can: each code point that it looks at and each piece that it cuts out has to be
there. In this module tags and attributes are read by offsets, and every such access is checked. A
read that goes wrong anywhere goes wrong as a whole, and so does one that does not move on.

None does, whatever the text. What is read from an offset is what the other scanner makes of the
text that is left there.

## Main results

* `entryAt_eq_ok_iff` — an access goes right where there is an entry, and only there
* `locateAt_eq` — the line of a place is always there
* `attributesFrom_eq`, `tagsFrom_eq` — attributes and tags are read by offsets as they are otherwise
-/

namespace MarkupGrammar

/-- What may go wrong where a place is taken for granted. -/
inductive Misstep where
  /-- An entry or a piece of a list that is not there. -/
  | outOfRange
  /-- A search that finds nothing where there has to be something. -/
  | notFound
  /-- A loop that does not move on. -/
  | stuck
  /-- A message that would have to list something that is no text. -/
  | unworded

/-- A computation that may go wrong. -/
abbrev Checked (α : Type) := Except Misstep α

namespace Checked

variable {α : Type}

/-! ### Access -/

/-- The entry of a list at an index, which has to be that of one. -/
def entryAt (xs : List α) (i : Int) : Checked α :=
  match i with
  | .ofNat n =>
    match xs[n]? with
    | some x => .ok x
    | none => .error .outOfRange
  | .negSucc _ => .error .outOfRange

/-- The piece of a list between two offsets, which have to be in order and not behind the end. -/
def slice (xs : List α) (first last : Nat) : Checked (List α) :=
  if first ≤ last ∧ last ≤ xs.length then .ok ((xs.drop first).take (last - first))
  else .error .outOfRange

/-- **An access goes right where there is an entry,** and only there. -/
theorem entryAt_eq_ok_iff {xs : List α} {i : Int} {x : α} :
    entryAt xs i = .ok x ↔ 0 ≤ i ∧ xs[i.toNat]? = some x := by
  cases i with
  | negSucc n => exact iff_of_false (by simp [entryAt]) (by omega)
  | ofNat n =>
    show (match xs[n]? with
      | some x => (.ok x : Checked α)
      | none => .error .outOfRange) = .ok x ↔ 0 ≤ (n : Int) ∧ xs[n]? = some x
    cases xs[n]? <;> simp

theorem entryAt_of_getElem? {xs : List α} {i : Nat} {x : α} (h : xs[i]? = some x) :
    entryAt xs i = .ok x :=
  entryAt_eq_ok_iff.mpr ⟨Int.natCast_nonneg i, h⟩

theorem entryAt_of_drop {xs rest : List α} {i : Nat} {x : α} (h : xs.drop i = x :: rest) :
    entryAt xs i = .ok x := by
  refine entryAt_of_getElem? ?_
  rw [← Nat.add_zero i, ← List.getElem?_drop, h]
  rfl

/-- A piece that stands at an offset is cut out there. -/
theorem slice_of_prefix {xs piece : List α} {i : Nat} (hi : i ≤ xs.length)
    (h : piece <+: xs.drop i) : slice xs i (i + piece.length) = .ok piece := by
  have hlength := h.length_le
  rw [List.length_drop] at hlength
  rw [slice, if_pos ⟨Nat.le_add_right i _, by omega⟩, Nat.add_sub_cancel_left]
  exact congrArg Except.ok (List.prefix_iff_eq_take.mp h).symm

theorem drop_add_length {xs piece rest : List α} {i : Nat} (h : xs.drop i = piece ++ rest) :
    xs.drop (i + piece.length) = rest := by
  rw [← List.drop_drop, h, List.drop_left]

theorem drop_succ_of_drop {xs rest : List α} {i : Nat} {x : α} (h : xs.drop i = x :: rest) :
    xs.drop (i + 1) = rest := by
  rw [← List.drop_drop, h]
  rfl

theorem lt_length_of_drop {xs rest : List α} {i : Nat} {x : α} (h : xs.drop i = x :: rest) :
    i < xs.length := by
  refine Nat.lt_of_not_le fun hle => ?_
  rw [List.drop_eq_nil_of_le hle] at h
  exact nomatch h

/-- Induction on what is left of a list at an offset. -/
theorem offset_induction (xs : List α) {motive : Nat → Prop}
    (behind : ∀ i, xs.length ≤ i → motive i)
    (step : ∀ i x, xs.drop i = x :: xs.drop (i + 1) → motive (i + 1) → motive i) (i : Nat) :
    motive i := by
  induction hn : xs.length - i generalizing i with
  | zero => exact behind i (by omega)
  | succ n ih =>
    have hi : i < xs.length := by omega
    exact step i xs[i] (List.drop_eq_getElem_cons hi) (ih (i + 1) (by omega))

/-! ### Runs -/

/-- The end of the run of code points of some kind that begins at an offset. -/
def runEnd (p : CodePoint → Bool) (t : Text) (i : Nat) : Checked Nat :=
  if i < t.length then do
    let c ← entryAt t i
    if p c then runEnd p t (i + 1) else return i
  else return i
termination_by t.length - i

theorem runEnd_eq (p : CodePoint → Bool) (t : Text) (i : Nat) :
    runEnd p t i = .ok (i + ((t.drop i).takeWhile p).length) := by
  induction i using offset_induction t with
  | behind i hi =>
    rw [runEnd, if_neg (Nat.not_lt.mpr hi), List.drop_eq_nil_of_le hi]
    rfl
  | step i c hdrop ih =>
    rw [runEnd, if_pos (lt_length_of_drop hdrop), entryAt_of_drop hdrop, ok_bind, hdrop,
      List.takeWhile_cons]
    split
    · rw [ih, List.length_cons, Nat.add_right_comm]
      rfl
    · rfl

/-- A run is cut out between its two ends, and what follows it is left. -/
theorem exists_runEnd (p : CodePoint → Bool) {t : Text} {i : Nat} (hi : i ≤ t.length) :
    ∃ last, runEnd p t i = .ok last ∧ i ≤ last ∧ last ≤ t.length ∧
      slice t i last = .ok ((t.drop i).takeWhile p) ∧ t.drop last = (t.drop i).dropWhile p := by
  have hprefix : (t.drop i).takeWhile p <+: t.drop i := List.takeWhile_prefix p
  have hlength := hprefix.length_le
  rw [List.length_drop] at hlength
  refine ⟨_, runEnd_eq p t i, Nat.le_add_right i _, by omega, slice_of_prefix hi hprefix, ?_⟩
  exact drop_add_length List.takeWhile_append_dropWhile.symm

/-- Whether a code point of some kind stands at an offset. -/
def holdsAt (p : CodePoint → Bool) (t : Text) (i : Nat) : Checked Bool :=
  if i < t.length then do
    let c ← entryAt t i
    return p c
  else return false

theorem holdsAt_of_drop {p : CodePoint → Bool} {t rest : Text} {i : Nat} {c : CodePoint}
    (h : t.drop i = c :: rest) : holdsAt p t i = .ok (p c) := by
  rw [holdsAt, if_pos (lt_length_of_drop h), entryAt_of_drop h]
  rfl

theorem holdsAt_of_drop_eq_nil {p : CodePoint → Bool} {t : Text} {i : Nat} (h : t.drop i = []) :
    holdsAt p t i = .ok false := by
  rw [holdsAt, if_neg (Nat.not_lt.mpr (List.drop_eq_nil_iff.mp h))]
  rfl

/-! ### Searches -/

/-- The offset of the first occurrence of a mark. -/
def offsetOf? (mark : Text) : Text → Option Nat
  | [] => if mark.isEmpty then some 0 else none
  | c :: r => if Text.startsWith mark (c :: r) then some 0 else (offsetOf? mark r).map (· + 1)

/-- The offset of the first occurrence of a mark from an offset on. -/
def findFrom (mark t : Text) (i : Nat) : Option Nat := (offsetOf? mark (t.drop i)).map (i + ·)

/-- Whether a mark stands at an offset. -/
def standsAt (mark t : Text) (i : Nat) : Bool := Text.startsWith mark (t.drop i)

/-- The offset behind the first occurrence of a mark from an offset on; the end when it does not
occur. -/
def skipPastFrom (mark t : Text) (i : Nat) : Nat :=
  match findFrom mark t i with
  | some found => found + mark.length
  | none => t.length

theorem after?_eq (mark t : Text) :
    Text.after? mark t = if Text.startsWith mark t then some (t.drop mark.length) else none := by
  have hstarts : Text.startsWith mark t = true ↔ mark <+: t := List.isPrefixOf_iff_prefix
  split
  · next h =>
    obtain ⟨rest, rfl⟩ := hstarts.mp h
    rw [List.drop_left]
    exact Text.after?_eq_some_iff.mpr rfl
  · next h =>
    refine Option.eq_none_iff_forall_ne_some.mpr fun rest hrest => h (hstarts.mpr ?_)
    rw [Text.after?_eq_some_iff.mp hrest]
    exact List.prefix_append mark rest

theorem skipPast_eq (mark t : Text) :
    Text.skipPast mark t
      = match offsetOf? mark t with
        | some found => t.drop (found + mark.length)
        | none => [] := by
  induction t with
  | nil =>
    rw [Text.skipPast, Text.cutAt?, offsetOf?]
    cases mark.isEmpty with
    | true => exact List.drop_nil.symm
    | false => rfl
  | cons c r ih =>
    rw [Text.skipPast, Text.cutAt?, offsetOf?, after?_eq]
    rw [Text.skipPast] at ih
    cases Text.startsWith mark (c :: r) with
    | true => simp
    | false =>
      simp only [Bool.false_eq_true, if_false]
      cases hcut : Text.cutAt? mark r <;> cases hoffset : offsetOf? mark r <;>
        rw [hcut, hoffset] at ih
      · rfl
      · simp only [Option.map_none, Option.map_some]
        rw [Nat.add_right_comm, List.drop_succ_cons]
        exact ih
      · simpa using ih
      · simp only [Option.map_some]
        rw [Nat.add_right_comm, List.drop_succ_cons]
        exact ih

theorem drop_skipPastFrom (mark t : Text) (i : Nat) :
    t.drop (skipPastFrom mark t i) = Text.skipPast mark (t.drop i) := by
  rw [skipPast_eq, skipPastFrom, findFrom]
  cases offsetOf? mark (t.drop i) with
  | none => exact List.drop_eq_nil_of_le (Nat.le_refl _)
  | some found => simp [List.drop_drop, Nat.add_assoc]

theorem le_skipPastFrom {mark t : Text} {i : Nat} (hi : i ≤ t.length) :
    i ≤ skipPastFrom mark t i := by
  rw [skipPastFrom, findFrom]
  cases offsetOf? mark (t.drop i) with
  | none => exact hi
  | some found =>
    simp only [Option.map_some]
    omega

/-- A quoted value ends at the first of its quotes, or at the end of the text. -/
theorem findFrom_singleton (q : CodePoint) {t : Text} {i : Nat} (hi : i ≤ t.length) :
    (findFrom [q] t i).getD t.length = i + ((t.drop i).takeWhile (· != q)).length := by
  have hlist : ∀ r : Text, (offsetOf? [q] r).getD r.length = (r.takeWhile (· != q)).length := by
    intro r
    induction r with
    | nil => rfl
    | cons c r ih =>
      by_cases hc : c = q
      · simp [offsetOf?, Text.startsWith, hc]
      · have hne : (q == c) = false := by simpa using Ne.symm hc
        rw [List.takeWhile_cons_of_pos (by simpa using hc), List.length_cons,
          List.length_cons, ← ih]
        simp only [offsetOf?, Text.startsWith, List.isPrefixOf, hne, Bool.false_and]
        cases offsetOf? [q] r <;> rfl
  have hrest := hlist (t.drop i)
  rw [← hrest, findFrom]
  cases offsetOf? [q] (t.drop i) with
  | none =>
    rw [Option.map_none, Option.getD_none, Option.getD_none, List.length_drop]
    omega
  | some found => rfl

/-! ### The ends of declarations and tags -/

/-- The offset behind a declaration that is read on from an offset. -/
def skipDeclarationFrom (t : Text) (depth : Int) (quote : Option CodePoint) (i : Nat) :
    Checked Nat :=
  if i < t.length then do
    let c ← entryAt t i
    match quote with
    | some q => skipDeclarationFrom t depth (if c = q then none else some q) (i + 1)
    | none =>
      if c.isQuote then skipDeclarationFrom t depth (some c) (i + 1)
      else if c = CodePoint.ofChar '[' then skipDeclarationFrom t (depth + 1) none (i + 1)
      else if c = CodePoint.ofChar ']' then skipDeclarationFrom t (depth - 1) none (i + 1)
      else if c = CodePoint.ofChar '>' && depth ≤ 0 then return i + 1
      else skipDeclarationFrom t depth none (i + 1)
  else return t.length
termination_by t.length - i

theorem exists_skipDeclarationFrom {t : Text} (depth : Int) (quote : Option CodePoint) {i : Nat}
    (hi : i ≤ t.length) :
    ∃ next, skipDeclarationFrom t depth quote i = .ok next ∧ i ≤ next ∧
      t.drop next = TagSpan.skipDeclaration depth quote (t.drop i) := by
  induction i using offset_induction t generalizing depth quote with
  | behind i hend =>
    rw [skipDeclarationFrom, if_neg (Nat.not_lt.mpr hend), List.drop_eq_nil_of_le hend,
      TagSpan.skipDeclaration]
    exact ⟨t.length, rfl, hi, List.drop_length⟩
  | step i c hdrop ih =>
    have hlt := lt_length_of_drop hdrop
    have hon : ∀ depth quote, ∃ next, skipDeclarationFrom t depth quote (i + 1) = .ok next ∧
        i ≤ next ∧ t.drop next = TagSpan.skipDeclaration depth quote (t.drop (i + 1)) := by
      intro depth quote
      obtain ⟨next, hnext, hle, hrest⟩ := ih depth quote hlt
      exact ⟨next, hnext, Nat.le_of_succ_le hle, hrest⟩
    rw [skipDeclarationFrom, if_pos hlt, entryAt_of_drop hdrop, ok_bind, hdrop]
    cases quote with
    | some q =>
      rw [TagSpan.skipDeclaration]
      exact hon depth _
    | none =>
      rw [TagSpan.skipDeclaration]
      simp only
      split
      · exact hon depth _
      · split
        · exact hon (depth + 1) none
        · split
          · exact hon (depth - 1) none
          · split
            · exact ⟨i + 1, rfl, Nat.le_succ i, rfl⟩
            · exact hon depth none

/-- The offset of the `>` that ends a tag which is read on from an offset, if there is one. -/
def tagEndFrom (t : Text) (quote : Option CodePoint) (i : Nat) : Checked (Option Nat) :=
  if i < t.length then do
    let c ← entryAt t i
    match quote with
    | some q => tagEndFrom t (if c = q then none else some q) (i + 1)
    | none =>
      if c.isQuote then tagEndFrom t (some c) (i + 1)
      else if c = CodePoint.ofChar '>' then return some i
      else tagEndFrom t none (i + 1)
  else return none
termination_by t.length - i

theorem tagEndFrom_eq (t : Text) (quote : Option CodePoint) (i : Nat) :
    tagEndFrom t quote i = .ok ((TagSpan.cutTag quote (t.drop i)).2.map fun _ =>
      i + (TagSpan.cutTag quote (t.drop i)).1.length) := by
  induction i using offset_induction t generalizing quote with
  | behind i hend =>
    rw [tagEndFrom, if_neg (Nat.not_lt.mpr hend), List.drop_eq_nil_of_le hend]
    cases quote <;> rfl
  | step i c hdrop ih =>
    have hon : ∀ quote, tagEndFrom t quote (i + 1)
        = .ok ((TagSpan.cutTag quote (t.drop (i + 1))).2.map fun _ =>
          i + ((TagSpan.cutTag quote (t.drop (i + 1))).1.length + 1)) := by
      intro quote
      rw [ih quote, Nat.add_right_comm]
      rfl
    rw [tagEndFrom, if_pos (lt_length_of_drop hdrop), entryAt_of_drop hdrop, ok_bind, hdrop]
    cases quote with
    | some q =>
      rw [TagSpan.cutTag]
      exact hon _
    | none =>
      rw [TagSpan.cutTag]
      simp only
      by_cases hend : c = CodePoint.ofChar '>'
      · rw [if_pos hend, if_pos hend, if_neg (by rw [hend]; decide)]
        rfl
      · rw [if_neg hend, if_neg hend]
        split
        · exact hon _
        · exact hon none

/-! ### Places -/

/-- The position of an offset: the line is the number of lines that start there or before, and the
start of that line has to be there. -/
def locateAt (index : LineIndex) (offset : Nat) : Checked Position := do
  let line := (index.starts.takeWhile fun start => start ≤ offset).length
  let start ← entryAt index.starts ((line : Int) - 1)
  return ⟨line, (offset : Int) - start + 1⟩

/-- **The line of a place is always there:** the first line starts at zero. -/
theorem locateAt_eq (t : Text) (offset : Nat) :
    locateAt (LineIndex.ofText t) offset = .ok ((LineIndex.ofText t).locate offset) := by
  have hreached : ((LineIndex.ofText t).starts.takeWhile fun (start : Nat) =>
        decide ((start : Int) ≤ (offset : Int)))
      = (LineIndex.ofText t).starts.takeWhile fun start => decide (start ≤ offset) := by
    congr 1
    funext start
    exact decide_eq_decide.mpr Int.ofNat_le
  have hfirst : ((LineIndex.ofText t).starts.takeWhile fun start => decide (start ≤ offset))
      = 0 :: (LineIndex.startsAfter 0 t).takeWhile fun start => decide (start ≤ offset) :=
    List.takeWhile_cons_of_pos (by simp)
  have hprefix : ((LineIndex.ofText t).starts.takeWhile fun start => decide (start ≤ offset))
      <+: (LineIndex.ofText t).starts := List.takeWhile_prefix _
  rw [locateAt, LineIndex.locate, hreached]
  rw [hfirst] at hprefix ⊢
  generalize (LineIndex.startsAfter 0 t).takeWhile _ = later at hprefix
  obtain ⟨behind, hbehind⟩ := hprefix
  have hlast : (LineIndex.ofText t).starts[later.length]? = some ((0 :: later).getLastD 0) := by
    rw [← hbehind, List.getElem?_append_left (by simp)]
    simp [List.getLastD_eq_getLast?, List.getLast?_eq_getElem?]
  have hindex : (((0 :: later).length : Nat) : Int) - 1 = (later.length : Nat) := by
    rw [List.length_cons]
    omega
  simp only [hindex]
  rw [entryAt_of_getElem? hlast, ok_bind]
  simp
  rfl

/-! ### Attributes -/

/-- The value that is read on from behind an equals sign, and the offset behind it. -/
def valueFrom (t : Text) (i : Nat) : Checked (Text × Nat) := do
  let first ← runEnd CodePoint.isMarkupSpace t i
  if ← holdsAt CodePoint.isQuote t first then
    let q ← entryAt t first
    let closing := (findFrom [q] t (first + 1)).getD t.length
    let value ← slice t (first + 1) closing
    return (value, closing + 1)
  else
    let last ← runEnd (fun c => !c.isMarkupSpace) t first
    let value ← slice t first last
    return (value, last)

theorem exists_valueFrom {t : Text} {i : Nat} (hi : i ≤ t.length) :
    ∃ next, valueFrom t i = .ok ((AttributeSpan.valueAfterEquals (t.drop i)).1, next) ∧ i ≤ next ∧
      t.drop next = (AttributeSpan.valueAfterEquals (t.drop i)).2 := by
  obtain ⟨first, hfirst, hle, hend, -, hrest⟩ := exists_runEnd CodePoint.isMarkupSpace hi
  obtain ⟨last, hlast, hle', -, hslice, hrest'⟩ :=
    exists_runEnd (fun c => !c.isMarkupSpace) hend
  rw [valueFrom, hfirst, ok_bind, AttributeSpan.valueAfterEquals, ← hrest]
  cases hdrop : t.drop first with
  | nil =>
    rw [hdrop] at hslice hrest'
    rw [holdsAt_of_drop_eq_nil hdrop, ok_bind, if_neg Bool.false_ne_true, hlast, ok_bind, hslice,
      ok_bind]
    exact ⟨last, rfl, Nat.le_trans hle hle', hrest'⟩
  | cons q r =>
    rw [holdsAt_of_drop hdrop, ok_bind]
    simp only
    by_cases hquote : q.isQuote = true
    · have hbehind : t.drop (first + 1) = r := drop_succ_of_drop hdrop
      have hlt := lt_length_of_drop hdrop
      have hprefix : r.takeWhile (· != q) <+: t.drop (first + 1) := by
        rw [hbehind]
        exact List.takeWhile_prefix _
      have hclosing : t.drop (first + 1 + (r.takeWhile (· != q)).length) = r.dropWhile (· != q) := by
        refine drop_add_length ?_
        rw [hbehind, List.takeWhile_append_dropWhile]
      rw [if_pos hquote, if_pos hquote, entryAt_of_drop hdrop, ok_bind, findFrom_singleton q hlt,
        hbehind, slice_of_prefix hlt hprefix, ok_bind]
      refine ⟨_, rfl, by omega, ?_⟩
      rw [← List.drop_drop, hclosing]
    · rw [hdrop] at hslice hrest'
      rw [if_neg hquote, if_neg hquote, hlast, ok_bind, hslice, ok_bind]
      exact ⟨last, rfl, Nat.le_trans hle hle', hrest'⟩

/-- The value that is read on from behind a name, if an equals sign follows it, and the offset
behind it. -/
def assignedFrom (t : Text) (i : Nat) : Checked (Option Text × Nat) := do
  let first ← runEnd CodePoint.isMarkupSpace t i
  if ← holdsAt (· = CodePoint.ofChar '=') t first then
    let (value, next) ← valueFrom t (first + 1)
    return (some value, next)
  else return (none, first)

theorem exists_assignedFrom {t : Text} {i : Nat} (hi : i ≤ t.length) :
    ∃ next, assignedFrom t i = .ok ((AttributeSpan.valueAfterName (t.drop i)).1, next) ∧
      i ≤ next ∧ t.drop next = (AttributeSpan.valueAfterName (t.drop i)).2 := by
  obtain ⟨first, hfirst, hle, hend, -, hrest⟩ := exists_runEnd CodePoint.isMarkupSpace hi
  rw [assignedFrom, hfirst, ok_bind, AttributeSpan.valueAfterName, ← hrest]
  cases hdrop : t.drop first with
  | nil =>
    rw [holdsAt_of_drop_eq_nil hdrop, ok_bind, if_neg Bool.false_ne_true]
    exact ⟨first, rfl, hle, hdrop⟩
  | cons c r =>
    rw [holdsAt_of_drop hdrop, ok_bind]
    simp only [decide_eq_true_eq]
    by_cases hc : c = CodePoint.ofChar '='
    · obtain ⟨next, hnext, hle', hrest'⟩ := exists_valueFrom (lt_length_of_drop hdrop)
      rw [drop_succ_of_drop hdrop] at hnext hrest'
      rw [if_pos hc, if_pos hc, hnext, ok_bind]
      exact ⟨next, rfl, by omega, hrest'⟩
    · rw [if_neg hc, if_neg hc]
      exact ⟨first, rfl, hle, hdrop⟩

/-- The attribute whose name stands at an offset of an attribute text, which begins at an offset of
the indexed document, and the offset behind the attribute. An equals sign without a name is passed
over with its value. -/
def attributeAt (index : LineIndex) (offset : Nat) (t : Text) (i : Nat) :
    Checked (Option Attribute × Nat) := do
  let last ← runEnd CodePoint.continuesAttributeName t i
  let name ← slice t i last
  let (value, next) ← assignedFrom t last
  if name.isEmpty then return (none, next + 1)
  else
    let position ← locateAt index (offset + i)
    return (some ⟨name, value, position⟩, next)

/-- The attributes that are read on from an offset of an attribute text. -/
def attributesFrom (index : LineIndex) (offset : Nat) (t : Text) (i : Nat) :
    Checked (List Attribute) :=
  if i < t.length then do
    let first ← runEnd CodePoint.isAttributeGap t i
    if first < t.length then
      let (attr, next) ← attributeAt index offset t first
      let rest ← if i < next then attributesFrom index offset t next else throw .stuck
      return attr.toList ++ rest
    else return []
  else return []
termination_by t.length - i

/-- Gaps are passed over one by one or all at once. -/
theorem scanFrom_dropWhile_gap (total : Nat) (t : Text) :
    AttributeSpan.scanFrom total (t.dropWhile CodePoint.isAttributeGap)
      = AttributeSpan.scanFrom total t := by
  induction t with
  | nil => rfl
  | cons c r ih =>
    by_cases hgap : c.isAttributeGap = true
    · rw [List.dropWhile_cons_of_pos hgap, ih, AttributeSpan.scanFrom, if_pos hgap]
    · rw [List.dropWhile_cons_of_neg hgap]

theorem not_isAttributeGap_of_dropWhile {c : CodePoint} {t r : Text}
    (h : c :: r = t.dropWhile CodePoint.isAttributeGap) : ¬ c.isAttributeGap = true := by
  have hhead := List.head?_dropWhile_not CodePoint.isAttributeGap t
  rw [← h] at hhead
  simpa using hhead

theorem continuesAttributeName_of_ne {c : CodePoint} (hgap : ¬ c.isAttributeGap = true)
    (hc : c ≠ CodePoint.ofChar '=') : c.continuesAttributeName = true := by
  have hval : c.val ≠ 0x3D := by
    obtain ⟨val, hlt⟩ := c
    rintro rfl
    exact hc rfl
  simp only [CodePoint.isAttributeGap, Bool.or_eq_true, decide_eq_true_eq, not_or] at hgap
  simp [CodePoint.continuesAttributeName, hgap.1, hgap.2, hval]

/-- **One attribute.** It is read at the offset of its name as it is read otherwise, and so is an
equals sign without a name. What is left has moved on. -/
theorem exists_attributeAt (document : Text) (offset : Nat) {t r : Text} {i : Nat} {c : CodePoint}
    (h : t.drop i = c :: r) (hgap : ¬ c.isAttributeGap = true) :
    ∃ attr next, attributeAt (LineIndex.ofText document) offset t i = .ok (attr, next) ∧
      i < next ∧
      (AttributeSpan.scanFrom t.length (c :: r)).map
          (AttributeSpan.locate (LineIndex.ofText document) offset)
        = attr.toList ++ (AttributeSpan.scanFrom t.length (t.drop next)).map
            (AttributeSpan.locate (LineIndex.ofText document) offset) := by
  have hlength := congrArg List.length h
  rw [List.length_drop, List.length_cons] at hlength
  obtain ⟨last, hlast, hle, hend, hslice, hrest⟩ :=
    exists_runEnd CodePoint.continuesAttributeName (Nat.le_of_lt (lt_length_of_drop h))
  obtain ⟨next, hnext, hle', hrest'⟩ := exists_assignedFrom hend
  rw [h] at hslice hrest
  rw [hrest] at hnext hrest'
  rw [attributeAt, hlast, ok_bind, hslice, ok_bind, hnext, ok_bind, AttributeSpan.scanFrom,
    if_neg hgap]
  simp only
  by_cases hc : c = CodePoint.ofChar '='
  · have hnone : (c :: r).takeWhile CodePoint.continuesAttributeName = [] := by
      rw [hc]
      rfl
    have hsign : (AttributeSpan.valueAfterName
        ((c :: r).dropWhile CodePoint.continuesAttributeName)).2
          = (AttributeSpan.valueAfterEquals r).2 := by
      rw [hc]
      rfl
    have hbehind : t.drop (next + 1) = (AttributeSpan.valueAfterEquals r).2.drop 1 := by
      rw [← List.drop_drop, hrest', hsign]
    rw [hnone, if_pos List.isEmpty_nil, if_pos hc, ← hbehind]
    exact ⟨none, next + 1, rfl, by omega, rfl⟩
  · have hname := continuesAttributeName_of_ne hgap hc
    have hstart : t.length - (c :: r).length = i := by
      rw [List.length_cons]
      omega
    rw [List.takeWhile_cons_of_pos hname, List.dropWhile_cons_of_pos hname] at *
    have hpassed : i < last := by
      have hlast := congrArg List.length hrest
      have hle := AttributeSpan.length_dropWhile_le CodePoint.continuesAttributeName r
      rw [List.length_drop] at hlast
      omega
    rw [if_neg (by simp), locateAt_eq, ok_bind, if_neg hc, List.map_cons, AttributeSpan.locate,
      hstart, ← hrest']
    exact ⟨some _, next, rfl, by omega, rfl⟩

/-- **Attributes are read by offsets as they are otherwise,** and no access goes wrong. -/
theorem attributesFrom_eq (document : Text) (offset : Nat) (t : Text) (i : Nat) :
    attributesFrom (LineIndex.ofText document) offset t i
      = .ok ((AttributeSpan.scanFrom t.length (t.drop i)).map
          (AttributeSpan.locate (LineIndex.ofText document) offset)) := by
  -- by what is left of the text: each turn reads an attribute, or an equals sign without a name
  induction hn : t.length - i using Nat.strongRecOn generalizing i with
  | _ n ih =>
    by_cases hi : i < t.length
    · obtain ⟨first, hfirst, hle, -, -, hrest⟩ :=
        exists_runEnd CodePoint.isAttributeGap (Nat.le_of_lt hi)
      rw [attributesFrom, if_pos hi, hfirst, ok_bind, ← scanFrom_dropWhile_gap, ← hrest]
      cases hdrop : t.drop first with
      | nil =>
        rw [if_neg (Nat.not_lt.mpr (List.drop_eq_nil_iff.mp hdrop)), AttributeSpan.scanFrom]
        rfl
      | cons c r =>
        have hgap : ¬ c.isAttributeGap = true := not_isAttributeGap_of_dropWhile (hdrop ▸ hrest)
        have hlt := lt_length_of_drop hdrop
        obtain ⟨attr, next, hattr, hpassed, hread⟩ :=
          exists_attributeAt document offset hdrop hgap
        rw [if_pos hlt, hattr, ok_bind]
        simp only
        rw [if_pos (by omega), ih _ (by omega) next rfl, ok_bind, hread]
        rfl
    · rw [attributesFrom, if_neg hi, List.drop_eq_nil_of_le (Nat.le_of_not_lt hi),
        AttributeSpan.scanFrom]
      rfl

/-! ### Tags -/

/-- The end tag that stands at an offset, unless it has no name, and the offset behind it. -/
def endTagAt (index : LineIndex) (t : Text) (i : Nat) : Checked (Option Tag × Nat) := do
  let last ← runEnd CodePoint.continuesTagName t (i + 2)
  let stop ← tagEndFrom t none last
  let next := stop.elim t.length (· + 1)
  if i + 2 < last then
    let position ← locateAt index i
    let name ← slice t (i + 2) last
    return (some ⟨.closing, name, position, []⟩, next)
  else return (none, next)

/-- The start tag that stands at an offset, and the offset behind it. -/
def startTagAt (index : LineIndex) (t : Text) (i : Nat) : Checked (Tag × Nat) := do
  let last ← runEnd CodePoint.continuesTagName t (i + 1)
  let stop ← tagEndFrom t none last
  let body ← slice t last (stop.getD t.length)
  let (attrText, slash) := TagSpan.splitSlash body
  let position ← locateAt index i
  let name ← slice t (i + 1) last
  let attributes ← attributesFrom index last attrText 0
  return (⟨if slash then .selfClosing else .opening, name, position, attributes⟩,
    stop.getD t.length + 1)

/-- The tag that begins with the `<` at an offset, if one does, and the offset from which the scan
goes on. -/
def tagAt (index : LineIndex) (t : Text) (i : Nat) : Checked (Option Tag × Nat) := do
  if standsAt (Text.ofString "<!--") t i then
    return (none, skipPastFrom (Text.ofString "-->") t (i + 4))
  else if standsAt (Text.ofString "<![CDATA[") t i then
    return (none, skipPastFrom (Text.ofString "]]>") t (i + 9))
  else if standsAt (Text.ofString "<?") t i then
    return (none, skipPastFrom (Text.ofString "?>") t (i + 2))
  else if standsAt (Text.ofString "<!") t i then
    let next ← skipDeclarationFrom t 0 none (i + 2)
    return (none, next)
  else if standsAt (Text.ofString "</") t i then endTagAt index t i
  else if ← holdsAt CodePoint.beginsName t (i + 1) then
    let (tag, next) ← startTagAt index t i
    return (some tag, next)
  else return (none, i + 1)

/-- Where a tag ends: what stands before its `>` is cut out, and what follows is left. -/
theorem exists_tagEndFrom {t : Text} {i : Nat} (hi : i ≤ t.length) :
    ∃ stop : Option Nat, tagEndFrom t none i = .ok stop ∧ i ≤ stop.getD t.length ∧
      slice t i (stop.getD t.length) = .ok (TagSpan.cutTag none (t.drop i)).1 ∧
      t.drop (stop.getD t.length + 1) = (TagSpan.cutTag none (t.drop i)).2.getD [] ∧
      t.drop (stop.elim t.length (· + 1)) = (TagSpan.cutTag none (t.drop i)).2.getD [] := by
  have hcut := TagSpan.cutTag_eq none (t.drop i)
  refine ⟨_, tagEndFrom_eq t none i, ?_⟩
  generalize TagSpan.cutTag none (t.drop i) = cut at hcut ⊢
  obtain ⟨body, rest⟩ := cut
  cases rest with
  | none =>
    have hbody : t.drop i = body := hcut.trans (List.append_nil body)
    have hlength : i + body.length = t.length := by
      rw [← hbody, List.length_drop]
      omega
    refine ⟨hi, ?_, List.drop_eq_nil_of_le (Nat.le_succ _), List.drop_length⟩
    show slice t i t.length = .ok body
    rw [← hlength]
    exact slice_of_prefix hi (hbody ▸ List.prefix_refl body)
  | some rest =>
    have hstop : t.drop (i + body.length) = CodePoint.ofChar '>' :: rest := drop_add_length hcut
    exact ⟨Nat.le_add_right i _, slice_of_prefix hi ⟨_, hcut.symm⟩, drop_succ_of_drop hstop,
      drop_succ_of_drop hstop⟩

/-- What stands behind a tag's opener, as the offsets see it and as the scanner does. -/
theorem exists_endTagAt {t body : Text} {i : Nat} (h : t.drop (i + 2) = body)
    (hi : i + 2 ≤ t.length) :
    ∃ next, endTagAt (LineIndex.ofText t) t i
        = .ok ((TagSpan.endTag t.length body).1.map (TagSpan.locate (LineIndex.ofText t)), next) ∧
      i < next ∧ t.drop next = (TagSpan.endTag t.length body).2 := by
  obtain ⟨last, hlast, hle, hend, hname, hrest⟩ := exists_runEnd CodePoint.continuesTagName hi
  obtain ⟨stop, hstop, hle', -, -, hbehind⟩ := exists_tagEndFrom hend
  have hrun := Except.ok.inj (hlast.symm.trans (runEnd_eq CodePoint.continuesTagName t (i + 2)))
  have hstart : t.length - body.length - 2 = i := by
    rw [← h, List.length_drop]
    omega
  rw [h] at hname hrest hrun
  rw [hrest] at hbehind
  rw [endTagAt, hlast, ok_bind, hstop, ok_bind, TagSpan.endTag]
  simp only
  refine ⟨stop.elim t.length (· + 1), ?_, ?_, hbehind⟩
  · cases hempty : (body.takeWhile CodePoint.continuesTagName).isEmpty with
    | true =>
      rw [List.isEmpty_iff.mp hempty] at hrun
      rw [if_neg (by simp at hrun; omega)]
      rfl
    | false =>
      have hpos := List.length_pos_iff.mpr (List.isEmpty_eq_false_iff.mp hempty)
      rw [if_pos (by omega), locateAt_eq, ok_bind, hname, ok_bind, if_neg Bool.false_ne_true,
        Option.map_some, TagSpan.locate, TagSpan.attributes, Attribute.ofText_nil, hstart]
      rfl
  · cases stop with
    | none => exact (by omega : i < t.length)
    | some stop => exact (by simp at hle'; omega : i < stop + 1)

theorem exists_startTagAt {t body : Text} {i : Nat} (h : t.drop (i + 1) = body)
    (hi : i + 1 ≤ t.length) :
    ∃ next, startTagAt (LineIndex.ofText t) t i
        = .ok ((TagSpan.startTag t.length body).1.locate (LineIndex.ofText t), next) ∧
      i < next ∧ t.drop next = (TagSpan.startTag t.length body).2 := by
  obtain ⟨last, hlast, hle, hend, hname, hrest⟩ := exists_runEnd CodePoint.continuesTagName hi
  obtain ⟨stop, hstop, hle', hbody, hbehind, -⟩ := exists_tagEndFrom hend
  have hrun := Except.ok.inj (hlast.symm.trans (runEnd_eq CodePoint.continuesTagName t (i + 1)))
  rw [h] at hname hrest hrun
  rw [hrest] at hbehind hbody
  have hstart : t.length - body.length - 1 = i := by
    rw [← h, List.length_drop]
    omega
  have hattrStart : t.length - body.length + (body.takeWhile CodePoint.continuesTagName).length
      = last := by
    rw [hrun, ← h, List.length_drop]
    omega
  rw [startTagAt, hlast, ok_bind, hstop, ok_bind, hbody, ok_bind]
  simp only
  rw [locateAt_eq, ok_bind, hname, ok_bind, attributesFrom_eq, ok_bind]
  refine ⟨stop.getD t.length + 1, ?_, by omega, hbehind⟩
  simp only [TagSpan.startTag, TagSpan.locate, TagSpan.attributes, hstart, hattrStart]
  rfl

/-- A mark stands behind a code point that is known. -/
theorem standsAt_of_drop {t r : Text} {i : Nat} {c : CodePoint} (h : t.drop i = c :: r)
    (mark : Text) : standsAt (c :: mark) t i = Text.startsWith mark r := by
  rw [standsAt, h, Text.startsWith, Text.startsWith, List.isPrefixOf_cons_cons_self]

/-- A mark that stands behind a code point is passed over with it. -/
theorem drop_of_startsWith {t r mark : Text} {i : Nat} {c : CodePoint} (h : t.drop i = c :: r)
    (hmark : Text.startsWith mark r = true) :
    t.drop (i + (mark.length + 1)) = r.drop mark.length ∧ i + (mark.length + 1) ≤ t.length := by
  have hlength := congrArg List.length h
  have hle := (List.isPrefixOf_iff_prefix.mp hmark).length_le
  rw [List.length_drop, List.length_cons] at hlength
  refine ⟨?_, by omega⟩
  rw [← List.drop_drop, h, List.drop_succ_cons]

/-- A construct that stands at an offset is passed over up to its closing delimiter. -/
theorem skipPastFrom_of_startsWith {t r mark : Text} {i : Nat} {c : CodePoint}
    (h : t.drop i = c :: r) (hmark : Text.startsWith mark r = true) (closing : Text) :
    i < skipPastFrom closing t (i + (mark.length + 1)) ∧
      t.drop (skipPastFrom closing t (i + (mark.length + 1)))
        = Text.skipPast closing (r.drop mark.length) := by
  obtain ⟨hrest, hle⟩ := drop_of_startsWith h hmark
  have hpast : i + (mark.length + 1) ≤ skipPastFrom closing t (i + (mark.length + 1)) :=
    le_skipPastFrom hle
  exact ⟨by omega, by rw [drop_skipPastFrom, hrest]⟩

theorem startsWith_singleton (d c : CodePoint) (r : Text) :
    Text.startsWith [d] (c :: r) = decide (c = d) := by
  show (decide (d = c) && List.isPrefixOf [] r) = decide (c = d)
  rw [List.isPrefixOf_nil_left, Bool.and_true]
  exact decide_eq_decide.mpr eq_comm

/-- **One construct.** It is read at the offset of its `<` as it is read otherwise, and the scan has
moved on behind it. -/
theorem exists_tagAt {t r : Text} {i : Nat} (h : t.drop i = CodePoint.ofChar '<' :: r) :
    ∃ next, tagAt (LineIndex.ofText t) t i
        = .ok ((TagSpan.step t.length r).1.map (TagSpan.locate (LineIndex.ofText t)), next) ∧
      i < next ∧ t.drop next = (TagSpan.step t.length r).2 := by
  have hcomment : standsAt (Text.ofString "<!--") t i = Text.startsWith (Text.ofString "!--") r :=
    standsAt_of_drop h _
  have hcdata : standsAt (Text.ofString "<![CDATA[") t i
      = Text.startsWith (Text.ofString "![CDATA[") r := standsAt_of_drop h _
  have hinstruction : standsAt (Text.ofString "<?") t i
      = Text.startsWith [CodePoint.ofChar '?'] r := standsAt_of_drop h _
  have hdeclaration : standsAt (Text.ofString "<!") t i
      = Text.startsWith [CodePoint.ofChar '!'] r := standsAt_of_drop h _
  have hclosing : standsAt (Text.ofString "</") t i = Text.startsWith [CodePoint.ofChar '/'] r :=
    standsAt_of_drop h _
  have hbehind : t.drop (i + 1) = r := drop_succ_of_drop h
  have hlt := lt_length_of_drop h
  -- the marks are looked for in the same order, and each case is that of one construct
  unfold tagAt TagSpan.step Construct.ofText
  rw [hcomment, hcdata, hinstruction, hdeclaration, hclosing, after?_eq, after?_eq]
  by_cases hr : Text.startsWith (Text.ofString "!--") r = true
  · rw [if_pos hr, if_pos hr]
    exact ⟨_, rfl, skipPastFrom_of_startsWith h hr (Text.ofString "-->")⟩
  rw [if_neg hr, if_neg hr]
  by_cases hr : Text.startsWith (Text.ofString "![CDATA[") r = true
  · rw [if_pos hr, if_pos hr]
    exact ⟨_, rfl, skipPastFrom_of_startsWith h hr (Text.ofString "]]>")⟩
  rw [if_neg hr, if_neg hr]
  cases r with
  | nil =>
    rw [holdsAt_of_drop_eq_nil hbehind]
    exact ⟨i + 1, rfl, Nat.lt_succ_self i, hbehind⟩
  | cons c body =>
    have hnext : t.drop (i + 2) = body := drop_succ_of_drop hbehind
    have hlt' : i + 2 ≤ t.length := lt_length_of_drop hbehind
    simp only [startsWith_singleton, decide_eq_true_eq]
    by_cases hc : c = CodePoint.ofChar '?'
    · have hr : Text.startsWith [CodePoint.ofChar '?'] (c :: body) = true := by
        rw [startsWith_singleton, hc, decide_eq_true_eq]
      rw [if_pos hc, if_pos hc]
      exact ⟨_, rfl, skipPastFrom_of_startsWith h hr (Text.ofString "?>")⟩
    rw [if_neg hc, if_neg hc]
    by_cases hc : c = CodePoint.ofChar '!'
    · obtain ⟨next, hskip, hle, hrest⟩ := exists_skipDeclarationFrom 0 none hlt'
      rw [if_pos hc, if_pos hc, hskip]
      exact ⟨next, rfl, by omega, by rw [hrest, hnext]⟩
    rw [if_neg hc, if_neg hc]
    by_cases hc : c = CodePoint.ofChar '/'
    · rw [if_pos hc, if_pos hc]
      exact exists_endTagAt hnext hlt'
    rw [if_neg hc, if_neg hc, holdsAt_of_drop hbehind, ok_bind]
    by_cases hc : c.beginsName = true
    · obtain ⟨next, htag, hpassed, hrest⟩ := exists_startTagAt hbehind hlt
      rw [if_pos hc, if_pos hc, htag]
      exact ⟨next, rfl, hpassed, hrest⟩
    · rw [if_neg hc, if_neg hc]
      exact ⟨i + 1, rfl, Nat.lt_succ_self i, hbehind⟩

/-! ### The tags of a text -/

theorem exists_of_offsetOf? {c : CodePoint} {t : Text} {i : Nat} (h : offsetOf? [c] t = some i) :
    ∃ r, t.drop i = c :: r := by
  induction t generalizing i with
  | nil => exact nomatch h
  | cons d r ih =>
    rw [offsetOf?, startsWith_singleton] at h
    split at h
    · next hd =>
      obtain rfl := Option.some.inj h
      exact ⟨r, by rw [List.drop_zero, of_decide_eq_true hd]⟩
    · obtain ⟨j, hj, rfl⟩ := Option.map_eq_some_iff.mp h
      exact ih hj

theorem exists_of_findFrom {c : CodePoint} {t : Text} {i found : Nat}
    (h : findFrom [c] t i = some found) : i ≤ found ∧ ∃ r, t.drop found = c :: r := by
  obtain ⟨j, hj, rfl⟩ := Option.map_eq_some_iff.mp h
  obtain ⟨r, hr⟩ := exists_of_offsetOf? hj
  exact ⟨Nat.le_add_right i j, r, by rw [← List.drop_drop, hr]⟩

/-- The tags from an offset on. -/
def tagsFrom (index : LineIndex) (t : Text) (i : Nat) : Checked (List Tag) :=
  match _ : findFrom [CodePoint.ofChar '<'] t i with
  | none => return []
  | some found => do
    let (tag, next) ← tagAt index t found
    let rest ← if found < next then tagsFrom index t next else throw .stuck
    return tag.toList ++ rest
termination_by t.length - i
decreasing_by
  obtain ⟨hle, r, hr⟩ := exists_of_findFrom ‹findFrom _ t i = some found›
  have hlt := lt_length_of_drop hr
  omega

/-- The scan goes to the next `<` one by one or all at once. -/
theorem scanFrom_eq (total : Nat) (t : Text) :
    TagSpan.scanFrom total t
      = (offsetOf? [CodePoint.ofChar '<'] t).elim [] fun i => TagSpan.scanFrom total (t.drop i) := by
  induction t with
  | nil =>
    rw [TagSpan.scanFrom]
    rfl
  | cons c r ih =>
    rw [offsetOf?, startsWith_singleton]
    by_cases hc : c = CodePoint.ofChar '<'
    · rw [if_pos (decide_eq_true hc)]
      rfl
    · rw [if_neg (by simpa using hc), TagSpan.scanFrom, if_neg hc, ih]
      cases offsetOf? [CodePoint.ofChar '<'] r <;> rfl

/-- **Tags are read by offsets as they are otherwise,** and no access goes wrong. -/
theorem tagsFrom_eq (t : Text) (i : Nat) :
    tagsFrom (LineIndex.ofText t) t i
      = .ok ((TagSpan.scanFrom t.length (t.drop i)).map
          (TagSpan.locate (LineIndex.ofText t))) := by
  -- by what is left of the text, of which each construct takes some
  induction hn : t.length - i using Nat.strongRecOn generalizing i with
  | _ n ih =>
    rw [tagsFrom, scanFrom_eq]
    split
    · next hnone =>
      rw [Option.map_eq_none_iff.mp hnone]
      rfl
    · next found hfound =>
      obtain ⟨hle, r, hr⟩ := exists_of_findFrom hfound
      obtain ⟨j, hj, rfl⟩ := Option.map_eq_some_iff.mp hfound
      obtain ⟨next, htag, hpassed, hrest⟩ := exists_tagAt hr
      have hlt := lt_length_of_drop hr
      rw [htag, ok_bind]
      simp only
      rw [if_pos hpassed, ih _ (by omega) next rfl, ok_bind, hj, Option.elim_some, List.drop_drop,
        hr, TagSpan.scanFrom_construct, hrest, List.map_append, Option.toList_map]
      rfl

/-- **The tags of a text,** read by offsets from its beginning. -/
theorem tagsFrom_zero (t : Text) : tagsFrom (LineIndex.ofText t) t 0 = .ok (Tag.ofText t) :=
  tagsFrom_eq t 0

end Checked

end MarkupGrammar
