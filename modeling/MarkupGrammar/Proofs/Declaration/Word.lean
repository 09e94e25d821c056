import MarkupGrammar.Declaration.Scan
import MarkupGrammar.Proofs.Markup.Scan

/-!
# Words in any case

What the fixed parts of a declaration are compared by, and how far a comparison reaches. A word of
letters cannot run over a code point that is no letter, so reading a word at the beginning of a text
with such a delimiter in it depends on what stands before the delimiter only.

## Main results

* `CodePoint.eq_of_sameLetter` — punctuation and digits are the same as themselves alone
* `Text.afterWord?_append_cons`, `Text.afterSome?_append_cons` — no reading beyond a delimiter
* `Text.afterWord?_append_bind` — a word read off a text whose end is known
-/

namespace MarkupGrammar

namespace CodePoint

/-! ### Letters -/

/-- No code point before the letters is the lower case of another. -/
theorem eq_of_shiftBy_lowerRuns {c d : CodePoint} (hd : d.val < 0x41)
    (h : shiftBy lowerRuns c = d) : c = d := by
  have hruns : ∀ run ∈ lowerRuns, 0x41 ≤ run.first + run.shift := by decide +kernel
  rw [shiftBy] at h
  cases hfind : lowerRuns.find? (·.covers c.val) with
  | none => rwa [hfind] at h
  | some run =>
    -- the shift of a run leads to letters
    have hshift := hruns run (List.mem_of_find?_eq_some hfind)
    have hcovers := List.find?_some hfind
    simp only [CaseRun.covers, Bool.and_eq_true, decide_eq_true_eq] at hcovers
    rw [hfind] at h
    simp only [ofNat] at h
    split at h
    · rw [← h] at hd
      simp only at hd
      omega
    · exact absurd (h ▸ hd) (by decide)

theorem shiftBy_lowerRuns_of_lt {d : CodePoint} (hd : d.val < 0x41) :
    shiftBy lowerRuns d = d := by
  have hruns : ∀ run ∈ lowerRuns, 0x41 ≤ run.first := by decide +kernel
  have hnone : lowerRuns.find? (·.covers d.val) = none := by
    rw [List.find?_eq_none]
    intro run hrun hcovers
    have hfirst := hruns run hrun
    simp only [CaseRun.covers, Bool.and_eq_true, decide_eq_true_eq] at hcovers
    omega
  rw [shiftBy, hnone]

/-- Punctuation and digits are the same as themselves alone. -/
theorem eq_of_sameLetter {c d : CodePoint} (hd : d.val < 0x41) (h : c.sameLetter d = true) :
    c = d := by
  have hlong : d.val ≠ 0x17F := by omega
  simp only [sameLetter, decide_eq_true_eq, if_neg hlong, shiftBy_lowerRuns_of_lt hd] at h
  split at h
  · exact absurd (h ▸ hd) (by decide)
  · exact eq_of_shiftBy_lowerRuns hd h

theorem sameLetter_eq_false {c d : CodePoint} (hd : d.val < 0x41) (h : c ≠ d) :
    c.sameLetter d = false :=
  Bool.eq_false_iff.mpr fun hsame => h (eq_of_sameLetter hd hsame)

/-- Whether a code point is a letter of a word, in any case. -/
def isLetterOf (w : Text) (c : CodePoint) : Bool := w.any c.sameLetter

theorem isLetterOf_cons_eq_false {w : Text} {c d : CodePoint} :
    c.isLetterOf (d :: w) = false ↔ c.sameLetter d = false ∧ c.isLetterOf w = false := by
  rw [isLetterOf, List.any_cons, Bool.or_eq_false_iff]
  rfl

/-- A blank is no letter of the fixed words. -/
theorem isLetterOf_eq_false_of_isBlank {w : Text} (hw : w ⊆ Text.ofString "xml-modelhref")
    {c : CodePoint} (h : c.isBlank = true) : c.isLetterOf w = false := by
  have hblanks : ∀ n ∈ blanks, ∀ d ∈ Text.ofString "xml-modelhref",
      (ofNat n).sameLetter d = false := by decide +kernel
  have hval : ofNat c.val = c := dif_pos c.isLt
  rw [isBlank, List.contains_iff_mem] at h
  refine List.any_eq_false.mpr fun d hd => Bool.eq_false_iff.mp ?_
  exact hval ▸ hblanks c.val h d (hw hd)

end CodePoint

namespace Text

/-! ### Words -/

/-- Whether a text is a word, in any case. -/
def IsWord (w t : Text) : Prop := afterWord? w t = some []

instance (w t : Text) : Decidable (IsWord w t) := inferInstanceAs (Decidable (_ = _))

theorem afterWord?_cons_of_not_sameLetter {c d : CodePoint} (w t : Text)
    (h : c.sameLetter d = false) : afterWord? (d :: w) (c :: t) = none := by
  rw [afterWord?, h, if_neg Bool.false_ne_true]

theorem afterWord?_self (w t : Text) : afterWord? w (w ++ t) = some t := by
  induction w with
  | nil => cases t <;> rfl
  | cons c w ih =>
    have hc : c.sameLetter c = true := decide_eq_true rfl
    rw [List.cons_append, afterWord?, if_pos hc, ih]

/-- A word ends before a code point that is no letter of it. -/
theorem afterWord?_append_cons {w : Text} {q : CodePoint} (h : q.isLetterOf w = false)
    (t rest : Text) : afterWord? w (t ++ q :: rest) = (afterWord? w t).map (· ++ q :: rest) := by
  induction w generalizing t with
  | nil => cases t <;> rfl
  | cons d w ih =>
    obtain ⟨hd, hw⟩ := CodePoint.isLetterOf_cons_eq_false.mp h
    cases t with
    | nil =>
      exact afterWord?_cons_of_not_sameLetter w rest hd
    | cons c t =>
      rw [List.cons_append, afterWord?, afterWord?, ih hw]
      split <;> rfl

theorem afterWord?_append_left (v w t : Text) :
    afterWord? (v ++ w) t = (afterWord? v t).bind (afterWord? w) := by
  induction v generalizing t with
  | nil => cases t <;> rfl
  | cons d v ih =>
    cases t with
    | nil => rfl
    | cons c t =>
      rw [List.cons_append, afterWord?, afterWord?, ih]
      split <;> rfl

/-- Reading a word and going on, when it is known where the word has to end: nothing before that
place can be gone on with, and nothing after it continues the word. -/
theorem afterWord?_append_bind {α : Type} {w s t : Text} {next : Text → Option α}
    (hs : ∀ c ∈ s, ∀ r, next (c :: r) = none)
    (ht : Stops (CodePoint.isLetterOf w) t) :
    (afterWord? w (s ++ t)).bind next = if IsWord w s then next t else none := by
  induction w generalizing s with
  | nil =>
    cases s with
    | nil => cases t <;> rfl
    | cons c s =>
      rw [if_neg (by rw [IsWord, afterWord?]; simp)]
      exact hs c List.mem_cons_self _
  | cons d w ih =>
    have hd (c) (hc : c ∈ t.head?) := CodePoint.isLetterOf_cons_eq_false.mp (ht c hc)
    cases s with
    | nil =>
      rw [if_neg (by rw [IsWord, afterWord?]; simp), List.nil_append]
      cases t with
      | nil => rfl
      | cons c t =>
        rw [afterWord?_cons_of_not_sameLetter w t (hd c rfl).1]
        rfl
    | cons c s =>
      have hw := ih (fun e he => hs e (List.mem_cons_of_mem c he)) fun e he => (hd e he).2
      rw [List.cons_append]
      simp only [IsWord, afterWord?] at hw ⊢
      by_cases hc : c.sameLetter d = true
      · simp only [if_pos hc]
        exact hw
      · simp [if_neg hc]

/-- Whether a word stands anywhere in a text, in any case. -/
def holdsWord (w : Text) : Text → Bool
  | [] => false
  | c :: r => (afterWord? w (c :: r)).isSome || holdsWord w r

theorem afterWord?_eq_none_of_suffix {w s t : Text} (ht : holdsWord w t = false) (hs : s <:+ t)
    (hne : s ≠ []) : afterWord? w s = none := by
  induction t with
  | nil => exact absurd (List.suffix_nil.mp hs) hne
  | cons c t ih =>
    rw [holdsWord, Bool.or_eq_false_iff] at ht
    rcases List.suffix_cons_iff.mp hs with rfl | hs
    · exact Option.isNone_iff_eq_none.mp (Option.isSome_eq_false_iff.mp ht.1)
    · exact ih ht.2 hs

/-! ### Runs -/

variable {p : CodePoint → Bool}

theorem afterSome?_eq (p : CodePoint → Bool) (t : Text) :
    afterSome? p t
      = if t.takeWhile p = [] then none else some (t.takeWhile p, t.dropWhile p) := by
  rw [afterSome?]
  split
  · next h => rw [if_pos h]
  · next h => rw [if_neg h]

/-- A run ends before a code point that does not continue it. -/
theorem afterSome?_append_cons {q : CodePoint} (h : p q = false) (t rest : Text) :
    afterSome? p (t ++ q :: rest)
      = (afterSome? p t).map fun (run, r) => (run, r ++ q :: rest) := by
  have hsplit : (t ++ q :: rest).takeWhile p = t.takeWhile p ∧
      (t ++ q :: rest).dropWhile p = t.dropWhile p ++ q :: rest := by
    induction t with
    | nil => simp [h]
    | cons c t ih =>
      rw [List.cons_append, List.takeWhile_cons, List.dropWhile_cons, List.takeWhile_cons,
        List.dropWhile_cons, ih.1, ih.2]
      split <;> simp
  rw [afterSome?_eq, afterSome?_eq, hsplit.1, hsplit.2]
  split <;> rfl

theorem afterSome?_append {run rest : Text} (hrun : run ≠ []) (h : ∀ c ∈ run, p c = true)
    (hrest : Stops p rest) : afterSome? p (run ++ rest) = some (run, rest) := by
  rw [afterSome?_eq, takeWhile_append h hrest, dropWhile_append h hrest, if_neg hrun]

end Text

end MarkupGrammar
