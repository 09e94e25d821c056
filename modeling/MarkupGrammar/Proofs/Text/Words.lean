import MarkupGrammar.Text.Blank
import Mathlib.Data.List.DropRight

/-!
# Words

A text is blanks and what stands between them. `Text.AreWords` says what its words are, the maximal
runs without blanks, by cutting it into gaps and words. `Text.words` finds them. Collapsing a text
makes each gap a space and trims the result, and knows of no words; that it writes the words with
single spaces between them is what this module proves.

## Main results

* `areWords_iff` — every text has words, and has no others
* `collapse_of_areWords` — a text is collapsed to its words with single spaces between them
* `collapse_eq_self_of_collapse` — what is collapsed stays as it is
-/

namespace MarkupGrammar

namespace Text

/-! ### The words of a text -/

/-- The words of a text: without blanks, not empty, and with a blank or an end of the text on either
side. -/
inductive AreWords : Text → List Text → Prop
  | none {gap : Text} (hgap : ∀ c ∈ gap, c.isBlank = true) : AreWords gap []
  | word {gap w rest : Text} {ws : List Text} (hgap : ∀ c ∈ gap, c.isBlank = true) (hne : w ≠ [])
      (hw : ∀ c ∈ w, c.isBlank = false) (hstop : ∀ c ∈ rest.head?, c.isBlank = true)
      (hrest : AreWords rest ws) : AreWords (gap ++ (w ++ rest)) (w :: ws)

/-- A text that begins with a word. -/
theorem AreWords.first {w rest : Text} {ws : List Text} (hne : w ≠ [])
    (hw : ∀ c ∈ w, c.isBlank = false) (hstop : ∀ c ∈ rest.head?, c.isBlank = true)
    (hrest : AreWords rest ws) : AreWords (w ++ rest) (w :: ws) :=
  .word (List.forall_mem_nil _) hne hw hstop hrest

theorem words_gap_append {gap : Text} (h : ∀ c ∈ gap, c.isBlank = true) (t : Text) :
    words (gap ++ t) = words t := by
  induction gap with
  | nil => rfl
  | cons c gap ih =>
    obtain ⟨hc, hgap⟩ := List.forall_mem_cons.mp h
    rw [List.cons_append, words.eq_def]
    simp only [hc, if_true]
    exact ih hgap

/-- A text that begins with a word is that word, up to the next blank, and the words of the rest. -/
theorem words_append {w rest : Text} (hne : w ≠ []) (hw : ∀ c ∈ w, c.isBlank = false)
    (hstop : ∀ c ∈ rest.head?, c.isBlank = true) : words (w ++ rest) = w :: words rest := by
  induction w with
  | nil => exact absurd rfl hne
  | cons c w ih =>
    obtain ⟨hc, hw⟩ := List.forall_mem_cons.mp hw
    rw [List.cons_append, words.eq_def]
    cases w with
    | nil =>
      cases rest with
      | nil =>
        simp only [List.nil_append, hc, Bool.false_eq_true, if_false]
        rfl
      | cons d rest =>
        simp only [List.nil_append, hc, hstop d rfl, Bool.false_eq_true, if_false, if_true]
    | cons d w =>
      have hrest := ih (List.cons_ne_nil d w) hw
      rw [List.cons_append] at hrest
      simp only [List.cons_append, hc, hw d List.mem_cons_self, hrest, Bool.false_eq_true,
        if_false]

theorem words_of_areWords {t : Text} {ws : List Text} (h : AreWords t ws) : words t = ws := by
  induction h with
  | @none gap hgap =>
    have hnil := words_gap_append hgap []
    rw [List.append_nil] at hnil
    rw [hnil]
    rfl
  | word hgap hne hw hstop _ ih => rw [words_gap_append hgap, words_append hne hw hstop, ih]

theorem AreWords.cons_blank {c : CodePoint} {t : Text} {ws : List Text} (h : AreWords t ws)
    (hc : c.isBlank = true) : AreWords (c :: t) ws := by
  cases h with
  | none hgap => exact .none (List.forall_mem_cons.mpr ⟨hc, hgap⟩)
  | @word gap w rest ws hgap hne hw hstop hrest =>
    have hblank : ∀ d ∈ c :: gap, d.isBlank = true := List.forall_mem_cons.mpr ⟨hc, hgap⟩
    exact .word hblank hne hw hstop hrest

/-- A code point that is no blank begins a word, or it stands before one. -/
theorem AreWords.cons_letter {c : CodePoint} {t : Text} {ws : List Text} (h : AreWords t ws)
    (hc : c.isBlank = false) : ∃ vs, AreWords (c :: t) vs := by
  have hsingle : ∀ d ∈ [c], d.isBlank = false := List.forall_mem_singleton.mpr hc
  cases t with
  | nil => exact ⟨_, .first (List.cons_ne_nil c []) hsingle nofun h⟩
  | cons d t =>
    by_cases hd : d.isBlank = true
    · refine ⟨_, .first (List.cons_ne_nil c []) hsingle ?_ h⟩
      rintro _ ⟨⟩
      exact hd
    · generalize ht : d :: t = u at h
      cases h with
      | none hgap => exact absurd (hgap d (ht ▸ List.mem_cons_self)) hd
      | @word gap w rest ws hgap hne hw hstop hrest =>
        cases gap with
        | cons g gap =>
          obtain ⟨rfl, -⟩ := List.cons.inj ht
          exact absurd (hgap d List.mem_cons_self) hd
        | nil =>
          exact ⟨_, .first (List.cons_ne_nil c w)
            (List.forall_mem_cons.mpr ⟨hc, hw⟩) hstop hrest⟩

/-- **Every text has words, and has no others.** -/
theorem areWords_iff {t : Text} {ws : List Text} : AreWords t ws ↔ words t = ws := by
  refine ⟨words_of_areWords, ?_⟩
  rintro rfl
  obtain ⟨ws, h⟩ : ∃ ws, AreWords t ws := by
    induction t with
    | nil => exact ⟨[], .none nofun⟩
    | cons c t ih =>
      obtain ⟨ws, h⟩ := ih
      cases hc : c.isBlank with
      | true => exact ⟨ws, h.cons_blank hc⟩
      | false => exact h.cons_letter hc
  rwa [words_of_areWords h]

/-- A word is not empty and has no blanks. -/
theorem AreWords.forall_mem {t : Text} {ws : List Text} (h : AreWords t ws) :
    ∀ w ∈ ws, w ≠ [] ∧ ∀ c ∈ w, c.isBlank = false := by
  induction h with
  | none => exact List.forall_mem_nil _
  | word _ hne hw _ _ ih => exact List.forall_mem_cons.mpr ⟨⟨hne, hw⟩, ih⟩

/-- The code points of a text that are no blanks are those of its words. -/
theorem AreWords.filter_eq {t : Text} {ws : List Text} (h : AreWords t ws) :
    t.filter (fun c => !c.isBlank) = ws.flatten := by
  induction h with
  | none hgap => exact List.filter_eq_nil_iff.mpr fun c hc => by simp [hgap c hc]
  | word hgap _ hw _ _ ih =>
    rw [List.filter_append, List.filter_append, ih, List.flatten_cons,
      List.filter_eq_nil_iff.mpr fun c hc => by simp [hgap c hc],
      List.filter_eq_self.mpr fun c hc => by simp [hw c hc], List.nil_append]

/-! ### Words with spaces -/

/-- Words with a space between each two neighbours. -/
def spaced (ws : List Text) : Text := join (ofString " ") ws

theorem isBlank_space : (CodePoint.ofChar ' ').isBlank = true := rfl

theorem spaced_cons (w : Text) {ws : List Text} (h : ws ≠ []) :
    spaced (w :: ws) = w ++ CodePoint.ofChar ' ' :: spaced ws := by
  cases ws with
  | nil => exact absurd rfl h
  | cons v ws =>
    rw [spaced, join, List.append_assoc]
    · rfl
    · exact fun heq => nomatch heq

/-- Words with spaces between them have these words. -/
theorem areWords_spaced {ws : List Text} (h : ∀ w ∈ ws, w ≠ [] ∧ ∀ c ∈ w, c.isBlank = false) :
    AreWords (spaced ws) ws := by
  induction ws with
  | nil => exact .none nofun
  | cons w ws ih =>
    obtain ⟨⟨hne, hw⟩, hws⟩ := List.forall_mem_cons.mp h
    by_cases hnil : ws = []
    · subst hnil
      have hword : AreWords (w ++ []) [w] := .first hne hw nofun (.none nofun)
      rwa [List.append_nil] at hword
    · rw [spaced_cons w hnil]
      refine .first hne hw ?_ ((ih hws).cons_blank isBlank_space)
      rintro _ ⟨⟩
      exact isBlank_space

/-! ### Collapsing -/

theorem squeeze_true_gap_append {gap : Text} (h : ∀ c ∈ gap, c.isBlank = true) (t : Text) :
    squeeze true (gap ++ t) = squeeze true t := by
  induction gap with
  | nil => rfl
  | cons c gap ih =>
    obtain ⟨hc, hgap⟩ := List.forall_mem_cons.mp h
    rw [List.cons_append, squeeze, if_pos hc, if_pos rfl, ih hgap]

theorem squeeze_word_append (afterBlank : Bool) {w : Text} (hne : w ≠ [])
    (hw : ∀ c ∈ w, c.isBlank = false) (t : Text) :
    squeeze afterBlank (w ++ t) = w ++ squeeze false t := by
  induction w generalizing afterBlank with
  | nil => exact absurd rfl hne
  | cons c w ih =>
    obtain ⟨hc, hw⟩ := List.forall_mem_cons.mp hw
    rw [List.cons_append, squeeze, if_neg (Bool.eq_false_iff.mp hc)]
    cases w with
    | nil => rfl
    | cons d w => rw [ih false (List.cons_ne_nil d w) hw]; rfl

/-- Of blanks only blanks are left. -/
theorem isBlank_of_mem_squeeze {gap : Text} (h : ∀ c ∈ gap, c.isBlank = true) :
    ∀ c ∈ squeeze false gap, c.isBlank = true := by
  cases gap with
  | nil => exact List.forall_mem_nil _
  | cons c gap =>
    obtain ⟨hc, hgap⟩ := List.forall_mem_cons.mp h
    have hnil := squeeze_true_gap_append hgap []
    rw [List.append_nil] at hnil
    rw [squeeze, if_pos hc, if_neg Bool.false_ne_true, hnil]
    exact List.forall_mem_singleton.mpr isBlank_space

/-- A text with its gaps made spaces: its words with spaces between them, perhaps with one before
and one behind them. -/
theorem squeeze_of_areWords {t : Text} {ws : List Text} (h : AreWords t ws) (hne : ws ≠ []) :
    ∃ trail, (∀ c ∈ trail, c.isBlank = true) ∧ squeeze false t
      = (if t.head?.any CodePoint.isBlank then [CodePoint.ofChar ' '] else [])
        ++ (spaced ws ++ trail) := by
  induction h with
  | none => exact absurd rfl hne
  | @word gap w rest ws hgap hword hw hstop hrest ih =>
    have hlead : squeeze false (gap ++ (w ++ rest))
        = (if (gap ++ (w ++ rest)).head?.any CodePoint.isBlank then [CodePoint.ofChar ' '] else [])
          ++ (w ++ squeeze false rest) := by
      cases gap with
      | cons c gap =>
        obtain ⟨hc, hgap⟩ := List.forall_mem_cons.mp hgap
        rw [List.cons_append, squeeze, if_pos hc, if_neg Bool.false_ne_true,
          squeeze_true_gap_append hgap, squeeze_word_append true hword hw, List.head?_cons,
          Option.any_some, if_pos hc]
        rfl
      | nil =>
        obtain ⟨c, w, rfl⟩ := List.exists_cons_of_ne_nil hword
        have hc := hw c List.mem_cons_self
        have hhead : ((c :: w) ++ rest).head?.any CodePoint.isBlank = false := hc
        rw [List.nil_append, squeeze_word_append false hword hw, hhead, if_neg Bool.false_ne_true,
          List.nil_append]
    rw [hlead]
    by_cases hnil : ws = []
    · subst hnil
      cases hrest with
      | none hblank => exact ⟨_, isBlank_of_mem_squeeze hblank, rfl⟩
    · obtain ⟨trail, htrail, heq⟩ := ih hnil
      have hrestne : rest ≠ [] := by
        rintro rfl
        exact hnil (areWords_iff.mp hrest).symm
      obtain ⟨c, rest, rfl⟩ := List.exists_cons_of_ne_nil hrestne
      rw [List.head?_cons, Option.any_some, if_pos (hstop c rfl)] at heq
      refine ⟨trail, htrail, ?_⟩
      rw [heq, spaced_cons w hnil]
      simp

theorem trim_of_forall {t : Text} (h : ∀ c ∈ t, c.isBlank = true) : trim t = [] := by
  have hstart : trimStart t = [] := List.dropWhile_eq_nil_iff.mpr h
  rw [trim, hstart]
  rfl

/-- Trimming takes off blanks up to the first code point, and down to the last, that is none. -/
theorem trim_append {lead body trail : Text} (hlead : ∀ c ∈ lead, c.isBlank = true)
    (htrail : ∀ c ∈ trail, c.isBlank = true) (hne : body ≠ [])
    (hfirst : ∀ c ∈ body.head?, c.isBlank = false)
    (hlast : ∀ c ∈ body.getLast?, c.isBlank = false) : trim (lead ++ (body ++ trail)) = body := by
  obtain ⟨c, rest, rfl⟩ := List.exists_cons_of_ne_nil hne
  have hstart : trimStart (lead ++ (c :: rest ++ trail)) = c :: rest ++ trail := by
    rw [trimStart, List.dropWhile_append_of_pos hlead, List.cons_append,
      List.dropWhile_cons_of_neg (by simp [hfirst c rfl])]
  have hend : List.dropWhile CodePoint.isBlank (c :: rest).reverse = (c :: rest).reverse := by
    have hhead : (c :: rest).reverse.head? = some ((c :: rest).getLast hne) := by
      rw [List.head?_reverse, List.getLast?_eq_some_getLast hne]
    obtain ⟨d, tail, hd⟩ := List.exists_cons_of_ne_nil (List.reverse_ne_nil_iff.mpr hne)
    rw [hd] at hhead ⊢
    obtain rfl := Option.some.inj hhead
    exact List.dropWhile_cons_of_neg (by simp [hlast _ (List.getLast?_eq_some_getLast hne)])
  rw [trim, hstart, trimEnd, dropEndWhile, List.reverse_append,
    List.dropWhile_append_of_pos fun d hd => htrail d (List.mem_reverse.mp hd), hend,
    List.reverse_reverse]

/-- Words with spaces between them begin and end with a code point that is no blank. -/
theorem ends_spaced {ws : List Text} (hne : ws ≠ [])
    (h : ∀ w ∈ ws, w ≠ [] ∧ ∀ c ∈ w, c.isBlank = false) :
    spaced ws ≠ [] ∧ (∀ c ∈ (spaced ws).head?, c.isBlank = false) ∧
      ∀ c ∈ (spaced ws).getLast?, c.isBlank = false := by
  induction ws with
  | nil => exact absurd rfl hne
  | cons w ws ih =>
    obtain ⟨⟨hword, hw⟩, hws⟩ := List.forall_mem_cons.mp h
    by_cases hnil : ws = []
    · subst hnil
      exact ⟨hword, fun c hc => hw c (List.mem_of_mem_head? hc),
        fun c hc => hw c (List.mem_of_getLast? hc)⟩
    · obtain ⟨hspaced, -, hlast⟩ := ih hnil hws
      obtain ⟨d, w, rfl⟩ := List.exists_cons_of_ne_nil hword
      rw [spaced_cons _ hnil]
      refine ⟨List.cons_ne_nil _ _, ?_, ?_⟩
      · rintro _ ⟨⟩
        exact hw d List.mem_cons_self
      · rw [List.getLast?_append_of_ne_nil _ (List.cons_ne_nil _ _)]
        obtain ⟨e, tail, he⟩ := List.exists_cons_of_ne_nil hspaced
        rw [he] at hlast ⊢
        rwa [List.getLast?_cons_cons]

/-- **A text is collapsed to its words with single spaces between them,** and to nothing when it has
no words. -/
theorem collapse_of_areWords {t : Text} {ws : List Text} (h : AreWords t ws) :
    collapse t = if ws = [] then none else some (spaced ws) := by
  by_cases hne : ws = []
  · subst hne
    cases h with
    | none hgap =>
      rw [collapse, trim_of_forall (isBlank_of_mem_squeeze hgap), if_pos rfl]
  · obtain ⟨hspaced, hfirst, hlast⟩ := ends_spaced hne h.forall_mem
    obtain ⟨trail, htrail, heq⟩ := squeeze_of_areWords h hne
    have hlead : ∀ c ∈ (if t.head?.any CodePoint.isBlank then [CodePoint.ofChar ' '] else []),
        c.isBlank = true := by
      split
      · exact List.forall_mem_singleton.mpr isBlank_space
      · exact List.forall_mem_nil _
    rw [collapse, heq, trim_append hlead htrail hspaced hfirst hlast, if_neg hne]
    split
    · next hnil => exact absurd hnil hspaced
    · rfl

/-- A text is collapsed to nothing when it is blank. -/
theorem collapse_eq_none_iff {t : Text} : collapse t = none ↔ ∀ c ∈ t, c.isBlank = true := by
  constructor
  · intro h
    have hwords : AreWords t (words t) := areWords_iff.mpr rfl
    rw [collapse_of_areWords hwords] at h
    split at h
    · next hnil =>
      rw [hnil] at hwords
      cases hwords with
      | none hgap => exact hgap
    · exact nomatch h
  · intro h
    rw [collapse_of_areWords (.none h), if_pos rfl]

/-- **What is collapsed stays as it is.** -/
theorem collapse_eq_self_of_collapse {t u : Text} (h : collapse t = some u) :
    collapse u = some u := by
  have hwords : AreWords t (words t) := areWords_iff.mpr rfl
  rw [collapse_of_areWords hwords] at h
  split at h
  · exact nomatch h
  · next hne =>
    obtain rfl := Option.some.inj h
    rw [collapse_of_areWords (areWords_spaced hwords.forall_mem), if_neg hne]

end Text

end MarkupGrammar
