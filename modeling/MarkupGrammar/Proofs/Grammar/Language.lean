import Mathlib.Computability.Language
import MarkupGrammar.Grammar.Content

/-!
# Languages of child names

The children of an element, read in order, are a word over names, and what a content model or a
pattern admits is a language. The languages here are built with the operations of `Language`, the
two that it lacks being repetition within bounds and shuffling.

A shuffle of two words keeps the letters of each in their order and mixes them in any way. It is a
relation, since two words have many shuffles.

What the theory of required children asks of a language is one thing only: which letters are in all
of its words. Such a letter is *compelled*. A sequence or a shuffle compels what any of its parts
does, and a repetition what its part does, provided that it cannot be left out. A union compels
only what all its parts do, and nothing here says anything about it.

## Main results

* `Compels.words` — an arrangement other than a choice compels what any of its parts does
* `Compels.repeats` — a repetition that must occur compels what its part does
-/

namespace MarkupGrammar

variable {α : Type}

/-- A word is put together from two others, the letters of each kept in order. -/
inductive IsShuffle : List α → List α → List α → Prop
  | nil : IsShuffle [] [] []
  | left {a : α} {u v w : List α} (h : IsShuffle u v w) : IsShuffle (a :: u) v (a :: w)
  | right {a : α} {u v w : List α} (h : IsShuffle u v w) : IsShuffle u (a :: v) (a :: w)

namespace IsShuffle

variable {a : α} {u v w : List α}

/-- A shuffle has the letters of both words and no others. -/
theorem mem_iff (h : IsShuffle u v w) : a ∈ w ↔ a ∈ u ∨ a ∈ v := by
  induction h with
  | nil => simp
  | left _ ih => simp [ih, or_assoc]
  | right _ ih => simp [ih, or_left_comm]

/-- One word after the other is one of their shuffles. -/
theorem append (u v : List α) : IsShuffle u v (u ++ v) := by
  induction u with
  | nil =>
    induction v with
    | nil => exact .nil
    | cons a v ih => exact .right ih
  | cons a u ih => exact .left ih

end IsShuffle

/-- The shuffles of a word of one language with a word of another. -/
def shuffle (l m : Language α) : Language α := {w | ∃ u ∈ l, ∃ v ∈ m, IsShuffle u v w}

/-- The shuffles of a word of each language of a list. -/
def shuffles : List (Language α) → Language α
  | [] => 1
  | l :: ls => shuffle l (shuffles ls)

/-- The words that consist of as many words of a language as bounds allow. -/
def Bounds.repeats (bounds : Bounds) (l : Language α) : Language α :=
  {w | ∃ n, bounds.least ≤ n ∧ bounds.most.admits n = true ∧ w ∈ l ^ n}

/-- The words that an arrangement makes of the words of its parts: a choice takes those of one part,
an interleaving shuffles them, and any other arrangement keeps their order. -/
def Arrangement.words (arrangement : Arrangement) (parts : List (Language α)) : Language α :=
  match arrangement with
  | .choice => parts.sum
  | .interleave => shuffles parts
  | _ => parts.prod

section

variable {bounds : Bounds} {l m : Language α} {u v w : List α}

theorem append_mem_shuffle (hu : u ∈ l) (hv : v ∈ m) : u ++ v ∈ shuffle l m :=
  ⟨u, hu, v, hv, .append u v⟩

theorem Bounds.nil_mem_repeats (h : bounds.least = 0) : [] ∈ bounds.repeats l := by
  refine ⟨0, h.le, ?_, by simp⟩
  rw [← h]
  exact bounds.ordered

theorem Bounds.mem_repeats_once (hw : w ∈ l) : w ∈ Bounds.once.repeats l := by
  refine ⟨1, le_rfl, rfl, ?_⟩
  rwa [pow_one]

end

/-! ### Letters in all words -/

/-- A language compels a letter when all its words have it. -/
def Compels (l : Language α) (a : α) : Prop := ∀ w ∈ l, a ∈ w

section

variable {l m : Language α} {ls : List (Language α)} {a : α}

theorem compels_singleton (a : α) : Compels {[a]} a := by
  intro w hw
  obtain rfl : w = [a] := hw
  exact List.mem_singleton_self a

theorem Compels.mul_left (h : Compels l a) (m : Language α) : Compels (l * m) a := by
  intro w hw
  obtain ⟨u, hu, v, -, rfl⟩ := Language.mem_mul.mp hw
  exact List.mem_append_left v (h u hu)

theorem Compels.mul_right (h : Compels m a) (l : Language α) : Compels (l * m) a := by
  intro w hw
  obtain ⟨u, -, v, hv, rfl⟩ := Language.mem_mul.mp hw
  exact List.mem_append_right u (h v hv)

theorem Compels.shuffle_left (h : Compels l a) (m : Language α) : Compels (shuffle l m) a := by
  intro w hw
  obtain ⟨u, hu, v, -, hshuffle⟩ := hw
  exact hshuffle.mem_iff.mpr (Or.inl (h u hu))

theorem Compels.shuffle_right (h : Compels m a) (l : Language α) : Compels (shuffle l m) a := by
  intro w hw
  obtain ⟨u, -, v, hv, hshuffle⟩ := hw
  exact hshuffle.mem_iff.mpr (Or.inr (h v hv))

theorem Compels.prod (h : Compels l a) (hl : l ∈ ls) : Compels ls.prod a := by
  induction ls with
  | nil => exact nomatch hl
  | cons m ls ih =>
    rw [List.prod_cons]
    rcases List.mem_cons.mp hl with rfl | hl
    · exact h.mul_left _
    · exact (ih hl).mul_right m

theorem Compels.shuffles (h : Compels l a) (hl : l ∈ ls) : Compels (shuffles ls) a := by
  induction ls with
  | nil => exact nomatch hl
  | cons m ls ih =>
    rcases List.mem_cons.mp hl with rfl | hl
    · exact h.shuffle_left _
    · exact (ih hl).shuffle_right m

/-- **An arrangement compels what any of its parts does,** unless it is a choice. -/
theorem Compels.words {arrangement : Arrangement} (h : Compels l a) (hl : l ∈ ls)
    (hchoice : arrangement ≠ .choice) : Compels (arrangement.words ls) a := by
  cases arrangement with
  | choice => exact absurd rfl hchoice
  | interleave => exact h.shuffles hl
  | _ => exact h.prod hl

/-- **A repetition that must occur compels what its part does.** -/
theorem Compels.repeats {bounds : Bounds} (h : Compels l a) (hbounds : 0 < bounds.least) :
    Compels (bounds.repeats l) a := by
  intro w hw
  obtain ⟨n, hleast, -, hw⟩ := hw
  obtain ⟨k, rfl⟩ : ∃ k, n = k + 1 := ⟨n - 1, by omega⟩
  rw [pow_succ'] at hw
  exact h.mul_left _ w hw

end

end MarkupGrammar
