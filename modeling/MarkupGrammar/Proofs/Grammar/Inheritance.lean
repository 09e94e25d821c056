import MarkupGrammar.Grammar.Schema
import MarkupGrammar.Proofs.Grammar.Table

/-!
# Classes by distance

An element names classes of attributes, and classes take over from other classes, also in circles.
`Schema.ClassAt` measures how far a class is from an element by steps of inheritance, along any path
and so with as many distances as there are paths. The search for classes knows no distances: it has
a queue, a list of what it has seen, and an inheritance map from which it takes what it expands.

## The invariant

`Frontier` says where the search stands. The queue is what is left of one distance, followed by what
is known of the next; all that is nearer has been seen, and what a seen class inherits from has been
seen or is in the queue. Expanding a class keeps this, and so does passing over one that was seen
before. When nothing is left of a distance, the queue is the next one as a whole.

## Main results

* `Frontier.visit`, `Frontier.skip`, `Frontier.turn` — what one step of the search keeps
* `Searches.finds` — what a whole search finds, and in which order
* `mem_classesOf_iff`, `classesOf_pairwise` — every class at some distance, nearer ones first
-/

namespace MarkupGrammar

variable {Name : Type} [Label Name]

/-! ### Taking an entry out of any table -/

namespace Table

variable {Value : Type} {key : Name} {t r : Table Name Value} {v : Value}

theorem take?_eq_none_iff : t.take? key = none ↔ t.find? key = none := by
  induction t with
  | nil => simp [take?, find?]
  | cons e t ih =>
    obtain ⟨k, w⟩ := e
    rw [take?, find?]
    split
    · simp
    · simp [ih]

theorem find?_of_take? (h : t.take? key = some (v, r)) : t.find? key = some v := by
  induction t generalizing r v with
  | nil => exact nomatch h
  | cons e t ih =>
    obtain ⟨k, w⟩ := e
    rw [take?] at h
    rw [find?]
    split at h
    · next hk =>
      rw [if_pos hk, (Prod.mk.inj (Option.some.inj h)).1]
    · next hk =>
      obtain ⟨⟨w', r'⟩, htake, heq⟩ := Option.map_eq_some_iff.mp h
      rw [if_neg hk, ih htake, (Prod.mk.inj heq).1]

/-- The other keys keep their values. The table may have the key once more. -/
theorem find?_of_take?_of_ne [LawfulLabel Name] (hkey : Label.IsText key)
    (h : t.take? key = some (v, r)) {other : Name} (hne : other ≠ key) :
    r.find? other = t.find? other := by
  induction t generalizing r v with
  | nil => exact nomatch h
  | cons e t ih =>
    obtain ⟨k, w⟩ := e
    rw [take?] at h
    split at h
    · next hk =>
      obtain ⟨-, rfl⟩ := Prod.mk.inj (Option.some.inj h)
      obtain rfl : k = key := (hkey.beq_iff k).mp hk
      have hother : ¬ (k == other) = true := fun hk' => hne ((hkey.beq_iff' other).mp hk').symm
      rw [find?, if_neg hother]
    · obtain ⟨⟨w', r'⟩, htake, heq⟩ := Option.map_eq_some_iff.mp h
      obtain ⟨-, rfl⟩ := Prod.mk.inj heq
      rw [find?, find?, ih htake]

end Table

/-! ### Distances -/

namespace Schema

/-- What resolution may rely on: attributes and classes are named by texts. Which classes there are,
and what they inherit from, is left open. -/
structure IsTextual (s : Schema Name) : Prop where
  own : ∀ x ∈ s.elements, ∀ a ∈ x.2.attributes, Label.IsText a.name
  ofClass : ∀ x ∈ s.attributeClasses, ∀ a ∈ x.2, Label.IsText a.name
  declared : ∀ x ∈ s.elements, ∀ c ∈ s.declaredClasses x.2, Label.IsText c
  inherited : ∀ x ∈ s.inheritance, ∀ c ∈ x.2, Label.IsText c

/-- The classes that a class inherits from. -/
def parents (s : Schema Name) (c : Name) : List Name := (s.inheritance.find? c).getD []

/-- A class is at a distance from an element when it is reached from a class that the element names
by so many steps of inheritance. -/
inductive ClassAt (s : Schema Name) (e : ElementSpec Name) : Nat → Name → Prop
  | declared {c : Name} (hc : c ∈ s.declaredClasses e) : ClassAt s e 0 c
  | inherited {n : Nat} {c p : Name} (hc : ClassAt s e n c) (hp : p ∈ s.parents c) :
      ClassAt s e (n + 1) p

theorem IsTextual.isText_of_mem_parents {s : Schema Name} (h : s.IsTextual) {c p : Name}
    (hp : p ∈ s.parents c) : Label.IsText p := by
  rw [parents] at hp
  cases hfind : s.inheritance.find? c with
  | none => rw [hfind] at hp; exact nomatch hp
  | some ps =>
    rw [hfind] at hp
    obtain ⟨k, hk⟩ := Table.exists_mem_of_find? hfind
    exact h.inherited (k, ps) hk p hp

theorem IsTextual.isText_of_classAt {s : Schema Name} (h : s.IsTextual) {name : Name}
    {e : ElementSpec Name} (he : s.element? name = some e) {n : Nat} {c : Name}
    (hc : s.ClassAt e n c) : Label.IsText c := by
  cases hc with
  | declared hc =>
    obtain ⟨k, hk⟩ := Table.exists_mem_of_find? he
    exact h.declared (k, e) hk c hc
  | inherited _ hp => exact h.isText_of_mem_parents hp

/-! ### The search -/

/-- Where a search from an element stands: `near` is what is left in the queue of the classes at
distance `n`, and `far` what is known of those at the next. -/
structure Frontier (s : Schema Name) (e : ElementSpec Name) (n : Nat)
    (seen near far : List Name) : Prop where
  near_at : ∀ c ∈ near, s.ClassAt e n c
  far_at : ∀ c ∈ far, s.ClassAt e (n + 1) c
  nearer_seen : ∀ m c, m < n → s.ClassAt e m c → c ∈ seen
  met : ∀ c, s.ClassAt e n c → c ∈ seen ∨ c ∈ near
  closed : ∀ c ∈ seen, ∀ p ∈ s.parents c, p ∈ seen ∨ p ∈ near ∨ p ∈ far

variable {s : Schema Name} {e : ElementSpec Name} {n : Nat} {c : Name}
  {seen near far queue : List Name}

theorem frontier_start (s : Schema Name) (e : ElementSpec Name) :
    s.Frontier e 0 [] (s.declaredClasses e) [] where
  near_at _ hc := .declared hc
  far_at _ hc := nomatch hc
  nearer_seen _ _ hm := nomatch hm
  met _ hc := by
    cases hc with
    | declared hc => exact Or.inr hc
  closed _ hc := nomatch hc

/-- When nothing is left of a distance, all that is known of the next is all that there is. -/
theorem Frontier.turn (h : s.Frontier e n seen [] far) : s.Frontier e (n + 1) seen far [] := by
  have hseen : ∀ c, s.ClassAt e n c → c ∈ seen := fun c hc =>
    (h.met c hc).resolve_right List.not_mem_nil
  refine ⟨h.far_at, fun _ hc => (nomatch hc), fun m c hm hc => ?_, fun c hc => ?_,
    fun c hc p hp => ?_⟩
  · rcases Nat.lt_succ_iff_lt_or_eq.mp hm with hm | rfl
    · exact h.nearer_seen m c hm hc
    · exact hseen c hc
  · cases hc with
    | inherited hc hp =>
      exact (h.closed _ (hseen _ hc) c hp).imp_right fun h' => h'.resolve_left List.not_mem_nil
  · rcases h.closed c hc p hp with hp | hp | hp
    · exact Or.inl hp
    · exact nomatch hp
    · exact Or.inr (Or.inl hp)

theorem Frontier.skip (h : s.Frontier e n seen (c :: near) far) (hc : c ∈ seen) :
    s.Frontier e n seen near far where
  near_at d hd := h.near_at d (List.mem_cons_of_mem c hd)
  far_at := h.far_at
  nearer_seen := h.nearer_seen
  met d hd := by
    rcases h.met d hd with hd | hd
    · exact Or.inl hd
    · rcases List.mem_cons.mp hd with rfl | hd
      · exact Or.inl hc
      · exact Or.inr hd
  closed d hd p hp := by
    rcases h.closed d hd p hp with hp | hp | hp
    · exact Or.inl hp
    · rcases List.mem_cons.mp hp with rfl | hp
      · exact Or.inl hc
      · exact Or.inr (Or.inl hp)
    · exact Or.inr (Or.inr hp)

/-- Expanding a class appends what it inherits from, which is one step further away. -/
theorem Frontier.visit (h : s.Frontier e n seen (c :: near) far) :
    s.Frontier e n (c :: seen) near (far ++ s.parents c) where
  near_at d hd := h.near_at d (List.mem_cons_of_mem c hd)
  far_at d hd := by
    rcases List.mem_append.mp hd with hd | hd
    · exact h.far_at d hd
    · exact .inherited (h.near_at c List.mem_cons_self) hd
  nearer_seen m d hm hd := List.mem_cons_of_mem c (h.nearer_seen m d hm hd)
  met d hd := by
    rcases h.met d hd with hd | hd
    · exact Or.inl (List.mem_cons_of_mem c hd)
    · rcases List.mem_cons.mp hd with rfl | hd
      · exact Or.inl List.mem_cons_self
      · exact Or.inr hd
  closed d hd p hp := by
    rcases List.mem_cons.mp hd with rfl | hd
    · exact Or.inr (Or.inr (List.mem_append_right far hp))
    · rcases h.closed d hd p hp with hp | hp | hp
      · exact Or.inl (List.mem_cons_of_mem c hp)
      · rcases List.mem_cons.mp hp with rfl | hp
        · exact Or.inl List.mem_cons_self
        · exact Or.inr (Or.inl hp)
      · exact Or.inr (Or.inr (List.mem_append_left _ hp))

/-- A search with a queue stands somewhere. -/
def Searches (s : Schema Name) (e : ElementSpec Name) (seen queue : List Name) : Prop :=
  ∃ n near far, queue = near ++ far ∧ s.Frontier e n seen near far

/-- A search that goes on does so with a class of the distance it is at. -/
theorem Searches.uncons (h : s.Searches e seen (c :: queue)) :
    ∃ n near far, queue = near ++ far ∧ s.Frontier e n seen (c :: near) far := by
  obtain ⟨n, near, far, hqueue, hfrontier⟩ := h
  cases near with
  | nil =>
    rw [List.nil_append] at hqueue
    subst hqueue
    exact ⟨n + 1, queue, [], (List.append_nil queue).symm, hfrontier.turn⟩
  | cons d near =>
    obtain ⟨rfl, rfl⟩ := List.cons.inj hqueue
    exact ⟨n, near, far, rfl, hfrontier⟩

/-- When a search is over, every class at some distance has been seen. -/
theorem Searches.mem_seen (h : s.Searches e seen []) (hc : s.ClassAt e n c) : c ∈ seen := by
  obtain ⟨k, near, far, hqueue, hfrontier⟩ := h
  obtain ⟨rfl, rfl⟩ := List.append_eq_nil_iff.mp hqueue.symm
  induction hc with
  | declared hc =>
    rcases Nat.eq_zero_or_pos k with rfl | hk
    · exact (hfrontier.met _ (.declared hc)).resolve_right List.not_mem_nil
    · exact hfrontier.nearer_seen 0 _ hk (.declared hc)
  | inherited _ hp ih =>
    rcases hfrontier.closed _ ih _ hp with hp | hp | hp
    · exact hp
    · exact nomatch hp
    · exact nomatch hp

/-- What a search finds besides the classes seen before: nothing but classes at some distance, all
of them, and none before one that is nearer. -/
structure Finds (s : Schema Name) (e : ElementSpec Name) (seen found : List Name) : Prop where
  sound : ∀ c ∈ found, c ∉ seen ∧ ∃ n, s.ClassAt e n c
  complete : ∀ n c, s.ClassAt e n c → c ∈ seen ∨ c ∈ found
  nearest_first : found.Pairwise fun c d => ∀ n, s.ClassAt e n d → ∃ m ≤ n, s.ClassAt e m c

theorem Finds.cons {found : List Name} (h : s.Frontier e n seen (c :: near) far) (hc : c ∉ seen)
    (hfound : s.Finds e (c :: seen) found) : s.Finds e seen (c :: found) where
  sound d hd := by
    rcases List.mem_cons.mp hd with rfl | hd
    · exact ⟨hc, n, h.near_at _ List.mem_cons_self⟩
    · exact ⟨fun hseen => (hfound.sound d hd).1 (List.mem_cons_of_mem c hseen),
        (hfound.sound d hd).2⟩
  complete m d hd := by
    rcases hfound.complete m d hd with hd | hd
    · rcases List.mem_cons.mp hd with rfl | hd
      · exact Or.inr List.mem_cons_self
      · exact Or.inl hd
    · exact Or.inr (List.mem_cons_of_mem c hd)
  nearest_first := by
    refine List.pairwise_cons.mpr ⟨fun d hd m hm => ⟨n, ?_, h.near_at c List.mem_cons_self⟩,
      hfound.nearest_first⟩
    -- a class nearer than `n` would have been seen
    refine Nat.le_of_not_lt fun hlt => (hfound.sound d hd).1 ?_
    exact List.mem_cons_of_mem c (h.nearer_seen m d hlt hm)

/-- **A whole search.** The inheritance map of which parts have been taken out still says of every
class that has not been seen what it inherits from. -/
theorem Searches.finds [LawfulLabel Name] (hs : s.IsTextual) {name : Name}
    (he : s.element? name = some e) (left : Table Name (List Name))
    (hleft : ∀ c, c ∉ seen → left.find? c = s.inheritance.find? c)
    (h : s.Searches e seen queue) : s.Finds e seen (reachedClasses left seen queue) := by
  fun_induction reachedClasses left seen queue with
  | case1 left seen =>
    exact ⟨fun _ hc => (nomatch hc), fun _ _ hc => Or.inl (h.mem_seen hc), .nil⟩
  | case2 left seen c queue hseen ih =>
    obtain ⟨n, near, far, rfl, hfrontier⟩ := h.uncons
    have hc := hs.isText_of_classAt he (hfrontier.near_at c List.mem_cons_self)
    exact ih hleft ⟨n, near, far, rfl, hfrontier.skip ((hc.elem_iff seen).mp hseen)⟩
  | case3 left seen c queue hseen htake ih =>
    obtain ⟨n, near, far, rfl, hfrontier⟩ := h.uncons
    have hc := hs.isText_of_classAt he (hfrontier.near_at c List.mem_cons_self)
    have hfresh : c ∉ seen := mt (hc.elem_iff seen).mpr hseen
    have hparents : s.parents c = [] := by
      rw [parents, ← hleft c hfresh, Table.take?_eq_none_iff.mp htake]
      rfl
    have hvisit := hfrontier.visit
    rw [hparents, List.append_nil] at hvisit
    refine Finds.cons hfrontier hfresh (ih (fun d hd => ?_) ⟨n, near, far, rfl, hvisit⟩)
    exact hleft d (List.not_mem_of_not_mem_cons hd)
  | case4 left seen c queue hseen ps rest htake _ ih =>
    obtain ⟨n, near, far, rfl, hfrontier⟩ := h.uncons
    have hc := hs.isText_of_classAt he (hfrontier.near_at c List.mem_cons_self)
    have hfresh : c ∉ seen := mt (hc.elem_iff seen).mpr hseen
    have hparents : s.parents c = ps := by
      rw [parents, ← hleft c hfresh, Table.find?_of_take? htake]
      rfl
    have hvisit := hfrontier.visit
    rw [hparents] at hvisit
    refine Finds.cons hfrontier hfresh
      (ih (fun d hd => ?_) ⟨n, near, far ++ ps, List.append_assoc near far ps, hvisit⟩)
    obtain ⟨hne, hd⟩ := List.ne_and_not_mem_of_not_mem_cons hd
    rw [Table.find?_of_take?_of_ne hc htake hne]
    exact hleft d hd

/-- The classes of an element are what a search from the classes that it names finds. -/
theorem finds_classesOf [LawfulLabel Name] (hs : s.IsTextual) {name : Name}
    (he : s.element? name = some e) : s.Finds e [] (s.classesOf e) :=
  Searches.finds hs he s.inheritance (fun _ _ => rfl)
    ⟨0, s.declaredClasses e, [], (List.append_nil _).symm, frontier_start s e⟩

/-- **The classes of an element** are those at some distance. -/
theorem mem_classesOf_iff [LawfulLabel Name] (hs : s.IsTextual) {name : Name}
    (he : s.element? name = some e) (c : Name) :
    c ∈ s.classesOf e ↔ ∃ n, s.ClassAt e n c := by
  have h := finds_classesOf hs he
  exact ⟨fun hc => (h.sound c hc).2,
    fun ⟨n, hc⟩ => (h.complete n c hc).resolve_left List.not_mem_nil⟩

/-- **Nearer classes come first.** -/
theorem classesOf_pairwise [LawfulLabel Name] (hs : s.IsTextual) {name : Name}
    (he : s.element? name = some e) :
    (s.classesOf e).Pairwise fun c d => ∀ n, s.ClassAt e n d → ∃ m ≤ n, s.ClassAt e m c :=
  (finds_classesOf hs he).nearest_first

end Schema

end MarkupGrammar
