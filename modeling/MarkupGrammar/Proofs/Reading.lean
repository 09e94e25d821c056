import MarkupGrammar.Json.Basic
import Mathlib.Data.List.Forall2

/-!
# Readings that may fail

A reading is a chain of steps each of which may fail. When the whole has gone through, so have the
steps, and what every step keeps the whole has kept. When each entry of a list is read as it was
written, the list is.

## Main results

* `exists_of_bind_eq_ok` — a chain that has gone through, taken apart
* `foldlM_keeps_of_forall` — what is kept by a reading that runs through a list
* `mapM_map_eq_ok`, `exists_mapM_eq_ok` — a list is read back entry by entry
* `foldlM_eq_mapM` — entries that are read by themselves can all be read first
* `exists_mapM_of_perm` — and in any order
-/

namespace MarkupGrammar

variable {α β ε : Type}

/-! ### Steps -/

theorem ok_bind (a : α) (f : α → Except ε β) : (Except.ok a >>= f) = f a := rfl

theorem exists_of_bind_eq_ok {x : Except ε α} {f : α → Except ε β} {b : β}
    (h : x >>= f = .ok b) : ∃ a, x = .ok a ∧ f a = .ok b := by
  cases x with
  | error e => exact nomatch h
  | ok a => exact ⟨a, rfl, h⟩

theorem exists_of_map_eq_ok {x : Except ε α} {f : α → β} {b : β}
    (h : x.map f = .ok b) : ∃ a, x = .ok a ∧ f a = b := by
  cases x with
  | error e => exact nomatch h
  | ok a => exact ⟨a, rfl, Except.ok.inj h⟩

theorem ok_of_mapError {η : Type} {x : Except ε α} {f : ε → η} {a : α}
    (h : x.mapError f = .ok a) : x = .ok a := by
  cases x with
  | error e => exact nomatch h
  | ok b => exact congrArg _ (Except.ok.inj h)

/-! ### Lists -/

/-- What each entry of a list keeps, all of them keep. -/
theorem foldlM_keeps_of_forall {p : β → Prop} {q : α → Prop}
    {f : β → α → Except ε β} (hf : ∀ {b a b'}, q a → p b → f b a = .ok b' → p b') {as : List α}
    (has : ∀ a ∈ as, q a) {b b' : β} (hb : p b) (h : as.foldlM f b = .ok b') : p b' := by
  induction as generalizing b with
  | nil =>
    obtain rfl := Except.ok.inj h
    exact hb
  | cons a as ih =>
    rw [List.foldlM_cons] at h
    obtain ⟨c, hc, h⟩ := exists_of_bind_eq_ok h
    exact ih (fun a' ha' => has a' (List.mem_cons_of_mem a ha'))
      (hf (has a List.mem_cons_self) hb hc) h

/-- What every entry keeps, all of them keep. -/
theorem foldlM_keeps {p : β → Prop} {f : β → α → Except ε β}
    (hf : ∀ {b a b'}, p b → f b a = .ok b' → p b') {as : List α} {b b' : β} (hb : p b)
    (h : as.foldlM f b = .ok b') : p b' :=
  foldlM_keeps_of_forall (q := fun _ => True) (fun _ => hf) (fun _ _ => trivial) hb h

/-- What is read of a list is read of its entries. -/
theorem exists_of_mem_mapM {f : α → Except ε β} {as : List α} {bs : List β}
    (h : as.mapM f = .ok bs) : ∀ b ∈ bs, ∃ a ∈ as, f a = .ok b := by
  induction as generalizing bs with
  | nil =>
    obtain rfl := Except.ok.inj h
    exact fun b hb => nomatch hb
  | cons a as ih =>
    rw [List.mapM_cons] at h
    obtain ⟨c, hc, h⟩ := exists_of_bind_eq_ok h
    obtain ⟨cs, hcs, h⟩ := exists_of_bind_eq_ok h
    obtain rfl := Except.ok.inj h
    intro b hb
    rcases List.mem_cons.mp hb with rfl | hb
    · exact ⟨a, List.mem_cons_self, hc⟩
    · obtain ⟨a', ha', hb⟩ := ih hcs b hb
      exact ⟨a', List.mem_cons_of_mem a ha', hb⟩

/-- Every entry of a list that is read is read. -/
theorem exists_read_of_mem_mapM {f : α → Except ε β} {as : List α} {bs : List β}
    (h : as.mapM f = .ok bs) : ∀ a ∈ as, ∃ b ∈ bs, f a = .ok b := by
  induction as generalizing bs with
  | nil => exact fun a ha => nomatch ha
  | cons a as ih =>
    rw [List.mapM_cons] at h
    obtain ⟨c, hc, h⟩ := exists_of_bind_eq_ok h
    obtain ⟨cs, hcs, h⟩ := exists_of_bind_eq_ok h
    obtain rfl := Except.ok.inj h
    refine List.forall_mem_cons.mpr ⟨⟨c, List.mem_cons_self, hc⟩, fun a' ha' => ?_⟩
    obtain ⟨b, hb, hab⟩ := ih hcs a' ha'
    exact ⟨b, List.mem_cons_of_mem c hb, hab⟩

/-- What is read of entries has what is read of each. -/
theorem forall_of_mapM_eq_ok {p : β → Prop} {f : α → Except ε β}
    (hf : ∀ {a b}, f a = .ok b → p b) {as : List α} {bs : List β} (h : as.mapM f = .ok bs) :
    ∀ b ∈ bs, p b := by
  intro b hb
  obtain ⟨a, -, hab⟩ := exists_of_mem_mapM h b hb
  exact hf hab

/-- A list can be read when each of its entries can. -/
theorem exists_mapM_of_forall {f : α → Except ε β} {as : List α}
    (h : ∀ a ∈ as, ∃ b, f a = .ok b) : ∃ bs, as.mapM f = .ok bs := by
  induction as with
  | nil => exact ⟨[], rfl⟩
  | cons a as ih =>
    obtain ⟨b, hb⟩ := h a List.mem_cons_self
    obtain ⟨bs, hbs⟩ := ih fun a' ha' => h a' (List.mem_cons_of_mem a ha')
    refine ⟨b :: bs, ?_⟩
    rw [List.mapM_cons, hb, ok_bind, hbs]
    rfl

/-- What is read of a list depends on what is read of its entries. -/
theorem mapM_congr {f g : α → Except ε β} {as : List α} (h : ∀ a ∈ as, f a = g a) :
    as.mapM f = as.mapM g := by
  induction as with
  | nil => rfl
  | cons a as ih =>
    rw [List.mapM_cons, List.mapM_cons, h a List.mem_cons_self,
      ih fun b hb => h b (List.mem_cons_of_mem a hb)]

/-- A list is read back when each entry is. -/
theorem mapM_map_eq_ok {write : α → Json} {read : Json → Except ε α} {as : List α}
    (h : ∀ a ∈ as, read (write a) = .ok a) : (as.map write).mapM read = .ok as := by
  induction as with
  | nil => rfl
  | cons a as ih =>
    rw [List.map_cons, List.mapM_cons, h a List.mem_cons_self, ok_bind,
      ih fun b hb => h b (List.mem_cons_of_mem a hb), ok_bind]
    rfl

/-- The same when writing may fail, and does not. -/
theorem exists_mapM_eq_ok {write : α → Except ε Json} {read : Json → Except ε β} (value : α → β)
    {as : List α} (h : ∀ a ∈ as, ∃ v, write a = .ok v ∧ read v = .ok (value a)) :
    ∃ vs, as.mapM write = .ok vs ∧ vs.mapM read = .ok (as.map value) := by
  induction as with
  | nil => exact ⟨[], rfl, rfl⟩
  | cons a as ih =>
    obtain ⟨v, hwrite, hread⟩ := h a List.mem_cons_self
    obtain ⟨vs, hwrites, hreads⟩ := ih fun b hb => h b (List.mem_cons_of_mem a hb)
    refine ⟨v :: vs, ?_, ?_⟩
    · rw [List.mapM_cons, hwrite, ok_bind, hwrites]
      rfl
    · rw [List.mapM_cons, hread, ok_bind, hreads]
      rfl

/-! ### Entries that are read by themselves -/

section

variable {ρ σ : Type}

/-- Entries that are read by themselves can be read first and put in their place afterwards. -/
theorem foldlM_eq_mapM {read : α → Except ε ρ} {put : σ → ρ → σ} {add : σ → α → Except ε σ}
    (h : ∀ s a, add s a = read a >>= fun r => pure (put s r)) (as : List α) (s : σ) :
    as.foldlM add s = as.mapM read >>= fun rs => pure (rs.foldl put s) := by
  induction as generalizing s with
  | nil => rfl
  | cons a as ih =>
    rw [List.foldlM_cons, List.mapM_cons, h, bind_assoc, bind_assoc]
    refine congrArg _ (funext fun r => ?_)
    rw [pure_bind, ih, bind_assoc]
    rfl

theorem mapM_cons_eq_ok_iff {read : α → Except ε ρ} {a : α} {as : List α} {rs : List ρ} :
    (a :: as).mapM read = .ok rs
      ↔ ∃ r rest, read a = .ok r ∧ as.mapM read = .ok rest ∧ rs = r :: rest := by
  rw [List.mapM_cons]
  constructor
  · intro h
    obtain ⟨r, hr, h⟩ := exists_of_bind_eq_ok h
    obtain ⟨rest, hrest, h⟩ := exists_of_bind_eq_ok h
    exact ⟨r, rest, hr, hrest, (Except.ok.inj h).symm⟩
  · rintro ⟨r, rest, hr, hrest, rfl⟩
    rw [hr, ok_bind, hrest, ok_bind]
    rfl

/-- What is read of a list is read of its entries one by one, in their order. -/
theorem forall₂_of_mapM {read : α → Except ε ρ} {as : List α} {rs : List ρ}
    (h : as.mapM read = .ok rs) : List.Forall₂ (fun a r => read a = .ok r) as rs := by
  induction as generalizing rs with
  | nil =>
    obtain rfl := Except.ok.inj h
    exact .nil
  | cons a as ih =>
    obtain ⟨r, rest, hr, hrest, rfl⟩ := mapM_cons_eq_ok_iff.mp h
    exact .cons hr (ih hrest)

/-- What is read of entries in another order is what was read of them, in that order. -/
theorem exists_mapM_of_perm {read : α → Except ε ρ} {as as' : List α} (hperm : as'.Perm as)
    {rs : List ρ} (h : as.mapM read = .ok rs) :
    ∃ rs', as'.mapM read = .ok rs' ∧ rs'.Perm rs := by
  induction hperm generalizing rs with
  | nil => exact ⟨rs, h, .refl _⟩
  | cons a _ ih =>
    obtain ⟨r, rest, hr, hrest, rfl⟩ := mapM_cons_eq_ok_iff.mp h
    obtain ⟨rest', hrest', hperm⟩ := ih hrest
    exact ⟨r :: rest', mapM_cons_eq_ok_iff.mpr ⟨r, rest', hr, hrest', rfl⟩, hperm.cons r⟩
  | swap a b as =>
    obtain ⟨r, tail, hr, htail, rfl⟩ := mapM_cons_eq_ok_iff.mp h
    obtain ⟨q, rest, hq, hrest, rfl⟩ := mapM_cons_eq_ok_iff.mp htail
    exact ⟨q :: r :: rest, mapM_cons_eq_ok_iff.mpr ⟨q, r :: rest, hq,
      mapM_cons_eq_ok_iff.mpr ⟨r, rest, hr, hrest, rfl⟩, rfl⟩, .swap r q rest⟩
  | trans _ _ ih ih' =>
    obtain ⟨rs', hrs', hperm⟩ := ih' h
    obtain ⟨rs'', hrs'', hperm'⟩ := ih hrs'
    exact ⟨rs'', hrs'', hperm'.trans hperm⟩

/-- The names of what is read are those of the entries. -/
theorem map_eq_of_mapM {read : α → Except ε ρ} {name : ρ → β} {name' : α → β}
    (h : ∀ {a r}, read a = .ok r → name r = name' a) {as : List α} {rs : List ρ}
    (hrs : as.mapM read = .ok rs) : rs.map name = as.map name' := by
  induction as generalizing rs with
  | nil =>
    obtain rfl := Except.ok.inj hrs
    rfl
  | cons a as ih =>
    obtain ⟨r, rest, hr, hrest, rfl⟩ := mapM_cons_eq_ok_iff.mp hrs
    rw [List.map_cons, List.map_cons, h hr, ih hrest]

end

end MarkupGrammar
