import MarkupGrammar.Grammar.Failure
import MarkupGrammar.Proofs.Reading

/-!
# What a reading takes for granted

Some of what can be wrong with a value is looked for, and reported in the words of the program. The
rest is taken for granted: that a value has fields, or consists of something, or can be a name. When
it is not so, reading ends with a fault that nobody has foreseen.

A reading *relies on* some expectations when all of them are met whenever it goes through, and when
an unforeseen fault is always the fault of an expectation that is not met. Then the expectations say
exactly where such a fault can come from: as long as they are met there is none. What a chain of
readings relies on is what each of them relies on.

## Main definitions

* `Expectation` — what is taken for granted of a value
* `ReliesOn` — what a reading takes for granted of the values it comes to

## Main results

* `ReliesOn.bind`, `ReliesOn.mapM`, `ReliesOn.foldlM` — chains of readings
-/

namespace MarkupGrammar

/-- What is taken for granted of a value. -/
inductive Expectation where
  /-- It is an object. -/
  | fields
  /-- It consists of something, if only of code points or keys. -/
  | elements
  /-- It is a text. -/
  | text
  /-- It can be looked up. -/
  | name
  /-- It is no infinity. -/
  | finite

namespace Expectation

/-- Whether a value is as expected. -/
def isMet : Expectation → Json → Bool
  | .fields, .object _ => true
  | .elements, .array _ => true
  | .elements, .object _ => true
  | .elements, .text _ => true
  | .text, .text _ => true
  | .name, v => v.isName
  | .finite, .float (.infinity _) => false
  | .finite, _ => true
  | _, _ => false

/-- The fault when it is not. -/
def fault : Expectation → Fault
  | .fields => .noFields
  | .finite => .infinite
  | _ => .wrongKind

end Expectation

/-- What is expected of which values. -/
abbrev Expectations := Expectation → Json → Prop

namespace Expectations

/-- One value is expected to be something. -/
def only (x : Expectation) (v : Json) : Expectations := fun x' v' => x' = x ∧ v' = v

/-- What is expected in the one place or the other. -/
def or (E F : Expectations) : Expectations := fun x v => E x v ∨ F x v

/-- What is expected because of one of some values. -/
def any {α : Type} (as : List α) (E : α → Expectations) : Expectations :=
  fun x v => ∃ a ∈ as, E a x v

end Expectations

/-- The keys of the two bounds of something that may occur several times. -/
def boundKeys : List String := ["minOccurs", "maxOccurs"]

/-- The bounds of some values are expected to be finite. For a bound that is not there there is a
default. -/
def FiniteBounds (default : Json) (held : Json → Prop) : Expectations := fun x v =>
  ∃ part, held part ∧ ∃ key ∈ boundKeys, x = .finite ∧ v = (part.field? key).getD default

section

variable {default : Json} {held held' : Json → Prop} {x : Expectation} {v : Json}

theorem finiteBounds_congr (h : ∀ part, held part ↔ held' part) :
    FiniteBounds default held x v ↔ FiniteBounds default held' x v := by
  rw [funext fun part => propext (h part)]

theorem finiteBounds_or_iff : FiniteBounds default (fun part => held part ∨ held' part) x v
    ↔ FiniteBounds default held x v ∨ FiniteBounds default held' x v := by
  simp only [FiniteBounds, or_and_right, exists_or]

theorem finiteBounds_and_iff {p : Prop} :
    FiniteBounds default (fun part => p ∧ held part) x v ↔ p ∧ FiniteBounds default held x v := by
  simp only [FiniteBounds, and_assoc, exists_and_left]

theorem not_finiteBounds : ¬ FiniteBounds default (fun _ => False) x v :=
  fun ⟨_, h, _⟩ => h

end

variable {α β ε : Type} {fault? : ε → Option Fault} {E F : Expectations}

/-- Whether a failure, if there is one, is foreseen. -/
def IsForeseen (fault? : ε → Option Fault) (r : Except ε α) : Prop :=
  ∀ e, r = .error e → fault? e = none

/-- A reading relies on expectations: when it goes through they are met, and when it fails without
foresight, one is not met and the fault is that. -/
structure ReliesOn (fault? : ε → Option Fault) (E : Expectations) (r : Except ε α) : Prop where
  met : ∀ {a}, r = .ok a → ∀ x v, E x v → x.isMet v = true
  unmet : ∀ {e f}, r = .error e → fault? e = some f → ∃ x v, E x v ∧ x.isMet v = false ∧ x.fault = f

namespace IsForeseen

theorem ok (a : α) : IsForeseen fault? (.ok a) := by
  intro e he
  cases he

theorem error {e : ε} (h : fault? e = none) : IsForeseen fault? (.error e : Except ε α) := by
  intro e' he
  obtain rfl := Except.error.inj he
  exact h

theorem bind {r : Except ε α} {f : α → Except ε β} (hr : IsForeseen fault? r)
    (hf : ∀ a, IsForeseen fault? (f a)) : IsForeseen fault? (r >>= f) := by
  cases r with
  | error e => exact .error (hr e rfl)
  | ok a => exact hf a

theorem map {r : Except ε α} (hr : IsForeseen fault? r) (f : α → β) :
    IsForeseen fault? (r.map f) := by
  cases r with
  | error e => exact .error (hr e rfl)
  | ok a => exact .ok (f a)

end IsForeseen

namespace ReliesOn

/-- Expectations may be said in other words, and ones that are met anyhow may be added or left
out. -/
theorem mono {r : Except ε α} (h : ReliesOn fault? E r)
    (hmet : ∀ x v, F x v → E x v ∨ x.isMet v = true)
    (hunmet : ∀ x v, E x v → x.isMet v = false → F x v) : ReliesOn fault? F r where
  met ha x v hF := (hmet x v hF).elim (h.met ha x v) id
  unmet he hfault := by
    obtain ⟨x, v, hE, hfalse, hf⟩ := h.unmet he hfault
    exact ⟨x, v, hunmet x v hE hfalse, hfalse, hf⟩

theorem congr {r : Except ε α} (h : ReliesOn fault? E r) (hiff : ∀ x v, E x v ↔ F x v) :
    ReliesOn fault? F r :=
  h.mono (fun x v hF => Or.inl ((hiff x v).mpr hF)) fun x v hE _ => (hiff x v).mp hE

/-- A reading all of whose failures are foreseen. -/
theorem of_isForeseen {r : Except ε α} (h : IsForeseen fault? r)
    (hmet : ∀ x v, E x v → x.isMet v = true) : ReliesOn fault? E r where
  met _ := hmet
  unmet he hf := nomatch (h _ he).symm.trans hf

/-- The same with one expectation. -/
theorem of_isMet {r : Except ε α} {x : Expectation} {v : Json} (h : IsForeseen fault? r)
    (hmet : x.isMet v = true) : ReliesOn fault? (.only x v) r := by
  refine of_isForeseen h ?_
  rintro _ _ ⟨rfl, rfl⟩
  exact hmet

/-- A failure that is foreseen, whatever is expected. -/
theorem of_foreseen_error {r : Except ε α} {e : ε} (hr : r = .error e) (he : fault? e = none) :
    ReliesOn fault? E r where
  met ha := nomatch hr.symm.trans ha
  unmet he' hf := by
    obtain rfl := Except.error.inj (hr.symm.trans he')
    exact nomatch he.symm.trans hf

/-- A value that is just there. -/
theorem ok (a : α) : ReliesOn fault? (fun _ _ => False) (.ok a) :=
  of_isForeseen (.ok a) fun _ _ => False.elim

/-- A value that is not as expected. -/
theorem of_error {r : Except ε α} {e : ε} (hr : r = .error e) {x : Expectation} {v : Json}
    (hE : E x v) (hmet : x.isMet v = false) (hfault : fault? e = some x.fault) :
    ReliesOn fault? E r where
  met ha := nomatch hr.symm.trans ha
  unmet he hf := by
    obtain rfl := Except.error.inj (hr.symm.trans he)
    exact ⟨x, v, hE, hmet, Option.some.inj (hfault.symm.trans hf)⟩

theorem bind {r : Except ε α} {f : α → Except ε β} (hr : ReliesOn fault? E r)
    (hf : ∀ a, r = .ok a → ReliesOn fault? F (f a)) : ReliesOn fault? (E.or F) (r >>= f) := by
  cases r with
  | error e =>
    refine ⟨fun hb => (nomatch hb), fun he hfault => ?_⟩
    obtain rfl := Except.error.inj he
    obtain ⟨x, v, hE, hunmet⟩ := hr.unmet rfl hfault
    exact ⟨x, v, Or.inl hE, hunmet⟩
  | ok a =>
    refine ⟨fun hb x v hEF => ?_, fun he hfault => ?_⟩
    · rcases hEF with hE | hF
      · exact hr.met rfl x v hE
      · exact (hf a rfl).met hb x v hF
    · obtain ⟨x, v, hF, hunmet⟩ := (hf a rfl).unmet he hfault
      exact ⟨x, v, Or.inr hF, hunmet⟩

/-- A step whose failures are foreseen. -/
theorem bind_of_isForeseen {r : Except ε α} {f : α → Except ε β} (hr : IsForeseen fault? r)
    (hf : ∀ a, r = .ok a → ReliesOn fault? E (f a)) : ReliesOn fault? E (r >>= f) :=
  ((of_isForeseen hr fun _ _ => False.elim).bind hf).congr fun _ _ => or_iff_right id

/-- A last step that cannot fail. -/
theorem map {r : Except ε α} (hr : ReliesOn fault? E r) (f : α → β) :
    ReliesOn fault? E (r.map f) where
  met hb := by
    obtain ⟨a, ha, -⟩ := exists_of_map_eq_ok hb
    exact hr.met ha
  unmet he hfault := by
    cases r with
    | error e => exact hr.unmet rfl (Except.error.inj he ▸ hfault)
    | ok a => cases he

theorem mapM {E : α → Expectations} {f : α → Except ε β} {as : List α}
    (hf : ∀ a ∈ as, ReliesOn fault? (E a) (f a)) :
    ReliesOn fault? (Expectations.any as E) (as.mapM f) := by
  induction as with
  | nil =>
    refine (ReliesOn.ok []).congr fun x v => ?_
    simp [Expectations.any]
  | cons a as ih =>
    obtain ⟨ha, has⟩ := List.forall_mem_cons.mp hf
    rw [List.mapM_cons]
    refine (ha.bind fun b _ => (ih has).map (b :: ·)).congr fun x v => ?_
    simp [Expectations.any, Expectations.or]

/-- A run through a list, in which nothing depends on what has been read before. -/
theorem foldlM {E : α → Expectations} {f : β → α → Except ε β} {as : List α}
    (hf : ∀ a ∈ as, ∀ b, ReliesOn fault? (E a) (f b a)) (b : β) :
    ReliesOn fault? (Expectations.any as E) (as.foldlM f b) := by
  induction as generalizing b with
  | nil =>
    refine (ReliesOn.ok b).congr fun x v => ?_
    simp [Expectations.any]
  | cons a as ih =>
    obtain ⟨ha, has⟩ := List.forall_mem_cons.mp hf
    rw [List.foldlM_cons]
    refine ((ha b).bind fun c _ => ih has c).congr fun x v => ?_
    simp [Expectations.any, Expectations.or]

end ReliesOn

end MarkupGrammar
