import MarkupGrammar.Proofs.Corpus.Outcome
import MarkupGrammar.Proofs.Module.Parts

/-!
# Reading content

Content is a list of entries, and an entry may have content of its own. Reading it stops at the
first defect, wherever that is, and otherwise gives a particle for each entry, in the same tree.
This module says what the defects are and what the tree is, without the order in which they are
looked for.

An entry of a type that is not supported stands for nothing. Whatever is wrong with its bounds or
inside it is no defect, and nothing of it is kept but its type.

## Which types are supported

There are eight kinds of particles that mean something, and a ninth that stands for nothing. That
one has a word too, and an entry that has this word for a type is read like any other: its bounds
are checked and its content is kept. So the statements are about any set of supported kinds that
covers the types in the content. All nine cover every content, and the eight cover what does not use
the word of the ninth.

## Main definitions

* `Corpus.Means`, `Corpus.AreBounds`, `Corpus.HasBadBounds` — what bounds mean, and when they do not
* `Corpus.IsDefective` — content with a defect at some level
* `Corpus.Describes` — content and its particles, level by level

## Main results

* `Corpus.settles_readContent` — content is read, or it is defective
* `Corpus.read_exact` — when reading fails, and what it gives when it does not
* `Corpus.checks_unsupported` — the ninth word is not like other types
-/

namespace MarkupGrammar

namespace ParticleKind

theorem ofWord?_eq_some_iff {v : Json} {kind : ParticleKind} :
    ofWord? v = some kind ↔ v = .string kind.word := by
  constructor
  · intro h
    obtain ⟨t, ht, hfind⟩ := Option.bind_eq_some_iff.mp h
    cases v with
    | text s =>
      obtain rfl := Option.some.inj ht
      have hword := List.find?_some hfind
      exact congrArg Json.text (of_decide_eq_true hword).symm
    | _ => exact nomatch ht
  · rintro rfl
    cases kind <;> decide

theorem word_injective : Function.Injective word := by
  intro k k' h
  cases k <;> cases k' <;> first | rfl | exact absurd h (by decide)

end ParticleKind

namespace Corpus

/-! ### Readings that look for defects -/

/-- How a reading has to end that looks for a defect: with something good, and then there is none,
or with a defect, or with a fault that it has not foreseen. -/
def Settles {α : Type} (good : α → Prop) (bad : Prop) : Except ReadError α → Prop
  | .ok a => good a ∧ ¬ bad
  | .error (.corpus _) => bad
  | .error (.fault _) => True

namespace Settles

variable {α β : Type} {good : α → Prop} {good' : β → Prop} {bad bad' : Prop}

theorem congr {r : Except ReadError α} {other : α → Prop} (h : Settles good bad r)
    (hgood : ∀ a, good a → other a) (hbad : bad ↔ bad') : Settles other bad' r := by
  match r, h with
  | .ok a, h => exact ⟨hgood a h.1, mt hbad.mpr h.2⟩
  | .error (.corpus e), h => exact hbad.mp h
  | .error (.fault f), h => trivial

/-- A chain looks for the defects that each of its readings looks for. -/
theorem bind {r : Except ReadError α} {f : α → Except ReadError β} (hr : Settles good bad r)
    (hf : ∀ a, good a → Settles good' bad' (f a)) : Settles good' (bad ∨ bad') (r >>= f) := by
  match r, hr with
  | .ok a, hr =>
    rw [ok_bind]
    exact (hf a hr.1).congr (fun _ h => h) (or_iff_right hr.2).symm
  | .error (.corpus e), hr => exact Or.inl hr
  | .error (.fault f), hr => trivial

end Settles

/-! ### Bounds -/

/-- What a bound means that is not unlimited: one where it is missing or empty, and else the integer
that it can be read as. A truth value is no integer. -/
inductive Means : Json → Int → Prop where
  | missing : Means .null 1
  | blank : Means (.text []) 1
  | written {v : Json} {i : Int} (hbool : ∀ b, v ≠ .bool b) (hinteger : v.integer = .ok i) :
      Means v i

/-- The word for a bound that is unlimited. -/
def unboundedWord : Json := .string "unbounded"

/-- What is wrong with the bounds of an entry. -/
inductive HasBadBounds (least most : Json) : Prop where
  | leastUnbounded (h : least = unboundedWord)
  | leastUnread (h : ∀ i, ¬ Means least i)
  | leastNegative {i : Int} (h : Means least i) (hi : i < 0)
  | mostUnread (hword : most ≠ unboundedWord) (h : ∀ i, ¬ Means most i)
  | mostNegative {i : Int} (h : Means most i) (hi : i < 0)
  | crossed {i j : Int} (hleast : Means least i) (hmost : Means most j) (h : j < i)

/-- The limit that a bound means. Only an upper bound may be unlimited. -/
def IsLimit (allowUnbounded : Bool) (v : Json) (limit : Limit) : Prop :=
  allowUnbounded = true ∧ v = unboundedWord ∧ limit = .unbounded ∨
    ∃ n : Nat, Means v n ∧ limit = .finite n

/-- The bounds that two values mean. -/
def AreBounds (least most : Json) (bounds : Bounds) : Prop :=
  IsLimit false least (.finite bounds.least) ∧ IsLimit true most bounds.most

theorem Means.unique {v : Json} {i j : Int} (hi : Means v i) (hj : Means v j) : i = j := by
  cases hi with
  | missing =>
    cases hj with
    | missing => rfl
    | written _ hinteger => exact nomatch hinteger
  | blank =>
    cases hj with
    | blank => rfl
    | written _ hinteger => exact nomatch hinteger
  | written _ hinteger =>
    cases hj with
    | missing => exact nomatch hinteger
    | blank => exact nomatch hinteger
    | written _ hinteger' => exact Except.ok.inj (hinteger.symm.trans hinteger')

theorem not_means_unboundedWord (i : Int) : ¬ Means unboundedWord i := by
  intro h
  cases h with
  | written _ hinteger => exact nomatch hinteger

/-- A bound that is read is a limit, and one that is not means none. -/
theorem settles_readOccurs (context field : Text) (allowUnbounded : Bool) (raw : Json) :
    Settles (IsLimit allowUnbounded raw) (∀ limit, ¬ IsLimit allowUnbounded raw limit)
      (readOccurs context field allowUnbounded raw) := by
  have hgood {limit : Limit} (h : IsLimit allowUnbounded raw limit) :
      Settles (IsLimit allowUnbounded raw) (∀ limit, ¬ IsLimit allowUnbounded raw limit)
        (.ok limit) := ⟨h, fun hnone => hnone limit h⟩
  unfold readOccurs
  split
  · exact hgood (Or.inr ⟨1, .missing, rfl⟩)
  · exact hgood (Or.inr ⟨1, .blank, rfl⟩)
  · next b =>
    rintro limit (⟨-, hword, -⟩ | ⟨n, hmeans, -⟩)
    · exact nomatch hword
    · cases hmeans with
      | written hbool => exact hbool b rfl
  · next hnull hblank hbool =>
    by_cases hword : (allowUnbounded && raw == Json.string "unbounded") = true
    · rw [if_pos hword]
      obtain ⟨hallow, hword⟩ := Bool.and_eq_true_iff.mp hword
      exact hgood (Or.inl ⟨hallow, (Json.beq_string_iff raw _).mp hword, rfl⟩)
    · rw [if_neg hword]
      have hlimit {limit : Limit} (h : IsLimit allowUnbounded raw limit) :
          ∃ n : Nat, raw.integer = .ok n := by
        rcases h with ⟨hallow, hunbounded, -⟩ | ⟨n, hmeans, -⟩
        · exact absurd (Bool.and_eq_true_iff.mpr
            ⟨hallow, (Json.beq_string_iff raw _).mpr hunbounded⟩) hword
        · cases hmeans with
          | missing => exact absurd rfl hnull
          | blank => exact absurd rfl hblank
          | written _ hinteger => exact ⟨n, hinteger⟩
      split
      · next n hinteger => exact hgood (Or.inr ⟨n, .written hbool hinteger, rfl⟩)
      · next n hinteger =>
        intro limit h
        obtain ⟨m, hm⟩ := hlimit h
        exact nomatch hinteger.symm.trans hm
      · trivial
      · next f _ hinteger =>
        intro limit h
        obtain ⟨m, hm⟩ := hlimit h
        exact nomatch hinteger.symm.trans hm

theorem IsLimit.unique {allowUnbounded : Bool} {v : Json} {limit limit' : Limit}
    (h : IsLimit allowUnbounded v limit) (h' : IsLimit allowUnbounded v limit') :
    limit = limit' := by
  rcases h with ⟨-, rfl, rfl⟩ | ⟨n, hn, rfl⟩ <;> rcases h' with ⟨-, hword, rfl⟩ | ⟨m, hm, rfl⟩
  · rfl
  · exact absurd hm (not_means_unboundedWord m)
  · exact absurd (hword ▸ hn) (not_means_unboundedWord n)
  · rw [Int.ofNat_inj.mp (hn.unique hm)]

theorem means_of_isLimit {allowUnbounded : Bool} {v : Json} {n : Nat}
    (h : IsLimit allowUnbounded v (.finite n)) : Means v n := by
  rcases h with ⟨-, -, h⟩ | ⟨m, hmeans, h⟩
  · exact nomatch h
  · obtain rfl := Limit.finite.inj h
    exact hmeans

/-- A value that means no limit is the word of another kind of bound, or it cannot be read, or it is
negative. -/
theorem forall_not_isLimit_iff {allowUnbounded : Bool} {v : Json} :
    (∀ limit, ¬ IsLimit allowUnbounded v limit) ↔ ¬ (allowUnbounded = true ∧ v = unboundedWord) ∧
      ((∀ i, ¬ Means v i) ∨ ∃ i, Means v i ∧ i < 0) := by
  constructor
  · intro h
    refine ⟨fun hword => h .unbounded (Or.inl ⟨hword.1, hword.2, rfl⟩), ?_⟩
    by_cases hmeans : ∃ i, Means v i
    · obtain ⟨i, hi⟩ := hmeans
      refine Or.inr ⟨i, hi, Int.not_le.mp fun hnonneg => ?_⟩
      obtain ⟨n, rfl⟩ := Int.eq_ofNat_of_zero_le hnonneg
      exact h (.finite n) (Or.inr ⟨n, hi, rfl⟩)
    · exact Or.inl fun i hi => hmeans ⟨i, hi⟩
  · rintro ⟨hword, hbad⟩ limit (⟨hallow, hv, -⟩ | ⟨n, hn, -⟩)
    · exact hword ⟨hallow, hv⟩
    · rcases hbad with hunread | ⟨i, hi, hnegative⟩
      · exact hunread n hn
      · have := hi.unique hn
        omega

/-- Bounds are bad when one of them means no limit, or when they are crossed. -/
theorem hasBadBounds_iff {least most : Json} :
    HasBadBounds least most ↔ (∀ limit, ¬ IsLimit false least limit) ∨
      (∀ limit, ¬ IsLimit true most limit) ∨
      ∃ n m, IsLimit false least (.finite n) ∧ IsLimit true most (.finite m) ∧ m < n := by
  rw [forall_not_isLimit_iff, forall_not_isLimit_iff]
  have hfalse : ¬ (false = true ∧ least = unboundedWord) := fun h => Bool.false_ne_true h.1
  constructor
  · intro h
    cases h with
    | leastUnbounded h => exact Or.inl ⟨hfalse, Or.inl (h ▸ not_means_unboundedWord)⟩
    | leastUnread h => exact Or.inl ⟨hfalse, Or.inl h⟩
    | @leastNegative i h hi => exact Or.inl ⟨hfalse, Or.inr ⟨i, h, hi⟩⟩
    | mostUnread hword h => exact Or.inr (Or.inl ⟨fun h => hword h.2, Or.inl h⟩)
    | @mostNegative i h hi =>
      refine Or.inr (Or.inl ⟨fun hword => ?_, Or.inr ⟨i, h, hi⟩⟩)
      exact not_means_unboundedWord i (hword.2 ▸ h)
    | @crossed i j hleast hmost h =>
      rcases Int.lt_or_le i 0 with hi | hi
      · exact Or.inl ⟨hfalse, Or.inr ⟨i, hleast, hi⟩⟩
      · rcases Int.lt_or_le j 0 with hj | hj
        · refine Or.inr (Or.inl ⟨fun hword => ?_, Or.inr ⟨j, hmost, hj⟩⟩)
          exact not_means_unboundedWord j (hword.2 ▸ hmost)
        · obtain ⟨n, rfl⟩ := Int.eq_ofNat_of_zero_le hi
          obtain ⟨m, rfl⟩ := Int.eq_ofNat_of_zero_le hj
          exact Or.inr (Or.inr ⟨n, m, Or.inr ⟨n, hleast, rfl⟩, Or.inr ⟨m, hmost, rfl⟩,
            Int.ofNat_lt.mp h⟩)
  · rintro (⟨-, hunread | ⟨i, hi, hnegative⟩⟩ | ⟨hword, hunread | ⟨i, hi, hnegative⟩⟩ |
      ⟨n, m, hn, hm, hlt⟩)
    · exact .leastUnread hunread
    · exact .leastNegative hi hnegative
    · exact .mostUnread (fun h => hword ⟨rfl, h⟩) hunread
    · exact .mostNegative hi hnegative
    · exact .crossed (means_of_isLimit hn) (means_of_isLimit hm) (Int.ofNat_lt.mpr hlt)

/-- **Bounds are read, or they are bad.** -/
theorem settles_readBounds (context : Text) (least most : Json) :
    Settles (AreBounds least most) (HasBadBounds least most) (readBounds context least most) := by
  refine Settles.congr ?_ (fun _ h => h) hasBadBounds_iff.symm
  refine (settles_readOccurs context _ false least).bind fun l hl =>
    (settles_readOccurs context _ true most).bind fun limit hlimit => ?_
  obtain ⟨n, rfl⟩ : ∃ n, l = .finite n := by
    rcases hl with ⟨hfalse, -⟩ | ⟨n, -, rfl⟩
    · cases hfalse
    · exact ⟨n, rfl⟩
  dsimp only
  by_cases hadmits : limit.admits n = true
  · rw [Bounds.ofLimits, dif_pos hadmits]
    refine ⟨⟨hl, hlimit⟩, ?_⟩
    rintro ⟨n', m, hn', hm, hlt⟩
    obtain rfl := Limit.finite.inj (hl.unique hn')
    obtain rfl := hlimit.unique hm
    exact Nat.not_lt.mpr (of_decide_eq_true hadmits) hlt
  · rw [Bounds.ofLimits, dif_neg hadmits]
    cases limit with
    | unbounded => exact absurd rfl hadmits
    | finite m => exact ⟨n, m, hl, hlimit, Nat.not_le.mp fun h => hadmits (decide_eq_true h)⟩

/-! ### Entries -/

section

variable (supported : ParticleKind → Prop)

mutual

/-- Content has a defect: it is there and no list, or one of its entries has one. -/
inductive IsDefective : Json → Prop where
  | notAList {raw : Json} (hnull : raw ≠ .null) (hlist : ∀ entries, raw ≠ .array entries) :
      IsDefective raw
  | entry {entries : List Json} {entry : Json} (hentry : entry ∈ entries)
      (h : IsDefectiveEntry entry) : IsDefective (.array entries)

/-- An entry has a defect: it is no object, or it is of a supported type and has bad bounds or
content with a defect. -/
inductive IsDefectiveEntry : Json → Prop where
  | notAnObject {entry : Json} (h : ∀ fields, entry ≠ .object fields) : IsDefectiveEntry entry
  | bounds {entry : Json} {kind : ParticleKind} (hkind : supported kind)
      (htype : valueAt entry ["type"] = .string kind.word)
      (h : HasBadBounds (valueAt entry ["minOccurs"]) (valueAt entry ["maxOccurs"])) :
      IsDefectiveEntry entry
  | content {entry : Json} {kind : ParticleKind} (hkind : supported kind)
      (htype : valueAt entry ["type"] = .string kind.word)
      (h : IsDefective (valueAt entry ["content"])) : IsDefectiveEntry entry

end

mutual

/-- Content and its particles. Where there is no content there are none. -/
inductive Describes : Json → List (Particle Json) → Prop where
  | missing : Describes .null []
  | list {entries : List Json} {particles : List (Particle Json)}
      (h : DescribesAll entries particles) : Describes (.array entries) particles

/-- Entries and their particles, one for each and in the same order. -/
inductive DescribesAll : List Json → List (Particle Json) → Prop where
  | nil : DescribesAll [] []
  | cons {entry : Json} {entries : List Json} {p : Particle Json} {ps : List (Particle Json)}
      (hentry : DescribesOne entry p) (hentries : DescribesAll entries ps) :
      DescribesAll (entry :: entries) (p :: ps)

/-- An entry and its particle. Of an entry whose type is not supported only the type is kept. -/
inductive DescribesOne : Json → Particle Json → Prop where
  | unknown {fields : List (Text × Json)}
      (htype : ∀ kind, supported kind → valueAt (.object fields) ["type"] ≠ .string kind.word) :
      DescribesOne (.object fields)
        (Particle.opaqueOf (valueAt (.object fields) ["type"]).nameOrNone)
  | known {entry : Json} {kind : ParticleKind} {bounds : Bounds} {content : List (Particle Json)}
      (hkind : supported kind) (htype : valueAt entry ["type"] = .string kind.word)
      (hbounds : AreBounds (valueAt entry ["minOccurs"]) (valueAt entry ["maxOccurs"]) bounds)
      (hcontent : Describes (valueAt entry ["content"]) content) :
      DescribesOne entry ⟨kind, (valueAt entry ["key"]).nameOrNone, bounds, content⟩

end

/-- The kinds that are supported cover the types of the particles in content. -/
def Covers (raw : Json) : Prop :=
  ∀ p, HoldsParticle raw p → ∀ kind, valueAt p ["type"] = .string kind.word → supported kind

/-- The same for an entry. -/
def CoversEntry (entry : Json) : Prop :=
  ∀ kind, valueAt entry ["type"] = .string kind.word →
    supported kind ∧ Covers supported (valueAt entry ["content"])

end

variable {supported : ParticleKind → Prop}

theorem Covers.entry {entries : List Json} (h : Covers supported (.array entries)) {entry : Json}
    (hentry : entry ∈ entries) : CoversEntry supported entry := by
  intro kind htype
  have hword := ParticleKind.ofWord?_eq_some_iff.mpr htype
  exact ⟨h entry (.listed hentry hword) kind htype,
    fun q hq => h q (.nested hentry hword hq)⟩

theorem isDefective_array_iff {entries : List Json} :
    IsDefective supported (.array entries) ↔
      ∃ entry ∈ entries, IsDefectiveEntry supported entry := by
  constructor
  · intro h
    cases h with
    | notAList hnull hlist => exact absurd rfl (hlist entries)
    | entry hentry h => exact ⟨_, hentry, h⟩
  · rintro ⟨entry, hentry, h⟩
    exact .entry hentry h

/-- An entry of a supported type has the defects of its bounds and of its content. -/
theorem isDefectiveEntry_iff {fields : List (Text × Json)} {kind : ParticleKind}
    (hkind : supported kind) (htype : valueAt (.object fields) ["type"] = .string kind.word) :
    IsDefectiveEntry supported (.object fields) ↔
      HasBadBounds (valueAt (.object fields) ["minOccurs"])
        (valueAt (.object fields) ["maxOccurs"]) ∨
      IsDefective supported (valueAt (.object fields) ["content"]) := by
  constructor
  · intro h
    cases h with
    | notAnObject h => exact absurd rfl (h fields)
    | bounds _ _ h => exact Or.inl h
    | content _ _ h => exact Or.inr h
  · rintro (h | h)
    · exact .bounds hkind htype h
    · exact .content hkind htype h

/-! ### Reading -/

mutual

/-- **Content is read, or it is defective,** at every depth. -/
theorem settles_readContent (context : Text) {raw : Json} (hraw : raw ≠ .null)
    (hcovers : Covers supported raw) :
    Settles (Describes supported raw) (IsDefective supported raw)
      (Particle.readContent context raw) := by
  cases raw with
  | array entries =>
    rw [Particle.readContent]
    exact (settles_readAll context entries fun e he => hcovers.entry he).congr
      (fun _ h => .list h) isDefective_array_iff.symm
  | null => exact absurd rfl hraw
  | _ => exact IsDefective.notAList hraw nofun

theorem settles_readAll (context : Text) (entries : List Json)
    (hcovers : ∀ entry ∈ entries, CoversEntry supported entry) :
    Settles (DescribesAll supported entries)
      (∃ entry ∈ entries, IsDefectiveEntry supported entry)
      (Particle.readAll context entries) := by
  cases entries with
  | nil =>
    rw [Particle.readAll]
    exact ⟨.nil, by simp⟩
  | cons entry entries =>
    obtain ⟨hentry, hentries⟩ := List.forall_mem_cons.mp hcovers
    rw [Particle.readAll]
    refine Settles.congr ((settles_readOne context entry hentry).bind fun p hp =>
      (settles_readAll context entries hentries).bind fun ps hps =>
        (⟨.cons hp hps, id⟩ : Settles _ False (.ok (p :: ps)))) (fun _ h => h) ?_
    simp

theorem settles_readOne (context : Text) (entry : Json) (hcovers : CoversEntry supported entry) :
    Settles (DescribesOne supported entry) (IsDefectiveEntry supported entry)
      (Particle.readOne context entry) := by
  cases entry with
  | object fields =>
    have hfield (key : String) : (Json.lookup (Text.ofString key) fields).getD .null
      = valueAt (.object fields) [key] := rfl
    rw [Particle.readOne]
    simp only [hfield]
    cases htype : ParticleKind.ofWord? (valueAt (.object fields) ["type"]) with
    | none =>
      have hunknown (kind : ParticleKind) :
          valueAt (.object fields) ["type"] ≠ .string kind.word := fun h =>
        nomatch htype.symm.trans (ParticleKind.ofWord?_eq_some_iff.mpr h)
      refine ⟨.unknown fun kind _ => hunknown kind, fun h => ?_⟩
      cases h with
      | notAnObject h => exact h fields rfl
      | @bounds _ kind _ h _ => exact hunknown kind h
      | @content _ kind _ h _ => exact hunknown kind h
    | some kind =>
      have hword := ParticleKind.ofWord?_eq_some_iff.mp htype
      obtain ⟨hkind, hcontent⟩ := hcovers kind hword
      refine Settles.congr ((settles_readBounds context _ _).bind fun bounds hbounds =>
        (settles_readField context fields hcontent).bind fun content hcontent =>
          (⟨.known hkind hword hbounds hcontent, id⟩ : Settles _ False (.ok _)))
        (fun _ h => h) ?_
      rw [isDefectiveEntry_iff hkind hword, or_false]
      rfl
  | _ => exact IsDefectiveEntry.notAnObject nofun

theorem settles_readField (context : Text) (fields : List (Text × Json))
    (hcovers : Covers supported
      ((Json.lookup (Text.ofString "content") fields).getD .null)) :
    Settles (Describes supported ((Json.lookup (Text.ofString "content") fields).getD .null))
      (IsDefective supported ((Json.lookup (Text.ofString "content") fields).getD .null))
      (Particle.readField context fields) := by
  have hnone : Settles (Describes supported .null) (IsDefective supported .null)
      (.ok [] : Except ReadError (List (Particle Json))) := by
    refine ⟨.missing, fun h => ?_⟩
    cases h with
    | notAList hnull _ => exact hnull rfl
  cases fields with
  | nil =>
    rw [Particle.readField]
    exact hnone
  | cons e fields =>
    obtain ⟨key, value⟩ := e
    rw [Json.lookup] at hcovers ⊢
    by_cases hkey : key = Text.ofString "content"
    · rw [if_pos hkey, Option.getD_some] at hcovers ⊢
      cases value with
      | null => simpa only [Particle.readField, if_pos hkey] using hnone
      | _ =>
        simp only [Particle.readField, if_pos hkey]
        exact settles_readContent context nofun hcovers
    · have hskip : Particle.readField context ((key, value) :: fields)
          = Particle.readField context fields := by
        cases value <;> simp only [Particle.readField, if_neg hkey]
      rw [if_neg hkey] at hcovers ⊢
      rw [hskip]
      exact settles_readField context fields hcovers

end

/-- No bound of a particle in content is an infinity. -/
def HasFiniteBounds (raw : Json) : Prop :=
  ∀ p, HoldsParticle raw p → ∀ key ∈ boundKeys, ∀ isNegative,
    valueAt p [key] ≠ .float (.infinity isNegative)

/-- With finite bounds there is no fault that has not been foreseen. -/
theorem readContent_ne_fault {context : Text} {raw : Json} (hfinite : HasFiniteBounds raw)
    (f : Fault) : Particle.readContent context raw ≠ .error (.fault f) := by
  intro h
  obtain ⟨x, v, ⟨p, hp, key, hkey, rfl, rfl⟩, hmet, -⟩ :=
    (reliesOn_readContent context raw).unmet h rfl
  obtain ⟨isNegative, hinfinity⟩ := exists_infinity hmet
  exact hfinite p hp key hkey isNegative hinfinity

/-- **Reading content.** Let the supported kinds cover the types in the content, and no bound be an
infinity. Then reading fails with a defect when the content is defective, and only then. Else it
gives nothing where no content is declared, and where it is, a particle for each entry, level by
level. -/
theorem read_exact (supported : ParticleKind → Prop) (context : Text) (raw : Json)
    (hcovers : Covers supported raw) (hfinite : HasFiniteBounds raw) :
    ((∃ e, Particle.read context raw = .error (.corpus e)) ↔ IsDefective supported raw) ∧
    (¬ IsDefective supported raw →
      raw = .null ∧ Particle.read context raw = .ok none ∨
      raw ≠ .null ∧ ∃ particles, Particle.read context raw = .ok (some particles) ∧
        Describes supported raw particles) := by
  by_cases hraw : raw = .null
  · obtain rfl := hraw
    have hnone : ¬ IsDefective supported .null := by
      intro h
      cases h with
      | notAList hnull _ => exact hnull rfl
    exact ⟨iff_of_false (fun ⟨_, h⟩ => nomatch h) hnone, fun _ => Or.inl ⟨rfl, rfl⟩⟩
  · have hread : Particle.read context raw = (Particle.readContent context raw).map some := by
      cases raw with
      | null => exact absurd rfl hraw
      | _ => rfl
    have hsettles := settles_readContent context hraw hcovers
    rw [hread]
    match hcontent : Particle.readContent context raw, hsettles with
    | .ok particles, ⟨hdescribes, hnot⟩ =>
      exact ⟨iff_of_false (fun ⟨_, h⟩ => nomatch h) hnot,
        fun _ => Or.inr ⟨hraw, particles, rfl, hdescribes⟩⟩
    | .error (.corpus e), hbad => exact ⟨iff_of_true ⟨e, rfl⟩ hbad, absurd hbad⟩
    | .error (.fault f), _ => exact absurd hcontent (readContent_ne_fault hfinite f)

theorem not_holdsParticle_null {p : Json} : ¬ HoldsParticle .null p := by
  intro h
  cases h

/-- An entry of an unknown type, with a bound that cannot be read and content that is no list. -/
def otherEntry : Json :=
  .ofFields [("type", .string "anyElement"), ("minOccurs", .string "some"), ("content", .int 3)]

/-- A group of texts. -/
def groupEntry : Json :=
  .ofFields [("type", .string "sequence"), ("minOccurs", .string ""), ("content", .array
    [.ofFields [("type", .string "textNode"), ("maxOccurs", .int 2)]])]

/-- The group is read, and of the other entry only the type. -/
theorem read_exact_groupEntry :
    ¬ IsDefective (· ≠ .unsupported) (.array [otherEntry, groupEntry]) ∧
      Describes (· ≠ .unsupported) (.array [otherEntry, groupEntry])
        [Particle.opaqueOf (some (.string "anyElement")),
         ⟨.sequence, none, Bounds.once, [⟨.textNode, none, ⟨1, .finite 2, rfl⟩, []⟩]⟩] := by
  have hheld : ∀ p, HoldsParticle (.array [otherEntry, groupEntry]) p →
      p = groupEntry ∨ p = .ofFields [("type", .string "textNode"), ("maxOccurs", .int 2)] := by
    intro p hp
    obtain ⟨q, hq, ⟨kind, hkind⟩, hp⟩ := holdsParticle_array_iff.mp hp
    rcases List.mem_cons.mp hq with rfl | hq
    · have hnone : ParticleKind.ofWord? (valueAt otherEntry ["type"]) = none := by decide
      cases hnone.symm.trans hkind
    · obtain rfl := List.mem_singleton.mp hq
      refine hp.imp id fun hp => ?_
      obtain ⟨r, hr, -, hp⟩ := holdsParticle_array_iff.mp (show HoldsParticle (.array
        [.ofFields [("type", .string "textNode"), ("maxOccurs", .int 2)]]) p from hp)
      obtain rfl := List.mem_singleton.mp hr
      rcases hp with rfl | hp
      · rfl
      · exact absurd hp not_holdsParticle_null
  have hcovers : Covers (· ≠ .unsupported) (.array [otherEntry, groupEntry]) := by
    rintro p hp kind htype rfl
    rcases hheld p hp with rfl | rfl
    · exact absurd (Json.string_injective htype) (by decide)
    · exact absurd (Json.string_injective htype) (by decide)
  have hfinite : HasFiniteBounds (.array [otherEntry, groupEntry]) := by
    intro p hp key hkey isNegative h
    simp only [boundKeys, List.mem_cons, List.not_mem_nil, or_false] at hkey
    rcases hheld p hp with rfl | rfl <;> rcases hkey with rfl | rfl <;> cases h
  have hread : Particle.read [] (.array [otherEntry, groupEntry]) = .ok (some
      [Particle.opaqueOf (some (.string "anyElement")),
       ⟨.sequence, none, Bounds.once, [⟨.textNode, none, ⟨1, .finite 2, rfl⟩, []⟩]⟩]) := rfl
  obtain ⟨hdefective, hdescribes⟩ := read_exact _ [] _ hcovers hfinite
  have hnot : ¬ IsDefective (· ≠ .unsupported) (.array [otherEntry, groupEntry]) := fun h => by
    obtain ⟨e, he⟩ := hdefective.mpr h
    cases hread.symm.trans he
  rcases hdescribes hnot with ⟨hnull, -⟩ | ⟨-, particles, hparticles, h⟩
  · cases hnull
  · obtain rfl := Option.some.inj (Except.ok.inj (hread.symm.trans hparticles))
    exact ⟨hnot, h⟩

/-- **The ninth word is not like other types.** An entry of the type that is called unsupported is
refused for its bounds, though its type is none of those that are supported. -/
theorem checks_unsupported : ¬ ∀ (context : Text) (raw : Json), HasFiniteBounds raw →
    ((∃ e, Particle.read context raw = .error (.corpus e)) ↔
      IsDefective (· ≠ .unsupported) raw) := by
  intro h
  have hfinite : HasFiniteBounds (.array
      [.ofFields [("type", .string "unsupported"), ("minOccurs", .string "x")]]) := by
    intro p hp key hkey isNegative hinfinity
    obtain ⟨q, hq, -, hp⟩ := holdsParticle_array_iff.mp hp
    obtain rfl := List.mem_singleton.mp hq
    rcases hp with rfl | hp
    · simp only [boundKeys, List.mem_cons, List.not_mem_nil, or_false] at hkey
      rcases hkey with rfl | rfl <;> cases hinfinity
    · exact not_holdsParticle_null hp
  have hdefective := (h [] _ hfinite).mp ⟨_, rfl⟩
  obtain ⟨entry, hentry, hdefective⟩ := isDefective_array_iff.mp hdefective
  obtain rfl := List.mem_singleton.mp hentry
  have hword {kind : ParticleKind} (htype : Json.string "unsupported" = .string kind.word) :
      kind = .unsupported := by
    have hsame : ParticleKind.unsupported.word = kind.word := Json.string_injective htype
    exact (ParticleKind.word_injective hsame).symm
  cases hdefective with
  | notAnObject h => exact h _ rfl
  | bounds hkind htype _ => exact hkind (hword htype)
  | content hkind htype _ => exact hkind (hword htype)

end Corpus

end MarkupGrammar
