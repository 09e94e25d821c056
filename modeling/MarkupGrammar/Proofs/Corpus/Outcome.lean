import MarkupGrammar.Proofs.Corpus.Classes
import MarkupGrammar.Proofs.Corpus.Rearrangement
import MarkupGrammar.Proofs.Expectation

/-!
# How reading a corpus can end

A corpus is read, or reading stops at a defect, or it ends with a fault that nothing has foreseen.
The shape of collections, entries and particles is looked at, and a corpus in which it is wrong has
a defect. Other things are taken for granted wherever a corpus says something: that a description is
a text, that lists of classes, attributes and values consist of something, that what has fields of
its own is an object, that an entry and the classes of an element can be looked up, and that no
bound is an infinity. `Corpus.Collection.asked` and `Corpus.EntryExpects` say where. These are all:
a corpus in which they hold is read or has a defect.

What is void says nothing, whatever its kind. A particle of an unknown type stands for nothing
either, and so neither its bounds nor its content are looked at.

## Main definitions

* `Corpus.EntryExpects`, `Corpus.AttributeExpects` — what is taken for granted of an entry
* `Corpus.CorpusExpects` — what is taken for granted in a corpus

## Main results

* `Corpus.reliesOn_readContent` — content relies on the bounds of its particles
* `Corpus.cases_of_ingest` — the ways in which reading a corpus can end
-/

namespace MarkupGrammar

/-- The fault that reading has ended with, unless it was a defect. -/
def ReadError.fault? : ReadError → Option Fault
  | .corpus _ => none
  | .fault f => some f

namespace Corpus

variable {α : Type}

/-! ### Expectations -/

/-- Paths of keys with what is expected of the values that they lead to. -/
abbrev Paths := List (List String × Expectation)

/-- What stands under paths is as expected, unless it is void. -/
inductive Asked (paths : Paths) (v : Json) : Expectations where
  | intro {path : List String} {x : Expectation} (hpath : (path, x) ∈ paths)
      (hvoid : (valueAt v path).isVoid = false) : Asked paths v x (valueAt v path)

/-- The description of an entry or attribute. -/
def descriptionPaths : Paths := [(["shortDesc"], .text)]

/-- The classes of one kind. -/
def classPaths (key : String) : Paths := [(["classes"], .fields), (["classes", key], .elements)]

/-- The values of an attribute. -/
def valuePaths : Paths := [(["valList"], .fields), (["valList", "valItem"], .elements)]

/-- The datatype of an attribute. -/
def datatypePaths : Paths := [(["datatype"], .fields), (["datatype", "dataRef"], .fields)]

/-- What is taken for granted of the definition of an attribute. -/
inductive AttributeExpects (definition : Json) : Expectations where
  | self : AttributeExpects definition .fields definition
  | asked {x : Expectation} {v : Json}
      (h : Asked (valuePaths ++ datatypePaths ++ descriptionPaths) definition x v) :
      AttributeExpects definition x v

/-- The particles of a content value at any depth. A particle of an unknown type counts for
nothing, and its content neither. -/
inductive HoldsParticle : Json → Json → Prop where
  | listed {entries : List Json} {p : Json} {kind : ParticleKind} (hp : p ∈ entries)
      (hkind : ParticleKind.ofWord? (valueAt p ["type"]) = some kind) :
      HoldsParticle (.array entries) p
  | nested {entries : List Json} {p q : Json} {kind : ParticleKind} (hp : p ∈ entries)
      (hkind : ParticleKind.ofWord? (valueAt p ["type"]) = some kind)
      (hq : HoldsParticle (valueAt p ["content"]) q) : HoldsParticle (.array entries) q

/-- The collections of a corpus. -/
inductive Collection where
  | macros
  | modelClasses
  | attributeClasses
  | datatypes
  | elements
deriving DecidableEq

namespace Collection

/-- Where a collection stands. -/
def path : Collection → List String
  | .macros => ["macros"]
  | .modelClasses => ["classes", "models"]
  | .attributeClasses => ["classes", "attributes"]
  | .datatypes => ["datatypes"]
  | .elements => ["elements"]

/-- What is taken for granted under paths in an entry. -/
def asked : Collection → Paths
  | .macros => descriptionPaths
  | .modelClasses => []
  | .attributeClasses => descriptionPaths ++ classPaths "atts" ++ [(["attributes"], .elements)]
  | .datatypes => descriptionPaths
  | .elements =>
    descriptionPaths ++ classPaths "model" ++ classPaths "atts" ++ [(["attributes"], .elements)]

/-- Whether entries define attributes. -/
def definesAttributes : Collection → Bool
  | .attributeClasses => true
  | .elements => true
  | _ => false

/-- Whether entries have content. -/
def hasContent : Collection → Bool
  | .macros => true
  | .elements => true
  | _ => false

end Collection

/-- What is taken for granted of the attributes that an entry defines. -/
def AttributesExpect (entry : Json) : Expectations := fun x v =>
  ∃ definitions, itemsOf (valueAt entry ["attributes"]) = .ok definitions ∧
    Expectations.any definitions AttributeExpects x v

/-- The model classes that an entry names are expected to be names. -/
def ModelClassesExpect (entry : Json) : Expectations := fun x v =>
  ∃ names, itemsOf (valueAt entry ["classes", "model"]) = .ok names ∧
    Expectations.any names (.only .name) x v

/-- What is taken for granted of an entry of a collection. -/
inductive EntryExpects (c : Collection) (entry : Json) : Expectations where
  | name : EntryExpects c entry .name (identOf entry)
  | asked {x : Expectation} {v : Json} (h : Asked c.asked entry x v) : EntryExpects c entry x v
  | attributes {x : Expectation} {v : Json} (hc : c.definesAttributes = true)
      (h : AttributesExpect entry x v) : EntryExpects c entry x v
  | modelClasses {x : Expectation} {v : Json} (hc : c = .elements)
      (h : ModelClassesExpect entry x v) : EntryExpects c entry x v
  | content {x : Expectation} {v : Json} (hc : c.hasContent = true)
      (h : FiniteBounds .null (HoldsParticle (valueAt entry ["content"])) x v) :
      EntryExpects c entry x v

/-- What is taken for granted in a corpus. -/
inductive CorpusExpects (corpus : Json) : Expectations where
  | entry {c : Collection} {entries : List Json} {entry : Json} {x : Expectation} {v : Json}
      (hentries : entriesAt corpus c.path = .ok entries) (hentry : entry ∈ entries)
      (h : EntryExpects c entry x v) : CorpusExpects corpus x v

/-! ### Fields -/

theorem reliesOn_lift {E : Expectations} {r : Except Fault α} (h : ReliesOn some E r) :
    ReliesOn ReadError.fault? E (lift r) := by
  cases r with
  | ok a => exact .of_isForeseen (.ok a) (h.met rfl)
  | error f =>
    refine ⟨fun ha => ?_, fun he hf => ?_⟩
    · cases ha
    · obtain rfl := Except.error.inj he
      exact h.unmet rfl hf

theorem asked_cons_iff {path : List String} {x x' : Expectation} {paths : Paths} {v w : Json} :
    Asked ((path, x) :: paths) v x' w ↔
      (valueAt v path).isVoid = false ∧ Expectations.only x (valueAt v path) x' w ∨
        Asked paths v x' w := by
  constructor
  · rintro ⟨hpath, hvoid⟩
    rcases List.mem_cons.mp hpath with hpath | hpath
    · obtain ⟨rfl, rfl⟩ := Prod.mk.inj hpath
      exact Or.inl ⟨hvoid, rfl, rfl⟩
    · exact Or.inr ⟨hpath, hvoid⟩
  · rintro (⟨hvoid, rfl, rfl⟩ | ⟨hpath, hvoid⟩)
    · exact ⟨List.mem_cons_self, hvoid⟩
    · exact ⟨List.mem_cons_of_mem _ hpath, hvoid⟩

theorem not_asked_nil {v w : Json} {x : Expectation} : ¬ Asked [] v x w := by
  rintro ⟨hpath, -⟩
  cases hpath

theorem asked_append_iff {paths paths' : Paths} {v w : Json} {x : Expectation} :
    Asked (paths ++ paths') v x w ↔ Asked paths v x w ∨ Asked paths' v x w := by
  induction paths with
  | nil => simp [not_asked_nil]
  | cons e paths ih =>
    rw [List.cons_append, asked_cons_iff, asked_cons_iff, ih, or_assoc]

/-- What says nothing has nothing under its keys. -/
theorem isVoid_valueAt {v : Json} (h : v.isVoid = true) (key : String) :
    (valueAt v [key]).isVoid = true := by
  cases v with
  | object fields =>
    obtain rfl : fields = [] := List.isEmpty_iff.mp h
    rfl
  | _ => rfl

theorem reliesOn_get (key : String) (v : Json) :
    ReliesOn some (.only .fields v) (v.get key) := by
  cases v with
  | object fields => exact .of_isMet (.ok _) rfl
  | _ => exact .of_error rfl ⟨rfl, rfl⟩ rfl rfl

theorem reliesOn_elements (v : Json) : ReliesOn some (.only .elements v) v.elements := by
  cases v with
  | array _ | object _ | text _ =>
    exact .of_isMet (.ok _) rfl
  | _ => exact .of_error rfl ⟨rfl, rfl⟩ rfl rfl

/-- A value that is only looked at when it says something. -/
theorem reliesOn_unless {v : Json} {E : Expectations} {a : α} {r : Except Fault α}
    (h : ReliesOn some E r) :
    ReliesOn some (fun x w => v.isVoid = false ∧ E x w) (if v.isVoid then pure a else r) := by
  cases hvoid : v.isVoid with
  | true =>
    rw [if_pos rfl]
    exact .of_isForeseen (.ok a) fun x w hE => nomatch hE.1
  | false =>
    rw [if_neg Bool.false_ne_true]
    exact h.congr fun x w => (and_iff_right rfl).symm

/-- The same with what stands under a key of the value. -/
theorem reliesOn_unless_get {v : Json} {key : String} {x : Expectation} {a : α}
    {f : Json → Except Fault α}
    (h : ReliesOn some (fun x' w => (valueAt v [key]).isVoid = false ∧
      Expectations.only x (valueAt v [key]) x' w) (f (valueAt v [key]))) :
    ReliesOn some (fun x' w => v.isVoid = false ∧ Expectations.only .fields v x' w ∨
      (valueAt v [key]).isVoid = false ∧ Expectations.only x (valueAt v [key]) x' w)
      (if v.isVoid then pure a else v.get key >>= f) := by
  have hget : ReliesOn some _ (v.get key >>= f) := (reliesOn_get key v).bind fun w hw => by
    obtain rfl := Json.eq_of_get_eq_ok hw
    exact h
  refine (reliesOn_unless hget).congr fun x' w => ?_
  rw [Expectations.or, and_or_left]
  refine or_congr_right (and_iff_right_of_imp fun hE => ?_)
  cases hvoid : v.isVoid with
  | true => exact absurd (hE.1.symm.trans (isVoid_valueAt hvoid key)) Bool.false_ne_true
  | false => rfl

theorem reliesOn_itemsOf (v : Json) :
    ReliesOn some (fun x w => v.isVoid = false ∧ Expectations.only .elements v x w) (itemsOf v) :=
  reliesOn_unless (reliesOn_elements v)

section

variable (fields : List (Text × Json))

theorem reliesOn_collapsedField (key : String) :
    ReliesOn some (Asked [([key], .text)] (.object fields))
      ((Json.object fields).collapsedField key) := by
  have hget : (Json.object fields).get key = .ok (valueAt (.object fields) [key]) := rfl
  rw [Json.collapsedField, hget, ok_bind]
  refine (reliesOn_unless (E := .only .text (valueAt (.object fields) [key])) ?_).congr
    fun x w => ?_
  · cases valueAt (.object fields) [key] with
    | text t => exact .of_isMet (.ok _) rfl
    | _ => exact .of_error rfl ⟨rfl, rfl⟩ rfl rfl
  · rw [asked_cons_iff]
    exact (or_iff_left not_asked_nil).symm

theorem reliesOn_description :
    ReliesOn some (Asked descriptionPaths (.object fields)) (Json.object fields).description := by
  have hok {r : Except Fault (Option Text)} (h : ∃ t, r = .ok t) :
      ReliesOn some (fun _ _ => False) r := by
    obtain ⟨t, rfl⟩ := h
    exact .ok t
  refine ((reliesOn_collapsedField fields "shortDesc").bind fun short _ => hok ?_).congr
    fun x w => or_iff_left id
  cases short with
  | some t => exact ⟨_, rfl⟩
  | none =>
    have hdesc : (Json.object fields).get "desc" = .ok (valueAt (.object fields) ["desc"]) := rfl
    dsimp only
    rw [hdesc, ok_bind]
    split <;> exact ⟨_, rfl⟩

theorem reliesOn_classRefs (key : String) :
    ReliesOn some (Asked (classPaths key) (.object fields))
      (classRefs (.object fields) key) := by
  refine (reliesOn_unless_get (reliesOn_itemsOf _)).congr fun x w => ?_
  rw [classPaths, asked_cons_iff, asked_cons_iff]
  exact or_congr_right (or_iff_left not_asked_nil).symm

/-! ### Attributes -/

theorem reliesOn_values :
    ReliesOn some (Asked valuePaths (.object fields)) (do
        let valueList := valueAt (.object fields) ["valList"]
        if valueList.isVoid then return ([], true)
        let items ← itemsOf (← valueList.get "valItem")
        let type := (valueList.field? "type").getD (Json.string "closed")
        return (listedValues items, type == Json.string "closed")) := by
  have hitems {v : Json} (f : List Json → List Json × Bool) :=
    ((reliesOn_itemsOf v).bind fun items _ => .ok (f items)).congr fun x w => or_iff_left id
  refine (reliesOn_unless_get (hitems _)).congr fun x w => ?_
  rw [valuePaths, asked_cons_iff, asked_cons_iff]
  exact or_congr_right (or_iff_left not_asked_nil).symm

theorem reliesOn_reference (reference : Json) :
    ReliesOn some (.only .fields reference) (do
      let key ← reference.get "key"
      if !key.isVoid then return some key
      let name ← reference.get "name"
      return name.unlessVoid : Except Fault (Option Json)) := by
  cases reference with
  | object fields =>
    refine .of_isMet (IsForeseen.bind (.ok _) fun key => ?_) rfl
    split
    · exact .ok _
    · exact IsForeseen.bind (.ok _) fun name => .ok _
  | _ => exact .of_error rfl ⟨rfl, rfl⟩ rfl rfl

theorem reliesOn_datatypeOf :
    ReliesOn some (Asked datatypePaths (.object fields)) (datatypeOf (.object fields)) := by
  refine (reliesOn_unless_get (reliesOn_unless (reliesOn_reference _))).congr fun x w => ?_
  rw [datatypePaths, asked_cons_iff, asked_cons_iff]
  exact or_congr_right (or_iff_left not_asked_nil).symm

end

/-- **An attribute relies on the fields of its definition,** and on what is asked of them. -/
theorem reliesOn_readAttribute (context : Text) (definition : Json) :
    ReliesOn ReadError.fault? (AttributeExpects definition) (readAttribute context definition) := by
  cases definition with
  | object fields =>
    have hget (key : String) : lift ((Json.object fields).get key)
      = .ok (valueAt (.object fields) [key]) := rfl
    rw [readAttribute, hget, ok_bind]
    dsimp only
    split
    · exact .of_foreseen_error rfl rfl
    · rw [hget, ok_bind]
      refine ((reliesOn_lift (reliesOn_values fields)).bind fun listed _ =>
        (reliesOn_lift (reliesOn_datatypeOf fields)).bind fun datatype _ =>
        ReliesOn.bind_of_isForeseen (.ok _) fun usage _ =>
        ReliesOn.bind_of_isForeseen (.ok _) fun fallback _ =>
        (reliesOn_lift (reliesOn_collapsedField fields "shortDesc")).bind fun documentation _ =>
        .ok _).mono ?_ ?_
      · rintro x w (_ | h)
        · exact Or.inr rfl
        · rw [asked_append_iff, asked_append_iff, or_assoc] at h
          exact Or.inl (h.imp_right (Or.imp_right Or.inl))
      · rintro x w h -
        refine .asked ?_
        rw [asked_append_iff, asked_append_iff, or_assoc]
        exact h.imp_right (Or.imp_right (or_iff_left id).mp)
  | _ => exact .of_error rfl .self rfl rfl

theorem reliesOn_readAttributes (context : Text) (fields : List (Text × Json)) :
    ReliesOn ReadError.fault?
      (fun x w => Asked [(["attributes"], .elements)] (.object fields) x w ∨
        AttributesExpect (.object fields) x w)
      (readAttributes context (.object fields)) := by
  have hget : (do itemsOf (← (Json.object fields).get "attributes") : Except Fault (List Json))
    = itemsOf (valueAt (.object fields) ["attributes"]) := rfl
  rw [readAttributes, hget]
  refine ((reliesOn_lift (reliesOn_itemsOf _)).bind (F := AttributesExpect (.object fields))
    fun definitions hdefinitions => ?_).congr fun x w => ?_
  · refine (ReliesOn.mapM fun a _ => reliesOn_readAttribute context a).congr fun x w => ?_
    simp [AttributesExpect, exists_of_lift_eq_ok hdefinitions]
  · rw [asked_cons_iff]
    exact or_congr_left (or_iff_left not_asked_nil).symm

/-! ### Particles -/

theorem integer_ne_infinite {raw : Json} (h : Expectation.finite.isMet raw = true) :
    raw.integer ≠ .error .infinite := by
  intro hinteger
  cases raw with
  | float x =>
    cases x with
    | infinity s => cases h
    | _ => cases hinteger
  | text t =>
    rw [Json.integer] at hinteger
    split at hinteger <;> cases hinteger
  | _ => cases hinteger

theorem exists_infinity {raw : Json} (h : Expectation.finite.isMet raw = false) :
    ∃ isNegative, raw = .float (.infinity isNegative) := by
  cases raw with
  | float x => cases x <;> first | exact ⟨_, rfl⟩ | cases h
  | _ => cases h

/-- A bound of a particle. -/
theorem reliesOn_readOccurs (context field : Text) (allowUnbounded : Bool) (raw : Json) :
    ReliesOn ReadError.fault? (.only .finite raw)
      (readOccurs context field allowUnbounded raw) := by
  cases hfinite : Expectation.finite.isMet raw with
  | true =>
    refine .of_isMet ?_ hfinite
    unfold readOccurs
    split
    · exact .ok _
    · exact .ok _
    · exact .error rfl
    · split
      · exact .ok _
      · split
        · exact .ok _
        · exact .error rfl
        · next hinteger => exact absurd hinteger (integer_ne_infinite hfinite)
        · exact .error rfl
  | false =>
    obtain ⟨s, rfl⟩ := exists_infinity hfinite
    have hfault : readOccurs context field allowUnbounded (.float (.infinity s))
        = .error (.fault .infinite) := by
      cases allowUnbounded <;> rfl
    exact .of_error hfault ⟨rfl, rfl⟩ rfl rfl

theorem exists_finite_of_readOccurs {context field : Text} {raw : Json} {limit : Limit}
    (h : readOccurs context field false raw = .ok limit) : ∃ n, limit = .finite n := by
  unfold readOccurs at h
  split at h
  · exact ⟨1, (Except.ok.inj h).symm⟩
  · exact ⟨1, (Except.ok.inj h).symm⟩
  · cases h
  · rw [Bool.false_and, if_neg Bool.false_ne_true] at h
    split at h
    · exact ⟨_, (Except.ok.inj h).symm⟩
    · cases h
    · cases h
    · cases h

theorem reliesOn_readBounds (context : Text) (least most : Json) :
    ReliesOn ReadError.fault? (fun x w => Expectations.only .finite least x w ∨
      Expectations.only .finite most x w) (readBounds context least most) := by
  refine ((reliesOn_readOccurs context _ false least).bind fun l hl =>
    ((reliesOn_readOccurs context _ true most).bind fun m _ =>
      ReliesOn.of_isForeseen (E := fun _ _ => False) ?_ fun _ _ => False.elim).congr
        fun _ _ => or_iff_left id).congr fun _ _ => Iff.rfl
  obtain ⟨n, rfl⟩ := exists_finite_of_readOccurs hl
  dsimp only
  split
  · exact .ok _
  · exact .error rfl

theorem holdsParticle_array_iff {entries : List Json} {q : Json} :
    HoldsParticle (.array entries) q ↔ ∃ p ∈ entries,
      (∃ kind, ParticleKind.ofWord? (valueAt p ["type"]) = some kind) ∧
        (q = p ∨ HoldsParticle (valueAt p ["content"]) q) := by
  constructor
  · rintro (⟨hp, hkind⟩ | ⟨hp, hkind, hq⟩)
    · exact ⟨q, hp, ⟨_, hkind⟩, Or.inl rfl⟩
    · exact ⟨_, hp, ⟨_, hkind⟩, Or.inr hq⟩
  · rintro ⟨p, hp, ⟨kind, hkind⟩, rfl | hq⟩
    · exact .listed hp hkind
    · exact .nested hp hkind hq

mutual

/-- **Content relies on the bounds of its particles,** at every depth. -/
theorem reliesOn_readContent (context : Text) (raw : Json) :
    ReliesOn ReadError.fault? (FiniteBounds .null (HoldsParticle raw))
      (Particle.readContent context raw) := by
  cases raw with
  | array entries =>
    rw [Particle.readContent]
    exact (reliesOn_readAll context entries).congr fun x w =>
      finiteBounds_congr fun q => holdsParticle_array_iff.symm
  | _ => exact .of_foreseen_error rfl rfl

theorem reliesOn_readAll (context : Text) (entries : List Json) :
    ReliesOn ReadError.fault? (FiniteBounds .null fun q => ∃ p ∈ entries,
      (∃ kind, ParticleKind.ofWord? (valueAt p ["type"]) = some kind) ∧
        (q = p ∨ HoldsParticle (valueAt p ["content"]) q))
      (Particle.readAll context entries) := by
  cases entries with
  | nil =>
    rw [Particle.readAll]
    exact (ReliesOn.ok _).congr fun x w => by simp [not_finiteBounds]
  | cons entry entries =>
    rw [Particle.readAll]
    refine ((reliesOn_readOne context entry).bind fun p _ =>
      (reliesOn_readAll context entries).map (p :: ·)).congr fun x w => ?_
    rw [Expectations.or, ← finiteBounds_or_iff]
    exact finiteBounds_congr fun q => by simp

theorem reliesOn_readOne (context : Text) (entry : Json) :
    ReliesOn ReadError.fault? (FiniteBounds .null fun q =>
      (∃ kind, ParticleKind.ofWord? (valueAt entry ["type"]) = some kind) ∧
        (q = entry ∨ HoldsParticle (valueAt entry ["content"]) q))
      (Particle.readOne context entry) := by
  cases entry with
  | object fields =>
    have hfield (key : String) : (Json.lookup (Text.ofString key) fields).getD .null
      = valueAt (.object fields) [key] := rfl
    rw [Particle.readOne]
    simp only [hfield]
    cases ParticleKind.ofWord? (valueAt (.object fields) ["type"]) with
    | none => exact (ReliesOn.ok _).congr fun x w => by simp [not_finiteBounds]
    | some kind =>
      refine ((reliesOn_readBounds context _ _).bind fun bounds _ =>
        (reliesOn_readField context fields).bind fun content _ => .ok _).congr fun x w => ?_
      rw [finiteBounds_and_iff, finiteBounds_or_iff, and_iff_right ⟨kind, rfl⟩]
      refine or_congr ?_ (or_iff_left id)
      simp [FiniteBounds, boundKeys, Expectations.only, hfield, Json.field?]
  | _ => exact .of_foreseen_error rfl rfl

theorem reliesOn_readField (context : Text) (fields : List (Text × Json)) :
    ReliesOn ReadError.fault? (FiniteBounds .null
      (HoldsParticle ((Json.lookup (Text.ofString "content") fields).getD .null)))
      (Particle.readField context fields) := by
  have hnull (q : Json) : False ↔ HoldsParticle .null q := ⟨False.elim, fun h => nomatch h⟩
  have hnone : ReliesOn ReadError.fault? (FiniteBounds .null (HoldsParticle .null))
      (.ok [] : Except ReadError (List (Particle Json))) :=
    (ReliesOn.ok _).congr fun x w =>
      (iff_false_intro not_finiteBounds).symm.trans (finiteBounds_congr hnull)
  cases fields with
  | nil => exact hnone
  | cons e fields =>
    obtain ⟨key, value⟩ := e
    rw [Json.lookup]
    by_cases hkey : key = Text.ofString "content"
    · rw [if_pos hkey, Option.getD_some]
      cases value with
      | null => simpa only [Particle.readField, if_pos hkey] using hnone
      | _ =>
        simp only [Particle.readField, if_pos hkey]
        exact reliesOn_readContent context _
    · have hskip : Particle.readField context ((key, value) :: fields)
          = Particle.readField context fields := by
        cases value <;> simp only [Particle.readField, if_neg hkey]
      rw [if_neg hkey, hskip]
      exact reliesOn_readField context fields

end

theorem reliesOn_read (context : Text) (raw : Json) :
    ReliesOn ReadError.fault? (FiniteBounds .null (HoldsParticle raw))
      (Particle.read context raw) := by
  cases raw with
  | null =>
    refine .of_isForeseen (.ok _) fun x w h => ?_
    obtain ⟨p, hp, -⟩ := h
    cases hp
  | _ => exact (reliesOn_readContent context _).map some

/-! ### Entries -/

theorem reliesOn_nameKey (v : Json) : ReliesOn ReadError.fault? (.only .name v) (nameKey v) := by
  rw [nameKey]
  split
  · next hname => exact .of_isMet (.ok _) hname
  · next hname =>
    exact .of_error rfl ⟨rfl, rfl⟩ (Bool.eq_false_iff.mpr hname) rfl

/-- The classes that an entry names are under their path. -/
theorem itemsOf_of_classRefs {fields : List (Text × Json)} {key : String} {names : List Json}
    (h : classRefs (.object fields) key = .ok names) :
    itemsOf (valueAt (.object fields) ["classes", key]) = .ok names := by
  obtain ⟨classes, hclasses, h⟩ := exists_of_bind_eq_ok h
  obtain rfl := Json.eq_of_get_eq_ok hclasses
  split at h
  · next hvoid =>
    obtain rfl := Except.ok.inj h
    exact if_pos (isVoid_valueAt hvoid key)
  · obtain ⟨v, hv, h⟩ := exists_of_bind_eq_ok h
    obtain rfl := Json.eq_of_get_eq_ok hv
    exact h

theorem entryExpects_iff {c : Collection} {entry v : Json} {x : Expectation} :
    EntryExpects c entry x v ↔ Expectations.only .name (identOf entry) x v ∨
      Asked c.asked entry x v ∨ (c.definesAttributes = true ∧ AttributesExpect entry x v) ∨
      (c = .elements ∧ ModelClassesExpect entry x v) ∨
      c.hasContent = true ∧ FiniteBounds .null (HoldsParticle (valueAt entry ["content"])) x v := by
  constructor
  · rintro (_ | h | ⟨hc, h⟩ | ⟨hc, h⟩ | ⟨hc, h⟩)
    · exact Or.inl ⟨rfl, rfl⟩
    · exact Or.inr (Or.inl h)
    · exact Or.inr (Or.inr (Or.inl ⟨hc, h⟩))
    · exact Or.inr (Or.inr (Or.inr (Or.inl ⟨hc, h⟩)))
    · exact Or.inr (Or.inr (Or.inr (Or.inr ⟨hc, h⟩)))
  · rintro (⟨rfl, rfl⟩ | h | ⟨hc, h⟩ | ⟨hc, h⟩ | ⟨hc, h⟩)
    · exact .name
    · exact .asked h
    · exact .attributes hc h
    · exact .modelClasses hc h
    · exact .content hc h

section

variable (fields : List (Text × Json)) (index : CorpusIndex Json)

theorem lift_get (key : String) :
    lift ((Json.object fields).get key) = .ok (valueAt (.object fields) [key]) := rfl

theorem reliesOn_addMacro :
    ReliesOn ReadError.fault? (EntryExpects .macros (.object fields))
      (addMacro index (.object fields)) := by
  rw [addMacro_eq, macroOf]
  simp only [lift_get, ok_bind]
  refine (((reliesOn_lift (reliesOn_description fields)).bind fun documentation _ =>
    (reliesOn_read _ _).bind fun content _ =>
    (reliesOn_nameKey _).bind fun key _ => .ok _).bind fun e _ => .ok _).congr fun x w => ?_
  rw [entryExpects_iff]
  simp [Collection.asked, Collection.definesAttributes, Collection.hasContent, Expectations.or]
  tauto

theorem reliesOn_addModelClass :
    ReliesOn ReadError.fault? (EntryExpects .modelClasses (.object fields))
      (addModelClass index (.object fields)) := by
  rw [addModelClass_eq]
  refine ((reliesOn_nameKey _).bind fun c _ => .ok _).congr fun x w => ?_
  rw [entryExpects_iff]
  simp [Collection.asked, Collection.definesAttributes, Collection.hasContent, not_asked_nil,
    Expectations.or]

theorem reliesOn_addAttributeClass :
    ReliesOn ReadError.fault? (EntryExpects .attributeClasses (.object fields))
      (addAttributeClass index (.object fields)) := by
  rw [addAttributeClass_eq, attributeClassOf]
  refine (((reliesOn_lift (reliesOn_classRefs fields "atts")).bind fun inherits _ =>
    (reliesOn_readAttributes _ fields).bind fun attributes _ =>
    (reliesOn_lift (reliesOn_description fields)).bind fun documentation _ =>
    (reliesOn_nameKey _).bind fun key _ => .ok _).bind fun e _ => .ok _).congr fun x w => ?_
  rw [entryExpects_iff]
  simp [Collection.asked, Collection.definesAttributes, Collection.hasContent, Expectations.or,
    asked_append_iff]
  tauto

theorem reliesOn_addDatatype :
    ReliesOn ReadError.fault? (EntryExpects .datatypes (.object fields))
      (addDatatype index (.object fields)) := by
  rw [addDatatype_eq, datatypeEntryOf]
  refine (((reliesOn_lift (reliesOn_description fields)).bind fun documentation _ =>
    (reliesOn_nameKey _).bind fun key _ => .ok _).bind fun e _ => .ok _).congr fun x w => ?_
  rw [entryExpects_iff]
  simp [Collection.asked, Collection.definesAttributes, Collection.hasContent, Expectations.or]
  tauto

theorem reliesOn_modelClasses :
    ReliesOn ReadError.fault? (fun x w => Asked (classPaths "model") (.object fields) x w ∨
      ModelClassesExpect (.object fields) x w)
      (lift (classRefs (.object fields) "model") >>= fun names => names.mapM nameKey) := by
  refine (reliesOn_lift (reliesOn_classRefs fields "model")).bind fun names hnames => ?_
  refine (ReliesOn.mapM fun n _ => reliesOn_nameKey n).congr fun x w => ?_
  simp [ModelClassesExpect, itemsOf_of_classRefs (exists_of_lift_eq_ok hnames)]

theorem reliesOn_elementOf :
    ReliesOn ReadError.fault? (EntryExpects .elements (.object fields))
      (elementOf (.object fields)) := by
  have hread : elementOf (.object fields) = (do
      let name ← nameKey (identOf (.object fields))
      let modelClasses ←
        lift (classRefs (.object fields) "model") >>= fun names => names.mapM nameKey
      let documentation ← lift (Json.object fields).description
      let attributeClasses ← lift (classRefs (.object fields) "atts")
      let attributes ← readAttributes (contextOf "element" name) (.object fields)
      let content ← Particle.read (contextOf "element" name) (valueAt (.object fields) ["content"])
      let record : ElementDef Json :=
        ⟨name, documentation, attributeClasses, modelClasses, attributes, content⟩
      return (name, record)) := by
    simp only [elementOf, bind_assoc, lift_get, ok_bind]
  rw [hread]
  refine ((reliesOn_nameKey _).bind fun name _ =>
    (reliesOn_modelClasses fields).bind fun modelClasses _ =>
    (reliesOn_lift (reliesOn_description fields)).bind fun documentation _ =>
    (reliesOn_lift (reliesOn_classRefs fields "atts")).bind fun attributeClasses _ =>
    (reliesOn_readAttributes _ fields).bind fun attributes _ =>
    (reliesOn_read _ _).bind fun content _ => .ok _).congr fun x w => ?_
  rw [entryExpects_iff]
  simp [Collection.asked, Collection.definesAttributes, Collection.hasContent, Expectations.or,
    asked_append_iff]
  tauto

/-- An element that is there already is a defect. -/
theorem reliesOn_addElement :
    ReliesOn ReadError.fault? (EntryExpects .elements (.object fields))
      (addElement index (.object fields)) := by
  cases hnew : index.elements.find? (identOf (.object fields)) with
  | none =>
    rw [addElement_eq index _ hnew]
    exact ((reliesOn_elementOf fields).bind fun e _ => .ok _).congr fun x w => or_iff_left id
  | some e =>
    cases hname : nameKey (identOf (.object fields)) with
    | error e =>
      rw [addElement, hname]
      refine ⟨fun ha => ?_, fun he hf => ?_⟩
      · cases ha
      · obtain rfl := Except.error.inj he
        obtain ⟨x, v, ⟨rfl, rfl⟩, hmet⟩ := (reliesOn_nameKey _).unmet hname hf
        exact ⟨_, _, .name, hmet⟩
    | ok name =>
      obtain rfl := nameKey_eq hname
      have hdefect : addElement index (.object fields) = .error (.of
          (.duplicateElement (identOf (.object fields))) (Text.ofString "elements")) := by
        rw [addElement, hname, ok_bind, hnew]
        rfl
      exact .of_foreseen_error hdefect rfl

end

/-! ### Corpora -/

theorem isForeseen_checkEntries (label : String) (entries : List Json) :
    IsForeseen ReadError.fault? (checkEntries label entries) := by
  induction entries with
  | nil => exact .ok _
  | cons entry entries ih =>
    cases entry with
    | object fields =>
      rw [checkEntries]
      split
      · exact .error rfl
      · exact ih.map _
    | _ => exact .error rfl

theorem isForeseen_entriesAt (corpus : Json) (path : List String) :
    IsForeseen ReadError.fault? (entriesAt corpus path) := by
  unfold entriesAt
  dsimp only
  split
  · exact .ok _
  · exact isForeseen_checkEntries _ _
  · exact .error rfl

/-- Entries are objects. -/
theorem exists_object_of_entriesAt {corpus : Json} {path : List String} {entries : List Json}
    (h : entriesAt corpus path = .ok entries) :
    ∀ entry ∈ entries, ∃ fields, entry = .object fields := by
  unfold entriesAt at h
  dsimp only at h
  split at h
  · obtain rfl := Except.ok.inj h
    exact List.forall_mem_nil _
  · obtain rfl := eq_of_checkEntries h
    intro entry hentry
    have hentry := checkEntries_eq_ok_iff.mp h entry hentry
    cases entry with
    | object fields => exact ⟨fields, rfl⟩
    | _ => cases hentry
  · cases h

theorem reliesOn_foldlM {corpus : Json} {c : Collection} {entries : List Json}
    (h : entriesAt corpus c.path = .ok entries)
    {add : CorpusIndex Json → Json → Except ReadError (CorpusIndex Json)}
    (hadd : ∀ fields index, ReliesOn ReadError.fault? (EntryExpects c (.object fields))
      (add index (.object fields))) (index : CorpusIndex Json) :
    ReliesOn ReadError.fault? (Expectations.any entries (EntryExpects c))
      (entries.foldlM add index) := by
  refine ReliesOn.foldlM (fun entry hentry index => ?_) index
  obtain ⟨fields, rfl⟩ := exists_object_of_entriesAt h entry hentry
  exact hadd fields index

/-- **A corpus relies on its entries.** -/
theorem reliesOn_ingest (fields : List (Text × Json)) :
    ReliesOn ReadError.fault? (CorpusExpects (.object fields)) (ingest (.object fields)) := by
  rw [ingest]
  refine ReliesOn.bind_of_isForeseen (isForeseen_entriesAt _ _) fun elements helements => ?_
  refine ReliesOn.bind_of_isForeseen (isForeseen_entriesAt _ _) fun modelClasses hmodel => ?_
  refine ReliesOn.bind_of_isForeseen (isForeseen_entriesAt _ _) fun attributeClasses hatts => ?_
  refine ReliesOn.bind_of_isForeseen (isForeseen_entriesAt _ _) fun macros hmacros => ?_
  refine ReliesOn.bind_of_isForeseen (isForeseen_entriesAt _ _) fun datatypes hdatatypes => ?_
  refine ((reliesOn_foldlM (c := .macros) hmacros reliesOn_addMacro _).bind fun _ _ =>
    (reliesOn_foldlM (c := .modelClasses) hmodel reliesOn_addModelClass _).bind fun _ _ =>
    (reliesOn_foldlM (c := .attributeClasses) hatts reliesOn_addAttributeClass _).bind fun _ _ =>
    (reliesOn_foldlM (c := .datatypes) hdatatypes reliesOn_addDatatype _).bind fun _ _ =>
    reliesOn_foldlM (c := .elements) helements reliesOn_addElement _).congr fun x w => ?_
  constructor
  · rintro (⟨e, he, h⟩ | ⟨e, he, h⟩ | ⟨e, he, h⟩ | ⟨e, he, h⟩ | ⟨e, he, h⟩)
    · exact .entry (c := .macros) hmacros he h
    · exact .entry (c := .modelClasses) hmodel he h
    · exact .entry (c := .attributeClasses) hatts he h
    · exact .entry (c := .datatypes) hdatatypes he h
    · exact .entry (c := .elements) helements he h
  · intro h
    cases h with
    | @entry c _ entry _ _ hentries he h =>
      have hlisted {entries} (hread : entriesAt (.object fields) c.path = .ok entries) :
          Expectations.any entries (EntryExpects c) x w := by
        obtain rfl := Except.ok.inj (hread.symm.trans hentries)
        exact ⟨entry, he, h⟩
      cases c with
      | macros => exact Or.inl (hlisted hmacros)
      | modelClasses => exact Or.inr (Or.inl (hlisted hmodel))
      | attributeClasses => exact Or.inr (Or.inr (Or.inl (hlisted hatts)))
      | datatypes => exact Or.inr (Or.inr (Or.inr (Or.inl (hlisted hdatatypes))))
      | elements => exact Or.inr (Or.inr (Or.inr (Or.inr (hlisted helements))))

/-- **The ways in which reading a corpus can end.** It is read, and whatever is taken for granted in
it is so; or it has a defect; or something that is taken for granted is not so, and reading ends
with the fault of that. -/
theorem cases_of_ingest (corpus : Json) :
    (∃ index, ingest corpus = .ok index ∧
      ∀ x v, CorpusExpects corpus x v → x.isMet v = true) ∨
    (∃ e, ingest corpus = .error (.corpus e)) ∨
    ∃ x v, CorpusExpects corpus x v ∧ x.isMet v = false ∧
      ingest corpus = .error (.fault x.fault) := by
  cases corpus with
  | object fields =>
    have hread := reliesOn_ingest fields
    cases hingest : ingest (.object fields) with
    | ok index => exact Or.inl ⟨index, rfl, hread.met hingest⟩
    | error e =>
      cases e with
      | corpus e => exact Or.inr (Or.inl ⟨e, rfl⟩)
      | fault f =>
        obtain ⟨x, v, hexpects, hmet, rfl⟩ := hread.unmet hingest rfl
        exact Or.inr (Or.inr ⟨x, v, hexpects, hmet, rfl⟩)
  | _ => exact Or.inr (Or.inl ⟨_, rfl⟩)

/-- **Not every corpus is read or has a defect:** an attribute that is a number ends reading with a
fault that nothing has foreseen. -/
theorem not_read_or_defective : ¬ ∀ corpus : Json,
    (∃ index, ingest corpus = .ok index) ∨ ∃ e, ingest corpus = .error (.corpus e) := by
  intro h
  have hfault : ingest (.ofFields [("elements", .array
      [.ofFields [("ident", .string "p"), ("attributes", .array [.int 1])]])])
      = .error (.fault .noFields) := rfl
  rcases h _ with ⟨index, hindex⟩ | ⟨e, he⟩
  · exact nomatch hfault.symm.trans hindex
  · exact nomatch hfault.symm.trans he

end Corpus

end MarkupGrammar
