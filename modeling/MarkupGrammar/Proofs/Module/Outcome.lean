import MarkupGrammar.Proofs.Expectation
import MarkupGrammar.Proofs.Module.Parts

/-!
# How loading a module can end

A module is loaded, or it is refused as an invalid one, or loading ends with a fault that nothing
has foreseen. A fault is foreseen when it is a missing field, a value of the wrong kind, or a word
or number that is not admitted. Two things are taken for granted: that elements, attributes and
tables have fields, and that no bound is an infinity. These are all: a module in which they hold is
loaded or refused.

It does not matter how deep in a content model a bound stands. What is no object among the items of
a model is of the wrong kind, and so foreseen; that it is not among the elements of a module or the
attributes of an element is due to the way in which their fields are asked for.

## Main definitions

* `Module.ElementExpects`, `Module.SchemaExpects` — what is taken for granted in a module

## Main results

* `Module.reliesOn_readModel` — a content model relies on its bounds
* `Module.cases_of_load` — the ways in which loading can end
-/

namespace MarkupGrammar

/-- The fault itself, when a module with it does not count as invalid. -/
def Fault.unforeseen? (f : Fault) : Option Fault := if f.isForeseen then none else some f

namespace Module

variable {α : Type}

/-! ### Expectations -/

/-- The keys of the tables of a module. -/
def tableKeys : List String :=
  ["attributeClasses", "attributeClassInheritance", "elementAttributeClasses"]

/-- What is taken for granted of an element. -/
inductive ElementExpects (v : Json) : Expectations where
  | self : ElementExpects v .fields v
  | attribute {a : Json} {as : List Json} (has : elementsOf "localAttrs" v = .ok as) (ha : a ∈ as) :
      ElementExpects v .fields a
  | bound {part : Json} {key : String} (hpart : Holds .element v part) (hkey : key ∈ boundKeys) :
      ElementExpects v .finite ((part.field? key).getD (.int 1))

/-- What is taken for granted of a table: that it has fields, and whatever is taken for granted of
what is in its lists. -/
inductive TableExpects (E : Json → Expectations) (t : Json) : Expectations where
  | self : TableExpects E t .fields t
  | listed {entries : List (Text × Json)} {entry : Text × Json} {as : List Json} {a : Json}
      {x : Expectation} {w : Json} (ht : t = .object entries) (hentry : entry ∈ entries)
      (has : entry.2.elements = .ok as) (ha : a ∈ as) (h : E a x w) : TableExpects E t x w

/-- What is taken for granted in a module. A table that is not there is empty. -/
inductive SchemaExpects (d : Json) : Expectations where
  | element {v : Json} {vs : List Json} {x : Expectation} {w : Json}
      (hvs : elementsOf "elements" d = .ok vs) (hv : v ∈ vs) (h : ElementExpects v x w) :
      SchemaExpects d x w
  | table {key : String} (hkey : key ∈ tableKeys) :
      SchemaExpects d .fields ((d.field? key).getD (.object []))
  | classAttribute {entries : List (Text × Json)} {entry : Text × Json} {as : List Json} {a : Json}
      (hentries : d.field? "attributeClasses" = some (.object entries)) (hentry : entry ∈ entries)
      (has : entry.2.elements = .ok as) (ha : a ∈ as) : SchemaExpects d .fields a

/-! ### Foreseen faults -/

theorem isForeseen_need (key : String) (v : Json) : IsForeseen Fault.unforeseen? (need key v) := by
  cases v with
  | object fields =>
    rw [need]
    cases Json.lookup (Text.ofString key) fields with
    | none => exact .error rfl
    | some w => exact .ok _
  | _ => exact .error rfl

theorem isForeseen_elements (v : Json) : IsForeseen Fault.unforeseen? v.elements := by
  cases v with
  | array _ | object _ | text _ => exact .ok _
  | _ => exact .error rfl

theorem isForeseen_elementsOf (key : String) (fields : List (Text × Json)) :
    IsForeseen Fault.unforeseen? (elementsOf key (.object fields)) :=
  isForeseen_elements _

theorem isForeseen_readNames (names : List Json) :
    IsForeseen Fault.unforeseen? (readNames names) := by
  rw [readNames]
  split
  · exact .ok _
  · exact .error rfl

theorem isForeseen_optionalList (v : Json) : IsForeseen Fault.unforeseen? (optionalList v) := by
  cases v with
  | null | array _ | object _ | text _ => exact .ok _
  | _ => exact .error rfl

theorem isForeseen_checkBounds (occurs : Occurs × Occurs) :
    IsForeseen Fault.unforeseen? (checkBounds occurs) := by
  rw [checkBounds]
  split
  · exact .ok _
  · exact .error rfl

/-! ### Bounds -/

theorem reliesOn_integer (v : Json) :
    ReliesOn Fault.unforeseen? (.only .finite v) v.integer := by
  cases v with
  | bool _ | int _ => exact .of_isMet (.ok _) rfl
  | float x =>
    cases x with
    | nan => exact .of_isMet (.error rfl) rfl
    | infinity s => exact .of_error rfl ⟨rfl, rfl⟩ rfl rfl
    | finite s m e => exact .of_isMet (.ok _) rfl
  | text t =>
    refine .of_isMet ?_ rfl
    rw [Json.integer]
    split
    · exact .ok _
    · exact .error rfl
  | _ => exact .of_isMet (.error rfl) rfl

theorem reliesOn_readLimit (raw : Json) :
    ReliesOn Fault.unforeseen? (.only .finite raw) (readLimit raw) := by
  rw [readLimit]
  split
  · next h =>
    obtain rfl : raw = .string "unbounded" := (LawfulLabel.beq_ofText_iff raw _).mp h
    exact .of_isMet (.ok _) rfl
  · exact (reliesOn_integer raw).map _

theorem reliesOn_readOccurs (fields : List (Text × Json)) :
    ReliesOn Fault.unforeseen? (FiniteBounds (.int 1) (· = .object fields))
      (readOccurs (.object fields)) := by
  have hread (key : String) : getD key (.int 1) (.object fields)
    = .ok (((Json.object fields).field? key).getD (.int 1)) := rfl
  rw [readOccurs, hread, ok_bind, hread]
  refine ((reliesOn_integer _).bind fun least _ => (reliesOn_readLimit _).bind fun most _ =>
    .ok _).congr fun x v => ?_
  simp [Expectations.or, Expectations.only, FiniteBounds, boundKeys]

theorem reliesOn_boundsOf (fields : List (Text × Json)) :
    ReliesOn Fault.unforeseen? (FiniteBounds (.int 1) (· = .object fields))
      (boundsOf (.object fields)) :=
  ((reliesOn_readOccurs fields).bind fun occurs _ =>
    .of_isForeseen (isForeseen_checkBounds occurs) fun _ _ => False.elim).congr fun _ _ =>
      or_iff_left id

/-! ### Content models -/

/-- Only the content of a group is read. -/
theorem reliesOn_itemOf (kind v : Json) {content : Except Fault (ContentModel Json)}
    {E : Expectations} (hcontent : ReliesOn Fault.unforeseen? E content) :
    ReliesOn Fault.unforeseen? (fun x w => kind = .string "group" ∧ E x w)
      (itemOf kind v content) := by
  by_cases hgroup : kind = .string "group"
  · subst hgroup
    have hitem : itemOf (.string "group") v content = content.map .group := by
      simp [itemOf, Json.string_beq]
    rw [hitem]
    exact (hcontent.map _).congr fun x w => by simp
  · refine .of_isForeseen ?_ fun x w h => absurd h.1 hgroup
    have hname (make : Json → Bounds → Item Json) :
        IsForeseen Fault.unforeseen? ((need "name" v).map make) :=
      (isForeseen_need "name" v).map make
    rw [itemOf, if_neg (mt (Json.beq_string_iff kind "group").mp hgroup)]
    split
    · exact hname _
    · split
      · exact .ok _
      · split
        · exact hname _
        · exact .error rfl

mutual

/-- **A content model relies on its bounds,** at every depth. -/
theorem reliesOn_readModel (v : Json) :
    ReliesOn Fault.unforeseen? (FiniteBounds (.int 1) (Holds .contentModel v)) (readModel v) := by
  cases v with
  | object fields =>
    rw [readModel_eq]
    refine ReliesOn.bind_of_isForeseen (isForeseen_need _ _) fun type _ => ?_
    cases Arrangement.ofWord? type with
    | none => exact .of_foreseen_error rfl rfl
    | some arrangement =>
      refine ((reliesOn_readItemsField fields).bind fun items _ => (reliesOn_boundsOf fields).bind
        fun bounds _ => .ok _).congr fun x w => ?_
      rw [finiteBounds_congr fun _ => holds_contentModel_iff, finiteBounds_or_iff]
      exact (or_congr_right (or_iff_left id)).trans or_comm
  | _ => exact .of_foreseen_error rfl rfl

theorem reliesOn_readItemsField (fields : List (Text × Json)) :
    ReliesOn Fault.unforeseen? (FiniteBounds (.int 1) fun x => ∃ vs,
      Json.lookup (Text.ofString "items") fields = some (.array vs) ∧ ∃ w ∈ vs, Holds .item w x)
      (readItemsField fields) := by
  cases fields with
  | nil =>
    rw [readItemsField]
    exact (ReliesOn.ok _).congr fun x w => by simp [Json.lookup, not_finiteBounds]
  | cons e fields =>
    obtain ⟨key, value⟩ := e
    by_cases hkey : key = Text.ofString "items"
    · cases value with
      | array vs =>
        simp only [readItemsField, if_pos hkey]
        refine (reliesOn_readItems vs).congr fun x w => finiteBounds_congr fun part => ?_
        simp [Json.lookup, hkey]
      | _ =>
        -- what is no list has no items, and the fault is foreseen
        simp only [readItemsField, if_pos hkey]
        refine .of_isForeseen ((isForeseen_elements _).bind fun parts => ?_) fun x w h => ?_
        · split
          · exact .ok _
          · exact .error rfl
        · simp [Json.lookup, hkey, not_finiteBounds] at h
    · rw [readItemsField_cons_of_ne hkey]
      refine (reliesOn_readItemsField fields).congr fun x w => finiteBounds_congr fun part => ?_
      rw [Json.lookup, if_neg hkey]

theorem reliesOn_readItems (vs : List Json) :
    ReliesOn Fault.unforeseen? (FiniteBounds (.int 1) fun x => ∃ w ∈ vs, Holds .item w x)
      (readItems vs) := by
  cases vs with
  | nil =>
    rw [readItems]
    exact (ReliesOn.ok _).congr fun x w => by simp [not_finiteBounds]
  | cons v vs =>
    rw [readItems]
    refine ((reliesOn_readItem v).bind fun item _ => (reliesOn_readItems vs).map (item :: ·)).congr
      fun x w => ?_
    rw [Expectations.or, ← finiteBounds_or_iff]
    exact finiteBounds_congr fun part => by simp

theorem reliesOn_readItem (v : Json) :
    ReliesOn Fault.unforeseen? (FiniteBounds (.int 1) (Holds .item v)) (readItem v) := by
  cases v with
  | object fields =>
    rw [readItem_eq]
    refine ReliesOn.bind_of_isForeseen (isForeseen_need _ _) fun kind hkind => ?_
    refine ((reliesOn_readOccurs fields).bind fun occurs _ =>
      (reliesOn_itemOf kind _ (reliesOn_readContentField fields)).bind fun item _ =>
        .of_isForeseen ((isForeseen_checkBounds occurs).map item) fun _ _ => False.elim).congr
      fun x w => ?_
    rw [finiteBounds_congr fun _ => holds_item_iff, finiteBounds_or_iff, need_eq_ok_iff.mp hkind]
    rw [finiteBounds_and_iff, Option.some.injEq]
    exact or_congr_right (or_iff_left id)
  | _ => exact .of_foreseen_error rfl rfl

theorem reliesOn_readContentField (fields : List (Text × Json)) :
    ReliesOn Fault.unforeseen? (FiniteBounds (.int 1) fun x => ∃ w,
      Json.lookup (Text.ofString "content") fields = some w ∧ Holds .contentModel w x)
      (readContentField fields) := by
  cases fields with
  | nil => exact .of_foreseen_error rfl rfl
  | cons e fields =>
    obtain ⟨key, value⟩ := e
    rw [readContentField]
    split
    · next hkey =>
      refine (reliesOn_readModel value).congr fun x w => finiteBounds_congr fun part => ?_
      simp [Json.lookup, hkey]
    · next hkey =>
      refine (reliesOn_readContentField fields).congr fun x w => finiteBounds_congr fun part => ?_
      rw [Json.lookup, if_neg hkey]

end

/-! ### Elements and tables -/

theorem reliesOn_readAttribute (v : Json) :
    ReliesOn Fault.unforeseen? (.only .fields v) (readAttribute v) := by
  cases v with
  | object fields =>
    refine .of_isMet ?_ rfl
    exact (isForeseen_need _ _).bind fun name => (isForeseen_optionalList _).bind fun values =>
      (isForeseen_optionalList _).bind fun suggested => .ok _
  | _ => exact .of_error rfl ⟨rfl, rfl⟩ rfl rfl

/-- The content of an element relies on the bounds in its model. -/
theorem reliesOn_content {v model : Json} (hmodel : v.get "contentModel" = .ok model)
    (children : List Json) :
    ReliesOn Fault.unforeseen? (FiniteBounds (.int 1) (Holds .element v)) (do
      if model.isVoid then return .children children.eraseDups
      let m ← readModel model
      let _ ← readNames m.names
      return .model m : Except Fault (ElementContent Json)) := by
  have hheld {x w} : FiniteBounds (.int 1) (Holds .element v) x w
      ↔ FiniteBounds (.int 1) (fun x => model.isVoid = false ∧ Holds .contentModel model x) x w :=
    finiteBounds_congr fun x => holds_element_iff_of_get hmodel
  split
  · next hvoid =>
    refine .of_isForeseen (.ok _) fun x w h => ?_
    rw [hheld, finiteBounds_and_iff] at h
    exact nomatch hvoid.symm.trans h.1
  · next hvoid =>
    refine ((reliesOn_readModel model).bind fun m _ =>
      ReliesOn.bind_of_isForeseen (isForeseen_readNames m.names) fun _ _ => .ok _).congr
      fun x w => ?_
    rw [hheld, finiteBounds_and_iff]
    exact (or_iff_left id).trans (and_iff_right (Bool.eq_false_iff.mpr hvoid)).symm

/-- **An element relies on its fields, those of its attributes, and its bounds.** -/
theorem reliesOn_readElement (v : Json) :
    ReliesOn Fault.unforeseen? (ElementExpects v) (readElement v) := by
  cases v with
  | object fields =>
    have hget (key : String) : IsForeseen Fault.unforeseen? ((Json.object fields).get key) :=
      .ok _
    rw [readElement]
    refine ReliesOn.bind_of_isForeseen (hget _) fun type _ => ?_
    refine ReliesOn.bind_of_isForeseen (hget _) fun model hmodel => ?_
    refine ReliesOn.bind_of_isForeseen (isForeseen_need _ _) fun name _ => ?_
    refine ReliesOn.bind_of_isForeseen (hget _) fun documentation _ => ?_
    refine ReliesOn.bind_of_isForeseen (isForeseen_elementsOf _ _) fun attributeClasses _ => ?_
    refine ReliesOn.bind_of_isForeseen (isForeseen_elementsOf _ _) fun modelClasses _ => ?_
    refine ReliesOn.bind_of_isForeseen (isForeseen_elementsOf _ _) fun definitions hlisted => ?_
    refine ((ReliesOn.mapM fun a _ => reliesOn_readAttribute a).bind
      (F := FiniteBounds (.int 1) (Holds .element (.object fields)))
      fun attributes _ => ?_).mono ?_ ?_
    · refine ReliesOn.bind_of_isForeseen (isForeseen_elementsOf _ _) fun listed _ => ?_
      refine ReliesOn.bind_of_isForeseen (isForeseen_readNames _) fun children _ => ?_
      refine ReliesOn.bind_of_isForeseen ?_ fun shape _ => ?_
      · split
        · exact .ok _
        · split
          · exact .ok _
          · exact .error rfl
      · exact ((reliesOn_content hmodel children).bind fun content _ => .ok _).congr
          fun _ _ => or_iff_left id
    · rintro x w (_ | ⟨has, ha⟩ | ⟨hpart, hkey⟩)
      · exact Or.inr rfl
      · obtain rfl := Except.ok.inj (has.symm.trans hlisted)
        exact Or.inl (Or.inl ⟨w, ha, rfl, rfl⟩)
      · exact Or.inl (Or.inr ⟨_, hpart, _, hkey, rfl, rfl⟩)
    · rintro x w (⟨a, ha, rfl, rfl⟩ | ⟨part, hpart, key, hkey, rfl, rfl⟩) -
      · exact .attribute hlisted ha
      · exact .bound hpart hkey
  | _ => exact .of_error rfl .self rfl rfl

theorem reliesOn_readTable {key : String} {f : Json → Except Fault α} {E : Json → Expectations}
    (hf : ∀ a, ReliesOn Fault.unforeseen? (E a) (f a)) (fields : List (Text × Json)) :
    ReliesOn Fault.unforeseen?
      (TableExpects E (((Json.object fields).field? key).getD (.object [])))
      (readTable key f (.object fields)) := by
  have hlist (entry : Text × Json) : ReliesOn Fault.unforeseen?
      (fun x w => ∃ as, entry.2.elements = .ok as ∧ Expectations.any as E x w) (do
        let items ← (← entry.2.elements).mapM f
        return (Json.text entry.1, items)) := by
    refine ReliesOn.bind_of_isForeseen (isForeseen_elements _) fun as has => ?_
    refine ((ReliesOn.mapM fun a _ => hf a).bind fun items _ => .ok _).congr fun x w => ?_
    simp [Expectations.or, has]
  rw [readTable]
  generalize ht : ((Json.object fields).field? key).getD (.object []) = t
  have hread : getD key (.object []) (.object fields) = .ok t := congrArg Except.ok ht
  rw [hread, ok_bind]
  cases t with
  | object entries =>
    refine (ReliesOn.mapM fun entry _ => hlist entry).mono ?_ ?_
    · rintro x w (_ | ⟨ht, hentry, has, ha, h⟩)
      · exact Or.inr rfl
      · obtain rfl := Json.object.inj ht
        exact Or.inl ⟨_, hentry, _, has, _, ha, h⟩
    · rintro x w ⟨entry, hentry, as, has, a, ha, h⟩ -
      exact .listed rfl hentry has ha h
  | _ => exact .of_error rfl .self rfl rfl

/-- **A schema relies on its tables, and on what its elements and classes rely on.** -/
theorem reliesOn_readSchema (fields : List (Text × Json)) :
    ReliesOn Fault.unforeseen? (SchemaExpects (.object fields)) (readSchema (.object fields)) := by
  have hnames (a : Json) : ReliesOn Fault.unforeseen? (fun _ _ => False) (Except.ok a) := .ok a
  rw [readSchema]
  refine ReliesOn.bind_of_isForeseen (isForeseen_elementsOf _ _) fun vs hvs => ?_
  refine ((ReliesOn.mapM fun v _ => reliesOn_readElement v).bind fun elements _ =>
    ReliesOn.bind_of_isForeseen (isForeseen_need _ _) fun id _ =>
    ReliesOn.bind_of_isForeseen (isForeseen_need _ _) fun name _ =>
    ReliesOn.bind_of_isForeseen (isForeseen_readNames _) fun _ _ =>
    (reliesOn_readTable reliesOn_readAttribute fields).bind fun attributeClasses _ =>
    (reliesOn_readTable hnames fields).bind fun inheritance _ =>
    (reliesOn_readTable hnames fields).bind fun elementClasses _ =>
    ReliesOn.of_isForeseen ?_ fun _ _ => False.elim).mono ?_ ?_
  · dsimp only
    split
    · exact .ok _
    · exact .error rfl
  · rintro x w (⟨hvs', hv, h⟩ | hkey | ⟨hentries, hentry, has, ha⟩)
    · obtain rfl := Except.ok.inj (hvs'.symm.trans hvs)
      exact Or.inl (Or.inl ⟨_, hv, h⟩)
    · simp only [tableKeys, List.mem_cons, List.not_mem_nil, or_false] at hkey
      rcases hkey with rfl | rfl | rfl
      · exact Or.inl (Or.inr (Or.inl .self))
      · exact Or.inl (Or.inr (Or.inr (Or.inl .self)))
      · exact Or.inl (Or.inr (Or.inr (Or.inr (Or.inl .self))))
    · exact Or.inl (Or.inr (Or.inl (.listed (by rw [hentries]; rfl) hentry has ha ⟨rfl, rfl⟩)))
  · have htable {key : String} (hkey : key ∈ tableKeys) {x : Expectation} {w : Json}
        (h : TableExpects (fun _ _ _ => False)
          (((Json.object fields).field? key).getD (.object [])) x w) :
        SchemaExpects (.object fields) x w := by
      cases h with
      | self => exact .table hkey
      | listed _ _ _ _ h => exact h.elim
    rintro x w (⟨v, hv, h⟩ | h | h | h | h) -
    · exact .element hvs hv h
    · cases h with
      | self => exact .table (by simp [tableKeys])
      | listed ht hentry has ha h =>
        obtain ⟨rfl, rfl⟩ := h
        cases hfield : (Json.object fields).field? "attributeClasses" with
        | none =>
          rw [hfield] at ht
          obtain rfl := Json.object.inj ht
          cases hentry
        | some t =>
          rw [hfield] at ht
          exact .classAttribute (hfield.trans (congrArg some ht)) hentry has ha
    · exact htable (by simp [tableKeys]) h
    · exact htable (by simp [tableKeys]) h
    · exact h.elim

/-! ### Modules -/

/-- **The ways in which loading a module can end.** It is loaded, and whatever is taken for granted
in it is so; or it is refused, for its version or as an invalid module; or something that is taken
for granted is not so, and loading ends with the fault of that. -/
theorem cases_of_load (fields : List (Text × Json)) :
    (∃ s, load (.object fields) = .ok s ∧
      ∀ x v, SchemaExpects (.object fields) x v → x.isMet v = true) ∨
    (∃ defect, load (.object fields) = .error (.of defect (Text.ofString "compiled")) ∧
      ((∃ version, defect = .unsupportedVersion version) ∨
        ∃ f, f.isForeseen = true ∧ defect = .invalidModule f)) ∨
    ∃ x v, SchemaExpects (.object fields) x v ∧ x.isMet v = false ∧
      load (.object fields) = .error (.fault x.fault) := by
  have hread := reliesOn_readSchema fields
  have hversion : (Json.object fields).get "formatVersion"
    = .ok (((Json.object fields).field? "formatVersion").getD .null) := rfl
  rw [load, hversion]
  dsimp only
  split
  · cases hs : readSchema (.object fields) with
    | ok s => exact Or.inl ⟨s, rfl, hread.met hs⟩
    | error f =>
      cases hf : f.isForeseen with
      | true => exact Or.inr (Or.inl ⟨.invalidModule f, by simp [hf], Or.inr ⟨f, hf, rfl⟩⟩)
      | false =>
        obtain ⟨x, v, hexpects, hmet, rfl⟩ := hread.unmet hs (by rw [Fault.unforeseen?, hf]; rfl)
        exact Or.inr (Or.inr ⟨x, v, hexpects, hmet, by simp [hf]⟩)
  · exact Or.inr (Or.inl ⟨_, rfl, Or.inl ⟨_, rfl⟩⟩)

/-- **Not every module is loaded or refused:** an element that is a number ends loading with a fault
that nothing has foreseen. -/
theorem not_loaded_or_refused : ¬ ∀ fields : List (Text × Json),
    (∃ s, load (.object fields) = .ok s) ∨ ∃ e, load (.object fields) = .error (.corpus e) := by
  intro h
  have hfault : load (.ofFields [("formatVersion", .int 1), ("id", .string "a"),
      ("name", .string "b"), ("elements", .array [.int 1])]) = .error (.fault .noFields) := rfl
  rcases h _ with ⟨s, hs⟩ | ⟨e, he⟩
  · exact nomatch hfault.symm.trans hs
  · exact nomatch hfault.symm.trans he

end Module

end MarkupGrammar
