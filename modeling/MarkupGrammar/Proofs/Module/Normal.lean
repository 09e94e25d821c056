import MarkupGrammar.Proofs.Module.Lossless

/-!
# Every module has a normal form

A module need not have been written by a program. Whoever writes one by hand leaves out what has a
default, gives a bound as a numeral or a double, defines an element twice, lists children next to a
content model that has others, and adds fields of his own. All of this is gone when the module has
been loaded: the schema is written as a module that is loaded and written again without a change,
and whatever is asked of the two schemas has the same answer.

Only names have to be what they are in a module that a program has written. They are texts where a
name is that of an element, on its own, in a content model or among the children
(`Module.Part.isTextual`): values that have no order cannot be listed as children, and a number
cannot be the key of an object.

## Main results

* `Module.isText_names_readModel` — the elements of a content model have texts for names
* `Module.isWritable_readSchema` — whatever is loaded can be written
* `Schema.agrees_normal` — a schema and its normal form have the same answers
* `Module.exists_normal_of_load` — a module that is loaded has a normal form
-/

namespace MarkupGrammar

/-! ### Names in a module -/

namespace Module

/-- The parts of a module that names stand in: what a key means depends on the part. Fields that are
in none of them are `other`. -/
inductive Part where
  | schema
  | elementList
  | element
  | contentModel
  | itemList
  | item
  | nameList
  | name
  | other
deriving DecidableEq

namespace Part

/-- The keys that lead from a part to others. -/
def fields : Part → List (String × Part)
  | .schema => [("elements", .elementList)]
  | .element => [("name", .name), ("children", .nameList), ("contentModel", .contentModel)]
  | .contentModel => [("items", .itemList)]
  | .item => [("name", .name), ("content", .contentModel)]
  | _ => []

/-- The part under a key. -/
def under (p : Part) (key : Text) : Part :=
  ((p.fields.find? fun e => Text.ofString e.1 = key).map (·.2)).getD .other

/-- What the entries of a list are. -/
def entry : Part → Part
  | .elementList => .element
  | .itemList => .item
  | .nameList => .name
  | _ => .other

mutual

/-- Whether there are texts in a part wherever the name of an element belongs. -/
def isTextual (p : Part) : Json → Bool
  | .text _ => true
  | .array items => p != .name && areTextual p.entry items
  | .object fields => p != .name && fieldsAreTextual p fields
  | _ => p != .name

/-- Whether there are texts for names in every entry of a list. -/
def areTextual (p : Part) : List Json → Bool
  | [] => true
  | v :: vs => isTextual p v && areTextual p vs

/-- Whether there are texts for names in every field of a part. -/
def fieldsAreTextual (p : Part) : List (Text × Json) → Bool
  | [] => true
  | (key, v) :: fields => isTextual (p.under key) v && fieldsAreTextual p fields

end

theorem isText_of_isTextual {v : Json} (h : name.isTextual v = true) : Label.IsText v := by
  cases v with
  | text t => exact ⟨t, rfl⟩
  | _ => simp [isTextual] at h

theorem isTextual_of_mem {p : Part} {vs : List Json} (h : p.areTextual vs = true) :
    ∀ v ∈ vs, p.isTextual v = true := by
  induction vs with
  | nil => exact fun v hv => nomatch hv
  | cons w vs ih =>
    rw [areTextual, Bool.and_eq_true] at h
    exact List.forall_mem_cons.mpr ⟨h.1, ih h.2⟩

theorem isTextual_of_lookup {p : Part} {fields : List (Text × Json)}
    (h : p.fieldsAreTextual fields = true) {key : Text} {v : Json}
    (hv : Json.lookup key fields = some v) : (p.under key).isTextual v = true := by
  induction fields with
  | nil => cases hv
  | cons e fields ih =>
    obtain ⟨k, w⟩ := e
    rw [fieldsAreTextual, Bool.and_eq_true] at h
    rw [Json.lookup] at hv
    by_cases hk : k = key
    · rw [if_pos hk] at hv
      obtain rfl := Option.some.inj hv
      exact hk ▸ h.1
    · rw [if_neg hk] at hv
      exact ih h.2 hv

section

variable {p : Part} {v : Json} (h : p.isTextual v = true) (key : String)

include h

theorem isTextual_need {w : Json} (hw : need key v = .ok w) :
    (p.under (Text.ofString key)).isTextual w = true := by
  cases v with
  | object fields =>
    rw [need] at hw
    rw [isTextual, Bool.and_eq_true] at h
    cases hfield : Json.lookup (Text.ofString key) fields with
    | none =>
      simp only [hfield] at hw
      cases hw
    | some u =>
      simp only [hfield] at hw
      obtain rfl := Except.ok.inj hw
      exact isTextual_of_lookup h.2 hfield
  | _ => cases hw

/-- A field that may be left out is null then. -/
theorem isTextual_get (hkey : p.under (Text.ofString key) ≠ .name) {w : Json}
    (hw : v.get key = .ok w) : (p.under (Text.ofString key)).isTextual w = true := by
  obtain ⟨fields, hfields, rfl⟩ := exists_of_map_eq_ok hw
  cases v with
  | object fields' =>
    obtain rfl := Except.ok.inj hfields
    rw [isTextual, Bool.and_eq_true] at h
    cases hfield : Json.lookup (Text.ofString key) fields' with
    | none => simpa [isTextual] using hkey
    | some u => exact isTextual_of_lookup h.2 hfield
  | _ => cases hfields

theorem isTextual_elements {vs : List Json} (hvs : v.elements = .ok vs) :
    ∀ w ∈ vs, p.entry.isTextual w = true := by
  cases v with
  | array items =>
    obtain rfl := Except.ok.inj hvs
    rw [isTextual, Bool.and_eq_true] at h
    exact isTextual_of_mem h.2
  | object fields =>
    obtain rfl := Except.ok.inj hvs
    intro w hw
    obtain ⟨e, -, rfl⟩ := List.mem_map.mp hw
    rfl
  | text t =>
    obtain rfl := Except.ok.inj hvs
    intro w hw
    obtain ⟨c, -, rfl⟩ := List.mem_map.mp hw
    rfl
  | _ => cases hvs

theorem isTextual_elementsOf {vs : List Json} (hvs : elementsOf key v = .ok vs) :
    ∀ w ∈ vs, (p.under (Text.ofString key)).entry.isTextual w = true := by
  obtain ⟨field, hfield, hvs⟩ := exists_of_bind_eq_ok hvs
  obtain ⟨fields, hfields, rfl⟩ := exists_of_map_eq_ok hfield
  cases v with
  | object fields' =>
    obtain rfl := Except.ok.inj hfields
    rw [isTextual, Bool.and_eq_true] at h
    cases hlookup : Json.lookup (Text.ofString key) fields' with
    | none =>
      rw [hlookup] at hvs
      obtain rfl := Except.ok.inj hvs
      exact fun w hw => nomatch hw
    | some u =>
      rw [hlookup] at hvs
      exact isTextual_elements (isTextual_of_lookup h.2 hlookup) hvs
  | _ => cases hfields

end

end Part

/-! ### Content models -/

mutual

/-- **The elements of a content model that is read have texts for names.** -/
theorem isText_names_readModel (v : Json) (hv : Part.contentModel.isTextual v = true)
    {m : ContentModel Json} (h : readModel v = .ok m) : ∀ n ∈ m.names, Label.IsText n := by
  cases v with
  | object fields =>
    rw [readModel] at h
    obtain ⟨type, -, h⟩ := exists_of_bind_eq_ok h
    split at h
    · cases h
    · obtain ⟨items, hitems, h⟩ := exists_of_bind_eq_ok h
      obtain ⟨occurs, -, h⟩ := exists_of_bind_eq_ok h
      obtain ⟨bounds, -, h⟩ := exists_of_bind_eq_ok h
      obtain rfl := Except.ok.inj h
      rw [ContentModel.names]
      exact isText_names_readItemsField fields hv hitems
  | _ => cases h

theorem isText_names_readItemsField (fields : List (Text × Json))
    (hfields : Part.contentModel.fieldsAreTextual fields = true) {items : List (Item Json)}
    (h : readItemsField fields = .ok items) : ∀ n ∈ Item.namesOfAll items, Label.IsText n := by
  cases fields with
  | nil =>
    rw [readItemsField] at h
    obtain rfl := Except.ok.inj h
    exact fun n hn => nomatch hn
  | cons e fields =>
    obtain ⟨key, value⟩ := e
    rw [Part.fieldsAreTextual, Bool.and_eq_true] at hfields
    by_cases hkey : key = Text.ofString "items"
    · subst hkey
      cases value with
      | array entries =>
        have hentries := hfields.1
        rw [Part.isTextual, Bool.and_eq_true] at hentries
        simp only [readItemsField, if_true] at h
        exact isText_names_readItems entries hentries.2 h
      | _ =>
        -- what is no list has no items, whatever it consists of
        simp only [readItemsField, if_true] at h
        obtain ⟨parts, -, h⟩ := exists_of_bind_eq_ok h
        split at h
        · obtain rfl := Except.ok.inj h
          exact fun n hn => nomatch hn
        · cases h
    · have hskip : readItemsField ((key, value) :: fields) = readItemsField fields := by
        cases value <;> simp only [readItemsField, if_neg hkey]
      rw [hskip] at h
      exact isText_names_readItemsField fields hfields.2 h

theorem isText_names_readItems (vs : List Json) (hvs : Part.item.areTextual vs = true)
    {items : List (Item Json)} (h : readItems vs = .ok items) :
    ∀ n ∈ Item.namesOfAll items, Label.IsText n := by
  cases vs with
  | nil =>
    rw [readItems] at h
    obtain rfl := Except.ok.inj h
    exact fun n hn => nomatch hn
  | cons v vs =>
    rw [Part.areTextual, Bool.and_eq_true] at hvs
    rw [readItems] at h
    obtain ⟨item, hitem, h⟩ := exists_of_bind_eq_ok h
    obtain ⟨items', hitems, h⟩ := exists_of_bind_eq_ok h
    obtain rfl := Except.ok.inj h
    intro n hn
    rcases List.mem_append.mp hn with hn | hn
    · exact isText_names_readItem v hvs.1 hitem n hn
    · exact isText_names_readItems vs hvs.2 hitems n hn

theorem isText_names_readItem (v : Json) (hv : Part.item.isTextual v = true) {item : Item Json}
    (h : readItem v = .ok item) : ∀ n ∈ item.names, Label.IsText n := by
  cases v with
  | object fields =>
    have hfields := hv
    rw [Part.isTextual, Bool.and_eq_true] at hfields
    rw [readItem] at h
    obtain ⟨kind, -, h⟩ := exists_of_bind_eq_ok h
    obtain ⟨occurs, -, h⟩ := exists_of_bind_eq_ok h
    split at h
    · obtain ⟨name, hname, h⟩ := exists_of_bind_eq_ok h
      obtain ⟨bounds, -, h⟩ := exists_of_bind_eq_ok h
      obtain rfl := Except.ok.inj h
      intro n hn
      obtain rfl := List.mem_singleton.mp hn
      exact Part.isText_of_isTextual (Part.isTextual_need hv "name" hname)
    · split at h
      · obtain ⟨bounds, -, h⟩ := exists_of_bind_eq_ok h
        obtain rfl := Except.ok.inj h
        exact fun n hn => nomatch hn
      · split at h
        · obtain ⟨m, hm, h⟩ := exists_of_bind_eq_ok h
          obtain ⟨bounds, -, h⟩ := exists_of_bind_eq_ok h
          obtain rfl := Except.ok.inj h
          exact isText_names_readContentField fields hfields.2 hm
        · split at h
          · obtain ⟨name, -, h⟩ := exists_of_bind_eq_ok h
            obtain ⟨bounds, -, h⟩ := exists_of_bind_eq_ok h
            obtain rfl := Except.ok.inj h
            exact fun n hn => nomatch hn
          · cases h
  | _ => cases h

theorem isText_names_readContentField (fields : List (Text × Json))
    (hfields : Part.item.fieldsAreTextual fields = true) {m : ContentModel Json}
    (h : readContentField fields = .ok m) : ∀ n ∈ m.names, Label.IsText n := by
  cases fields with
  | nil => cases h
  | cons e fields =>
    obtain ⟨key, value⟩ := e
    rw [Part.fieldsAreTextual, Bool.and_eq_true] at hfields
    rw [readContentField] at h
    split at h
    · next hkey =>
      subst hkey
      exact isText_names_readModel value hfields.1 h
    · exact isText_names_readContentField fields hfields.2 h

end

end Module

/-! ### What is loaded -/

namespace Module

theorem nameOrNone_ne_null (v : Json) : v.nameOrNone ≠ some .null := by
  cases v <;> exact nofun

/-- An attribute that is read says nothing that is null. -/
theorem isStorable_readAttribute {v : Json} {a : AttributeSpec Json}
    (h : readAttribute v = .ok a) : a.IsStorable := by
  rw [readAttribute] at h
  obtain ⟨values, -, h⟩ := exists_of_bind_eq_ok h
  obtain ⟨suggested, -, h⟩ := exists_of_bind_eq_ok h
  obtain ⟨name, -, h⟩ := exists_of_bind_eq_ok h
  obtain ⟨isRequired, -, h⟩ := exists_of_bind_eq_ok h
  obtain ⟨values, -, h⟩ := exists_of_bind_eq_ok h
  obtain ⟨defaultValue, -, h⟩ := exists_of_bind_eq_ok h
  obtain ⟨datatype, -, h⟩ := exists_of_bind_eq_ok h
  obtain ⟨documentation, -, h⟩ := exists_of_bind_eq_ok h
  obtain ⟨suggested, -, h⟩ := exists_of_bind_eq_ok h
  obtain rfl := Except.ok.inj h
  exact ⟨nameOrNone_ne_null defaultValue, nameOrNone_ne_null datatype,
    nameOrNone_ne_null documentation⟩

/-- **An element that is read can be written,** under a name that is a text. -/
theorem isWritable_readElement {v : Json} (hv : Part.element.isTextual v = true)
    {e : ElementSpec Json} (h : readElement v = .ok e) : Label.IsText e.name ∧ e.IsWritable := by
  rw [readElement] at h
  obtain ⟨type, -, h⟩ := exists_of_bind_eq_ok h
  obtain ⟨model, hmodel, h⟩ := exists_of_bind_eq_ok h
  obtain ⟨name, hname, h⟩ := exists_of_bind_eq_ok h
  obtain ⟨documentation, -, h⟩ := exists_of_bind_eq_ok h
  obtain ⟨attributeClasses, -, h⟩ := exists_of_bind_eq_ok h
  obtain ⟨modelClasses, -, h⟩ := exists_of_bind_eq_ok h
  obtain ⟨definitions, -, h⟩ := exists_of_bind_eq_ok h
  obtain ⟨attributes, hattributes, h⟩ := exists_of_bind_eq_ok h
  obtain ⟨listed, hlisted, h⟩ := exists_of_bind_eq_ok h
  obtain ⟨children, hchildren, h⟩ := exists_of_bind_eq_ok h
  obtain ⟨shape, -, h⟩ := exists_of_bind_eq_ok h
  obtain ⟨content, hcontent, h⟩ := exists_of_bind_eq_ok h
  obtain rfl := Except.ok.inj h
  have hnames : ∀ n ∈ children, Label.IsText n := by
    rw [readNames] at hchildren
    split at hchildren
    · obtain rfl := Except.ok.inj hchildren
      exact fun n hn =>
        Part.isText_of_isTextual (Part.isTextual_elementsOf hv "children" hlisted n hn)
    · cases hchildren
  refine ⟨Part.isText_of_isTextual (Part.isTextual_need hv "name" hname),
    forall_of_mapM_eq_ok isStorable_readAttribute hattributes, ?_, ?_⟩
  · rintro m rfl
    split at hcontent
    · cases hcontent
    · obtain ⟨m', hm', hcontent⟩ := exists_of_bind_eq_ok hcontent
      obtain ⟨-, -, hcontent⟩ := exists_of_bind_eq_ok hcontent
      obtain rfl := ElementContent.model.inj (Except.ok.inj hcontent)
      refine isText_names_readModel model ?_ hm'
      exact Part.isTextual_get hv "contentModel" (by decide) hmodel
  · rintro names rfl
    split at hcontent
    · obtain rfl := ElementContent.children.inj (Except.ok.inj hcontent)
      exact fun n hn => hnames n (Label.mem_of_mem_eraseDups hn)
    · obtain ⟨m, -, hcontent⟩ := exists_of_bind_eq_ok hcontent
      obtain ⟨-, -, hcontent⟩ := exists_of_bind_eq_ok hcontent
      cases Except.ok.inj hcontent

/-- The keys of a table are texts, and its lists are read entry by entry. -/
theorem forall_of_readTable {α : Type} {key : String} {f : Json → Except Fault α} {v : Json}
    {t : Table Json (List α)} (h : readTable key f v = .ok t) :
    ∀ e ∈ t, Label.IsText e.1 ∧ ∀ a ∈ e.2, ∃ w, f w = .ok a := by
  rw [readTable] at h
  obtain ⟨field, -, h⟩ := exists_of_bind_eq_ok h
  obtain ⟨fields, -, h⟩ := exists_of_bind_eq_ok h
  refine forall_of_mapM_eq_ok (fun {entry e} he => ?_) h
  obtain ⟨items, -, he⟩ := exists_of_bind_eq_ok he
  obtain ⟨as, has, he⟩ := exists_of_bind_eq_ok he
  obtain rfl := Except.ok.inj he
  refine ⟨⟨entry.1, rfl⟩, fun a ha => ?_⟩
  obtain ⟨w, -, hw⟩ := exists_of_mem_mapM has a ha
  exact ⟨w, hw⟩

/-- **Whatever is loaded can be written.** An element that is defined twice is in the schema once,
as it was defined last. -/
theorem isWritable_readSchema {d : Json} (hd : Part.schema.isTextual d = true) {s : Schema Json}
    (h : readSchema d = .ok s) : s.IsWritable := by
  rw [readSchema] at h
  obtain ⟨definitions, hdefinitions, h⟩ := exists_of_bind_eq_ok h
  obtain ⟨elements, helements, h⟩ := exists_of_bind_eq_ok h
  obtain ⟨id, -, h⟩ := exists_of_bind_eq_ok h
  obtain ⟨name, -, h⟩ := exists_of_bind_eq_ok h
  obtain ⟨-, -, h⟩ := exists_of_bind_eq_ok h
  obtain ⟨attributeClasses, hattributeClasses, h⟩ := exists_of_bind_eq_ok h
  obtain ⟨inheritance, hinheritance, h⟩ := exists_of_bind_eq_ok h
  obtain ⟨elementClasses, helementClasses, h⟩ := exists_of_bind_eq_ok h
  have hdefined : ∀ e ∈ elements, Label.IsText e.name ∧ e.IsWritable := by
    intro e he
    obtain ⟨v, hv, hread⟩ := exists_of_mem_mapM helements e he
    exact isWritable_readElement (Part.isTextual_elementsOf hd "elements" hdefinitions v hv) hread
  have hentries : ∀ e ∈ elements.map fun e => (e.name, e),
      Label.IsText e.1 ∧ e.2.name = e.1 ∧ e.2.IsWritable := by
    intro entry hentry
    obtain ⟨e, he, rfl⟩ := List.mem_map.mp hentry
    exact ⟨(hdefined e he).1, rfl, (hdefined e he).2⟩
  simp only at h
  split at h
  · next husable =>
    obtain rfl := Except.ok.inj h
    exact {
      distinct := Table.distinct_ofEntries _
      elements := fun e he =>
        hentries e (Table.mem_of_mem_ofEntries (fun e he => (hentries e he).1) he)
      attributeClasses := by
        intro e he
        obtain ⟨hname, hread⟩ := forall_of_readTable hattributeClasses e he
        refine ⟨hname, fun a ha => ?_⟩
        obtain ⟨w, hw⟩ := hread a ha
        exact isStorable_readAttribute hw
      inheritance := fun e he => (forall_of_readTable hinheritance e he).1
      elementClasses := fun e he => (forall_of_readTable helementClasses e he).1
      isUsable := husable }
  · cases h

end Module

/-! ### Agreement -/

/-- Definitions of an element of which the same is asked with the same answer. Whether nothing is
said of the element, or something void, is not told apart. -/
structure ElementSpec.Agrees (e e' : ElementSpec Json) : Prop where
  name : e'.name = e.name
  documentation : e'.documentation.bind Json.unlessVoid = e.documentation.bind Json.unlessVoid
  attributeClasses : e'.attributeClasses = e.attributeClasses
  modelClasses : e'.modelClasses = e.modelClasses
  attributes : e'.attributes = e.attributes
  shape : e'.shape = e.shape
  model? : e'.model? = e.model?
  children : e'.children.Perm e.children

/-- Schemas of which the same is asked with the same answer, whichever element it is about. -/
structure Schema.Agrees (s s' : Schema Json) : Prop where
  id : s'.id = s.id
  name : s'.name = s.name
  keys : s'.elements.map (·.1) = s.elements.map (·.1)
  element? : ∀ key, Option.Rel ElementSpec.Agrees (s.element? key) (s'.element? key)
  attributeClasses : s'.attributeClasses = s.attributeClasses
  inheritance : s'.inheritance = s.inheritance
  elementClasses : s'.elementClasses = s.elementClasses
  resolve : ∀ key, s'.resolve key = s.resolve key

theorem ElementSpec.IsWritable.agrees_normal {e : ElementSpec Json} (h : e.IsWritable) :
    e.Agrees e.normal where
  name := rfl
  documentation := bind_unlessVoid_bind e.documentation
  attributeClasses := rfl
  modelClasses := rfl
  attributes := rfl
  shape := rfl
  model? := e.model?_normal
  children := h.children_normal.1

namespace Schema

theorem element?_normal (s : Schema Json) (key : Json) :
    s.normal.element? key = (s.element? key).map ElementSpec.normal := by
  rw [element?, element?, normal, Table.find?_map]

/-- The normal form of a schema has the same attributes for every element. -/
theorem resolve_normal (s : Schema Json) (key : Json) : s.normal.resolve key = s.resolve key := by
  rw [resolve, resolve, attributesOf, attributesOf, element?_normal]
  cases s.element? key <;> rfl

/-- **A schema and its normal form have the same answers.** -/
theorem IsWritable.agrees_normal {s : Schema Json} (h : s.IsWritable) : s.Agrees s.normal where
  id := rfl
  name := rfl
  keys := by
    rw [normal, List.map_map]
    rfl
  element? key := by
    rw [element?_normal]
    cases hfind : s.element? key with
    | none => exact .none
    | some e =>
      obtain ⟨k, hk⟩ := Table.exists_mem_of_find? hfind
      exact .some (h.elements _ hk).2.2.agrees_normal
  attributeClasses := rfl
  inheritance := rfl
  elementClasses := rfl
  resolve := s.resolve_normal

end Schema

/-! ### Normal forms -/

namespace Module

/-- **Every module that is loaded has a normal form.** It is what is written of the loaded schema:
it is loaded in turn, as a schema that has the same answers and is written the same. -/
theorem exists_normal_of_load {d : Json} (hd : Part.schema.isTextual d = true) {s : Schema Json}
    (h : load d = .ok s) :
    ∃ n s', s.dump = .ok n ∧ load n = .ok s' ∧ s'.dump = .ok n ∧ s.Agrees s' := by
  have hs : s.IsWritable := by
    rw [load] at h
    split at h
    · cases h
    · split at h
      · split at h
        · next hread =>
          obtain rfl := Except.ok.inj h
          exact isWritable_readSchema hd hread
        · split at h <;> cases h
      · cases h
  obtain ⟨n, hdump, hload⟩ := hs.exists_dump_load
  exact ⟨n, s.normal, hdump, hload, hs.dump_normal.trans hdump, hs.agrees_normal⟩

/-- A module written by hand: a list is defined twice, the second time with bounds of all kinds,
with children that its model does not have and with a remark. -/
def handwrittenLists : Json :=
  .ofFields
    [("formatVersion", .bool true), ("id", .string "lists"), ("name", .string "Lists"),
     ("remark", .array [.ofFields [("name", .null)]]),
     ("elements", .array
       [.ofFields [("name", .string "list"), ("children", .array [.string "head"])],
        .ofFields
          [("name", .string "item"),
           ("children", .array [.string "p", .string "list", .string "p"])],
        .ofFields
          [("name", .string "list"), ("documentation", .string ""), ("remark", .int 2),
           ("attrClasses", .array [.string "att.global"]),
           ("localAttrs", .array [.ofFields [("name", .string "n"), ("required", .string "yes")]]),
           ("children", .array [.string "note"]),
           ("contentModel", .ofFields
             [("type", .string "sequence"), ("maxOccurs", .float (.ofDecimal false 25 (-1))),
              ("items", .array
                [.ofFields
                  [("kind", .string "element"), ("name", .string "item"),
                   ("minOccurs", .bool false), ("maxOccurs", .string " 12 ")],
                 .ofFields
                  [("kind", .string "group"),
                   ("content", .ofFields
                     [("type", .string "choice"),
                      ("items", .array
                        [.ofFields [("kind", .string "text")],
                         .ofFields
                          [("kind", .string "element"), ("name", .string "head")]])])]])])]]),
     ("attributeClasses", .ofFields
       [("att.global", .array [.ofFields [("name", .string "id")]])])]

/-- What is read of the module. -/
def handwrittenSchema : Schema Json where
  id := .string "lists"
  name := .string "Lists"
  elements :=
    [(.string "list",
      { name := .string "list"
        documentation := some (.string "")
        attributeClasses := [.string "att.global"]
        modelClasses := []
        attributes := [⟨.string "n", true, none, none, none, none, none⟩]
        shape := none
        content := .model ⟨.sequence,
          [.element (.string "item") ⟨0, .finite 12, rfl⟩,
           .group ⟨.choice, [.text .once, .element (.string "head") .once], .once⟩ .once],
          ⟨1, .finite 2, rfl⟩⟩ }),
     (.string "item",
      { name := .string "item"
        documentation := none
        attributeClasses := []
        modelClasses := []
        attributes := []
        shape := none
        content := .children [.string "p", .string "list"] })]
  attributeClasses :=
    [(.string "att.global", [⟨.string "id", false, none, none, none, none, none⟩])]
  inheritance := []
  elementClasses := []

/-- The lists written by hand have a normal form. -/
theorem exists_normal_handwrittenLists :
    Part.schema.isTextual handwrittenLists = true ∧
    load handwrittenLists = .ok handwrittenSchema ∧
      ∃ n s', handwrittenSchema.dump = .ok n ∧ load n = .ok s' ∧ s'.dump = .ok n ∧
        handwrittenSchema.Agrees s' := by
  have htextual : Part.schema.isTextual handwrittenLists = true := by decide +kernel
  have husable : handwrittenSchema.isUsable = true := by cbv
  have hread : readSchema handwrittenLists = .ok handwrittenSchema := by
    refine Eq.trans (b := if handwrittenSchema.isUsable then .ok handwrittenSchema
      else .error .wrongKind) ?_ (if_pos husable)
    rfl
  have hload : load handwrittenLists = .ok handwrittenSchema := by
    rw [load, show handwrittenLists.get "formatVersion" = .ok (.bool true) from rfl]
    simp only [hread]
    rfl
  exact ⟨htextual, hload, exists_normal_of_load htextual hload⟩

end Module

end MarkupGrammar
