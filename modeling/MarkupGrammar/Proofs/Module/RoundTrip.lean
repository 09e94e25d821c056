import MarkupGrammar.Proofs.Module.Content

/-!
# Modules keep what they are written from

A module does not have all of a schema in it. The children of an element are not taken from it when
the element has a content model; a text that is empty and a text that is not there look the same.
`Schema.normal` is what the module does have: void descriptions are gone, and where the children are
all that is known of an element's content they stand in order. This is what is read back from the
module, and written again it gives the same module.

`Schema.IsWritable` says which schemas this holds of: their elements are a dictionary by their own
names, and names are texts where they are keys of an object or have to be sorted. Of some of them
nothing is lost at all (`Schema.IsStorable`): nothing void is said of an element, and an element
without a model admits no children.

## Main results

* `Module.exists_dump_readElement_normal` — an element is written and read back in its normal form
* `Module.readTable_dumpTable` — a table of classes is read back
* `Schema.exists_dump_load_normal` — a schema is written, its module is loaded as the normal form,
  and that is written as the same module
* `Schema.exists_dump_load` — where nothing is lost, the module is loaded as the same schema
-/

namespace MarkupGrammar

/-! ### Names in order -/

/-- Texts are compared code point by code point. -/
theorem Text.compare_eq_compareLex :
    Text.compare = List.compareLex (compareOn CodePoint.val) := by
  funext s t
  induction s generalizing t with
  | nil => cases t <;> rfl
  | cons c s ih =>
    cases t with
    | nil => rfl
    | cons d t => rw [compare, List.compareLex_cons_cons, ih, compareOn]

instance : Std.TransCmp Text.compare := by
  rw [Text.compare_eq_compareLex]
  infer_instance

/-- Names that are texts, as texts. -/
theorem Label.exists_texts {names : List Json} (h : ∀ n ∈ names, Label.IsText n) :
    ∃ ts : List Text, names = ts.map Json.text := by
  induction names with
  | nil => exact ⟨[], rfl⟩
  | cons n names ih =>
    obtain ⟨hn, hnames⟩ := List.forall_mem_cons.mp h
    obtain ⟨t, rfl⟩ := hn
    obtain ⟨ts, rfl⟩ := ih hnames
    exact ⟨t :: ts, rfl⟩

namespace Json

/-- The names in the order in which a module lists them. -/
def inOrder (names : List Json) : List Json :=
  names.mergeSort fun a b => Json.compare? a b != some .gt

theorem inOrder_perm (names : List Json) : (inOrder names).Perm names := List.mergeSort_perm _ _

section

variable {names : List Json} (h : ∀ n ∈ names, Label.IsText n)

include h

theorem sortNames_eq : sortNames names = .ok (inOrder names) := by
  have htexts : names.all (·.text?.isSome) = true := by
    rw [List.all_eq_true]
    intro n hn
    obtain ⟨t, rfl⟩ := h n hn
    rfl
  rw [sortNames, inOrder]
  simp [htexts]

/-- Names in order stay as they are. -/
theorem inOrder_inOrder : inOrder (inOrder names) = inOrder names := by
  obtain ⟨ts, rfl⟩ := Label.exists_texts h
  refine List.mergeSort_of_pairwise ?_
  have hsort : inOrder (ts.map Json.text)
      = (ts.mergeSort fun s t => (Text.compare s t).isLE).map Json.text :=
    (List.map_mergeSort fun s _ t _ => by
      cases hst : Text.compare s t <;> simp [compare?, hst]).symm
  rw [hsort, List.pairwise_map]
  refine (List.pairwise_mergeSort (fun _ _ _ => Std.TransCmp.isLE_trans) (fun s t => ?_) ts).imp
    fun {s t} hst => ?_
  · have hswap : Text.compare t s = (Text.compare s t).swap := Std.OrientedCmp.eq_swap
    rw [hswap]
    cases Text.compare s t <;> rfl
  · cases hcompare : Text.compare s t <;> simp_all [compare?]

/-- Names of which none is there twice are still so in order. -/
theorem eraseDups_inOrder_eraseDups :
    (inOrder names.eraseDups).eraseDups = inOrder names.eraseDups := by
  have htext : ∀ n ∈ names.eraseDups, Label.IsText n := fun n hn =>
    h n (Label.mem_of_mem_eraseDups hn)
  have hsorted : (inOrder names.eraseDups).Nodup :=
    (inOrder_perm _).nodup_iff.mpr (Label.nodup_eraseDups h)
  refine eraseDups_eq_self (hsorted.imp_of_mem fun {a b} _ hb hne => ?_)
  have hb := htext b ((inOrder_perm _).mem_iff.mp hb)
  exact Bool.eq_false_iff.mpr fun hbeq => hne ((hb.beq_iff' a).mp hbeq).symm

end

end Json

/-! ### Elements -/

/-- What a module can say of an element: its attributes are kept, and its children, in a content
model or without one, have texts for names. -/
structure ElementSpec.IsWritable (e : ElementSpec Json) : Prop where
  attributes : ∀ a ∈ e.attributes, a.IsStorable
  model : ∀ m, e.content = .model m → ∀ n ∈ m.names, Label.IsText n
  children : ∀ names, e.content = .children names → ∀ n ∈ names, Label.IsText n

/-- What an element has to be for a module to keep it: nothing void is said of it, its attributes
are kept, and it has a content model whose elements have texts for names, or admits no children. -/
structure ElementSpec.IsStorable (e : ElementSpec Json) : Prop where
  documentation : ∀ d ∈ e.documentation, d.isVoid = false
  attributes : ∀ a ∈ e.attributes, a.IsStorable
  content : (∃ m, e.content = .model m ∧ ∀ n ∈ m.names, Label.IsText n) ∨ e.content = .children []

namespace ElementSpec

/-- The fields of an element in a module. -/
def fields (e : ElementSpec Json) (children : List Json) : List (String × Option Json) :=
  [("name", some e.name), ("attrClasses", some (.array e.attributeClasses)),
   ("modelClasses", some (.array e.modelClasses)),
   ("localAttrs", some (.array (e.attributes.map AttributeSpec.dump))),
   ("children", some (.array children)), ("documentation", e.documentation.bind Json.unlessVoid),
   ("contentModelType", e.shape.map fun shape => .string shape.word),
   ("contentModel", e.model?.map ContentModel.dump)]

theorem dump_eq (e : ElementSpec Json) {children : List Json}
    (h : sortNames e.children = .ok children) :
    e.dump = .ok (Json.ofPresent (e.fields children)) := by
  rw [dump, h, ok_bind, Json.ofPresent, Json.written, fields]
  cases e.documentation.bind Json.unlessVoid <;> cases e.shape <;> cases e.model? <;> rfl

theorem nodup_fields (e : ElementSpec Json) (children : List Json) :
    ((e.fields children).map (·.1)).Nodup := by
  simp [fields]

/-- The element as a module has it. -/
def normal (e : ElementSpec Json) : ElementSpec Json :=
  { e with
    documentation := e.documentation.bind Json.unlessVoid
    content :=
      match e.content with
      | .model m => .model m
      | .children names => .children (Json.inOrder names.eraseDups) }

theorem IsWritable.isText_children {e : ElementSpec Json} (h : e.IsWritable) :
    ∀ n ∈ e.children, Label.IsText n := by
  intro n hn
  rw [ElementSpec.children] at hn
  cases hcontent : e.content with
  | model m =>
    rw [hcontent] at hn
    exact h.model m hcontent n (Label.mem_of_mem_eraseDups hn)
  | children names =>
    rw [hcontent] at hn
    exact h.children names hcontent n (Label.mem_of_mem_eraseDups hn)

/-- The children are the same names, and they are listed in the same order. -/
theorem IsWritable.children_normal {e : ElementSpec Json} (h : e.IsWritable) :
    e.normal.children.Perm e.children ∧
      Json.inOrder e.normal.children = Json.inOrder e.children := by
  rw [ElementSpec.children, ElementSpec.children, normal]
  cases hcontent : e.content with
  | model m => exact ⟨.refl _, rfl⟩
  | children names =>
    have hnames := h.children names hcontent
    simp only [Json.eraseDups_inOrder_eraseDups hnames]
    exact ⟨Json.inOrder_perm _,
      Json.inOrder_inOrder fun n hn => hnames n (Label.mem_of_mem_eraseDups hn)⟩

theorem IsWritable.isText_children_normal {e : ElementSpec Json} (h : e.IsWritable) :
    ∀ n ∈ e.normal.children, Label.IsText n := fun n hn =>
  h.isText_children n (h.children_normal.1.mem_iff.mp hn)

/-- What is said of an element is void or not, whether the void is gone already or not. -/
theorem bind_unlessVoid_bind (documentation : Option Json) :
    (documentation.bind Json.unlessVoid).bind Json.unlessVoid
      = documentation.bind Json.unlessVoid := by
  cases documentation with
  | none => rfl
  | some d => cases hvoid : d.isVoid <;> simp [Json.unlessVoid, hvoid]

theorem model?_normal (e : ElementSpec Json) : e.normal.model? = e.model? := by
  rw [model?, model?, normal]
  cases e.content <;> rfl

/-- The normal form of an element is written as the element is. -/
theorem IsWritable.dump_normal {e : ElementSpec Json} (h : e.IsWritable) :
    e.normal.dump = e.dump := by
  rw [e.dump_eq (Json.sortNames_eq h.isText_children),
    e.normal.dump_eq (Json.sortNames_eq h.isText_children_normal), h.children_normal.2]
  have hfields : ∀ children, e.normal.fields children = e.fields children := by
    intro children
    simp only [fields, model?_normal]
    simp only [normal, bind_unlessVoid_bind]
  rw [hfields]

theorem IsStorable.isWritable {e : ElementSpec Json} (h : e.IsStorable) : e.IsWritable where
  attributes := h.attributes
  model m hm := by
    rcases h.content with ⟨m', hm', hnames⟩ | hnone
    · rw [hm] at hm'
      obtain rfl := ElementContent.model.inj hm'
      exact hnames
    · exact nomatch hm.symm.trans hnone
  children names hchildren := by
    rcases h.content with ⟨m, hm, -⟩ | hnone
    · exact nomatch hchildren.symm.trans hm
    · obtain rfl := ElementContent.children.inj (hchildren.symm.trans hnone)
      exact fun n hn => nomatch hn

/-- Of an element that is kept nothing is lost. -/
theorem IsStorable.normal_eq {e : ElementSpec Json} (h : e.IsStorable) : e.normal = e := by
  have hdocumentation : e.documentation.bind Json.unlessVoid = e.documentation := by
    cases hd : e.documentation with
    | none => rfl
    | some d => simp [Json.unlessVoid, h.documentation d hd]
  have hcontent : e.normal.content = e.content := by
    rw [normal]
    rcases h.content with ⟨m, hm, -⟩ | hnone
    · rw [hm]
    · simp only [hnone, List.eraseDups_nil, Json.inOrder, List.mergeSort_nil]
  obtain ⟨name, documentation, attributeClasses, modelClasses, attributes, shape, content⟩ := e
  rw [normal] at hcontent ⊢
  simp only at hdocumentation hcontent ⊢
  rw [hdocumentation, hcontent]

end ElementSpec

namespace Module

theorem readNames_eq_ok {names : List Json} (h : ∀ n ∈ names, Label.IsText n) :
    readNames names = .ok names := by
  rw [readNames, if_pos]
  exact List.all_eq_true.mpr fun n hn => (h n hn).isName

theorem ofWord?_shape (shape : ContentShape) :
    ContentShape.ofWord? (.string shape.word) = some shape := by
  cases shape <;> rfl

theorem elementsOf_ofPresent {fields : List (String × Option Json)}
    (hkeys : (fields.map (·.1)).Nodup) (key : String) {items : List Json}
    (h : fields.lookup key = some (some (.array items))) :
    elementsOf key (Json.ofPresent fields) = .ok items := by
  rw [elementsOf, getD_ofPresent hkeys key _ h, ok_bind]
  rfl

/-- What is said of an element is read back unless it is void. -/
theorem nameOrNone_unlessVoid (documentation : Option Json) :
    ((documentation.bind Json.unlessVoid).getD .null).nameOrNone
      = documentation.bind Json.unlessVoid := by
  refine nameOrNone_getD fun h => ?_
  obtain ⟨d, -, hd⟩ := Option.bind_eq_some_iff.mp h
  rw [Json.unlessVoid] at hd
  split at hd
  · exact nomatch hd
  · next hvoid =>
    obtain rfl := Option.some.inj hd
    exact hvoid rfl

theorem isVoid_shape (shape : ContentShape) : (Json.string shape.word).isVoid = false := by
  cases shape <;> rfl

theorem isVoid_dump (m : ContentModel Json) : m.dump.isVoid = false := by
  rw [ContentModel.dump_eq]
  rfl

/-- **An element is read back in its normal form.** -/
theorem exists_dump_readElement_normal {e : ElementSpec Json} (h : e.IsWritable) :
    ∃ v, e.dump = .ok v ∧ readElement v = .ok e.normal := by
  have hsort := Json.sortNames_eq h.isText_children
  have hkeys := e.nodup_fields (Json.inOrder e.children)
  have hnames : ∀ n ∈ Json.inOrder e.children, Label.IsText n := fun n hn =>
    h.isText_children n ((Json.inOrder_perm _).mem_iff.mp hn)
  refine ⟨_, e.dump_eq hsort, ?_⟩
  rw [readElement, Json.get_ofPresent hkeys "contentModelType" rfl, ok_bind,
    Json.get_ofPresent hkeys "contentModel" rfl, ok_bind, Module.need_ofPresent hkeys "name" rfl,
    ok_bind, Json.get_ofPresent hkeys "documentation" rfl, ok_bind,
    elementsOf_ofPresent hkeys "attrClasses" rfl, ok_bind,
    elementsOf_ofPresent hkeys "modelClasses" rfl, ok_bind,
    elementsOf_ofPresent hkeys "localAttrs" rfl, ok_bind,
    mapM_map_eq_ok fun a ha => readAttribute_dump (h.attributes a ha), ok_bind,
    elementsOf_ofPresent hkeys "children" rfl, ok_bind, readNames_eq_ok hnames, ok_bind,
    nameOrNone_unlessVoid]
  -- a model is read back as it is, and children are kept only where there is no model
  obtain ⟨name, documentation, attributeClasses, modelClasses, attributes, shape, content⟩ := e
  cases content with
  | model m =>
    have hmodel := readNames_eq_ok (h.model m rfl)
    cases shape with
    | none =>
      simp only [ElementSpec.model?, Option.map_some, Option.getD_some, isVoid_dump,
        readModel_dump, ok_bind, hmodel]
      rfl
    | some shape =>
      simp only [ElementSpec.model?, Option.map_some, Option.getD_some, isVoid_dump, isVoid_shape,
        ofWord?_shape, readModel_dump, ok_bind, hmodel]
      rfl
  | children names =>
    have hchildren : (Json.inOrder names.eraseDups).eraseDups = Json.inOrder names.eraseDups :=
      Json.eraseDups_inOrder_eraseDups (h.children names rfl)
    let withChildren (names : List Json) : ElementSpec Json :=
      ⟨name, documentation.bind Json.unlessVoid, attributeClasses, modelClasses, attributes, shape,
        .children names⟩
    refine Eq.trans ?_ (congrArg (fun names => Except.ok (withChildren names)) hchildren)
    cases shape with
    | none => rfl
    | some shape => cases shape <;> rfl

end Module

/-! ### Tables -/

namespace Module

/-- **A table is read back** when its keys are texts and its values are lists of what is read
back. -/
theorem mapM_dumpTable {α : Type} {write : α → Json} {read : Json → Except Fault α}
    {t : Table Json (List α)} (hkeys : ∀ e ∈ t, Label.IsText e.1)
    (hvalues : ∀ e ∈ t, ∀ a ∈ e.2, read (write a) = .ok a) :
    ((t.map fun e => (e.1.keyText, Json.array (e.2.map write))).mapM fun (e : Text × Json) => do
      let items ← (← e.2.elements).mapM read
      return (Json.text e.1, items)) = .ok t := by
  induction t with
  | nil => rfl
  | cons e t ih =>
    obtain ⟨key, values⟩ := e
    obtain ⟨name, rfl⟩ := hkeys (key, values) List.mem_cons_self
    have hitems : (values.map write).mapM read = .ok values :=
      mapM_map_eq_ok (hvalues _ List.mem_cons_self)
    rw [List.map_cons, List.mapM_cons]
    simp only
    rw [show (Json.array (values.map write)).elements = .ok (values.map write) from rfl, ok_bind,
      hitems, ok_bind,
      ih (fun e he => hkeys e (List.mem_cons_of_mem _ he))
        fun e he => hvalues e (List.mem_cons_of_mem _ he)]
    rfl

theorem readTable_dumpTable {α : Type} {write : α → Json} {read : Json → Except Fault α}
    {fields : List (String × Option Json)} (hfields : (fields.map (·.1)).Nodup) (key : String)
    {t : Table Json (List α)}
    (h : fields.lookup key
      = some (some (Schema.dumpTable (fun values => .array (values.map write)) t)))
    (hkeys : ∀ e ∈ t, Label.IsText e.1) (hvalues : ∀ e ∈ t, ∀ a ∈ e.2, read (write a) = .ok a) :
    readTable key read (Json.ofPresent fields) = .ok t := by
  rw [readTable, getD_ofPresent hfields key _ h, ok_bind]
  exact mapM_dumpTable hkeys hvalues

end Module

/-! ### Schemas -/

/-- What a module can say of a schema. -/
structure Schema.IsWritable (s : Schema Json) : Prop where
  distinct : s.elements.Distinct
  elements : ∀ e ∈ s.elements, Label.IsText e.1 ∧ e.2.name = e.1 ∧ e.2.IsWritable
  attributeClasses : ∀ e ∈ s.attributeClasses, Label.IsText e.1 ∧ ∀ a ∈ e.2, a.IsStorable
  inheritance : ∀ e ∈ s.inheritance, Label.IsText e.1
  elementClasses : ∀ e ∈ s.elementClasses, Label.IsText e.1
  isUsable : s.isUsable = true

/-- What a schema has to be for a module to keep it. -/
structure Schema.IsStorable (s : Schema Json) : Prop where
  distinct : s.elements.Distinct
  elements : ∀ e ∈ s.elements, Label.IsText e.1 ∧ e.2.name = e.1 ∧ e.2.IsStorable
  attributeClasses : ∀ e ∈ s.attributeClasses, Label.IsText e.1 ∧ ∀ a ∈ e.2, a.IsStorable
  inheritance : ∀ e ∈ s.inheritance, Label.IsText e.1
  elementClasses : ∀ e ∈ s.elementClasses, Label.IsText e.1
  isUsable : s.isUsable = true

namespace Schema

/-- The fields of a module. -/
def fields (s : Schema Json) (elements : List Json) : List (String × Option Json) :=
  [("formatVersion", some (.int moduleVersion)), ("id", some s.id), ("name", some s.name),
   ("elements", some (.array elements)),
   ("attributeClasses", some (dumpTable
     (fun attributes => .array (attributes.map AttributeSpec.dump)) s.attributeClasses)),
   ("attributeClassInheritance", some (dumpTable
     (fun classes => .array (classes.map fun c => c)) s.inheritance)),
   ("elementAttributeClasses", some (dumpTable
     (fun classes => .array (classes.map fun c => c)) s.elementClasses))]

theorem dump_eq (s : Schema Json) {elements : List Json}
    (h : (s.elements.mapM fun (_, e) => e.dump) = .ok elements) :
    s.dump = .ok (Json.ofPresent (s.fields elements)) := by
  rw [dump, h, ok_bind, fields]
  simp only [List.map_id']
  rfl

/-- The schema as a module has it. -/
def normal (s : Schema Json) : Schema Json :=
  { s with elements := s.elements.map fun e => (e.1, e.2.normal) }

theorem distinct_normal {s : Schema Json} (h : s.elements.Distinct) : s.normal.elements.Distinct :=
  List.pairwise_map.mpr h

namespace IsWritable

variable {s : Schema Json} (h : s.IsWritable)

include h

/-- The normal forms of the elements are the dictionary of the normal form. -/
theorem ofEntries_normal :
    Table.ofEntries ((s.elements.map (·.2.normal)).map fun e => (e.name, e))
      = s.normal.elements := by
  have hself : (s.elements.map (·.2.normal)).map (fun e => (e.name, e)) = s.normal.elements := by
    rw [List.map_map, normal]
    refine List.map_congr_left fun e he => ?_
    obtain ⟨-, hname, -⟩ := h.elements e he
    exact Prod.ext hname rfl
  rw [hself, Table.ofEntries_eq (distinct_normal h.distinct)]

theorem isUsable_normal : s.normal.isUsable = true := by
  rw [Schema.isUsable, List.all_eq_true]
  intro entry hentry
  obtain ⟨e, he, rfl⟩ := List.mem_map.mp hentry
  have husable := Bool.and_eq_true_iff.mp (List.all_eq_true.mp h.isUsable e he)
  refine Bool.and_eq_true_iff.mpr ⟨?_, husable.2⟩
  exact ((h.elements e he).2.2.children_normal.1.all_eq).trans husable.1

/-- The normal form of a schema is written as the schema is. -/
theorem dump_normal : s.normal.dump = s.dump := by
  have helements : (s.normal.elements.mapM fun (_, e) => e.dump)
      = s.elements.mapM fun (_, e) => e.dump := by
    rw [normal]
    simp only [List.mapM_map]
    exact mapM_congr fun e he => (h.elements e he).2.2.dump_normal
  rw [dump, dump, helements]
  rfl

/-- **A schema is read back in its normal form,** and that is written as the same module. -/
theorem exists_dump_load : ∃ v, s.dump = .ok v ∧ Module.load v = .ok s.normal := by
  obtain ⟨elements, hdump, hread⟩ :=
    exists_mapM_eq_ok (fun e : Json × ElementSpec Json => e.2.normal)
      fun e he => Module.exists_dump_readElement_normal (h.elements e he).2.2
  have hkeys : ((s.fields elements).map (·.1)).Nodup := by simp [fields]
  have hnames : ∀ n ∈ (s.elements.map (·.2.normal)).map (·.name), Label.IsText n := by
    intro n hn
    obtain ⟨spec, hspec, rfl⟩ := List.mem_map.mp hn
    obtain ⟨e, he, rfl⟩ := List.mem_map.mp hspec
    obtain ⟨htext, hname, -⟩ := h.elements e he
    exact hname ▸ htext
  have hschema : Module.readSchema (Json.ofPresent (s.fields elements)) = .ok s.normal := by
    rw [Module.readSchema, Module.elementsOf_ofPresent hkeys "elements" rfl, ok_bind, hread,
      ok_bind, Module.need_ofPresent hkeys "id" rfl, ok_bind,
      Module.need_ofPresent hkeys "name" rfl, ok_bind, Module.readNames_eq_ok hnames,
      ok_bind,
      Module.readTable_dumpTable hkeys "attributeClasses" rfl
        (fun e he => (h.attributeClasses e he).1)
        fun e he a ha => Module.readAttribute_dump ((h.attributeClasses e he).2 a ha),
      ok_bind,
      Module.readTable_dumpTable hkeys "attributeClassInheritance" rfl h.inheritance
        fun _ _ _ _ => rfl,
      ok_bind,
      Module.readTable_dumpTable hkeys "elementAttributeClasses" rfl h.elementClasses
        fun _ _ _ _ => rfl,
      ok_bind, h.ofEntries_normal]
    exact if_pos h.isUsable_normal
  refine ⟨_, s.dump_eq hdump, ?_⟩
  rw [Module.load, Json.get_ofPresent hkeys "formatVersion" rfl]
  simp only [Option.getD_some, hschema]
  rfl

end IsWritable

namespace IsStorable

variable {s : Schema Json} (h : s.IsStorable)

include h

theorem isWritable : s.IsWritable where
  distinct := h.distinct
  elements e he := ⟨(h.elements e he).1, (h.elements e he).2.1, (h.elements e he).2.2.isWritable⟩
  attributeClasses := h.attributeClasses
  inheritance := h.inheritance
  elementClasses := h.elementClasses
  isUsable := h.isUsable

theorem normal_eq : s.normal = s := by
  have helements : s.normal.elements = s.elements :=
    (List.map_congr_left fun e he => by rw [(h.elements e he).2.2.normal_eq]; rfl).trans
      (List.map_id s.elements)
  obtain ⟨id, name, elements, attributeClasses, inheritance, elementClasses⟩ := s
  rw [normal] at helements ⊢
  simp only at helements ⊢
  rw [helements]

end IsStorable

/-- **A schema of which nothing is lost is read back from its module.** -/
theorem exists_dump_load {s : Schema Json} (h : s.IsStorable) :
    ∃ v, s.dump = .ok v ∧ Module.load v = .ok s := by
  obtain ⟨v, hdump, hload⟩ := h.isWritable.exists_dump_load
  exact ⟨v, hdump, h.normal_eq ▸ hload⟩

end Schema

end MarkupGrammar
