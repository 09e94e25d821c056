import MarkupGrammar.Module.Load
import MarkupGrammar.Proofs.Json.Object
import MarkupGrammar.Proofs.Reading

/-!
# What a module keeps of elements

A module leaves out what an attribute does not say and the items of a model that has none, and the
reader puts a default in its place. So attributes and content models are read back as they were, an
attribute on the condition that nothing it says is null: that is how a module has it that nothing is
said.

## Main results

* `Module.readAttribute_dump` — an attribute is read back
* `Module.readModel_dump` — a content model is read back, whatever it is
-/

namespace MarkupGrammar

/-! ### Fields -/

namespace Module

section

variable {fields : List (String × Option Json)} (hkeys : (fields.map (·.1)).Nodup) (key : String)

include hkeys

theorem getD_ofPresent (fallback : Json) {v : Option Json} (h : fields.lookup key = some v) :
    getD key fallback (Json.ofPresent fields) = .ok (v.getD fallback) := by
  rw [Json.ofPresent, getD, Json.fields, Except.map, Json.lookup_written hkeys key h]

theorem need_ofPresent {v : Json} (h : fields.lookup key = some (some v)) :
    need key (Json.ofPresent fields) = .ok v := by
  rw [Json.ofPresent, need]
  simp only [Json.lookup_written hkeys key h]

end

end Module

/-! ### Attributes -/

/-- No field of the attribute is null where a module would have null for its absence. -/
structure AttributeSpec.IsStorable (a : AttributeSpec Json) : Prop where
  defaultValue : a.defaultValue ≠ some .null
  datatype : a.datatype ≠ some .null
  documentation : a.documentation ≠ some .null

namespace AttributeSpec

/-- The fields of an attribute in a module. -/
def fields (a : AttributeSpec Json) : List (String × Option Json) :=
  [("name", some a.name), ("required", if a.isRequired then some (.bool true) else none),
   ("values", a.values.map Json.array), ("defaultValue", a.defaultValue),
   ("datatype", a.datatype), ("documentation", a.documentation),
   ("suggestedValues", a.suggested.map Json.array)]

theorem dump_eq (a : AttributeSpec Json) : a.dump = Json.ofPresent a.fields := by
  obtain ⟨name, isRequired, values, defaultValue, datatype, documentation, suggested⟩ := a
  rw [dump, Json.ofPresent, Json.written, fields]
  cases isRequired <;> cases values <;> cases defaultValue <;> cases datatype <;>
    cases documentation <;> cases suggested <;> rfl

theorem nodup_fields (a : AttributeSpec Json) : (a.fields.map (·.1)).Nodup := by
  simp [fields]

end AttributeSpec

namespace Module

theorem nameOrNone_getD {v : Option Json} (h : v ≠ some .null) :
    (v.getD .null).nameOrNone = v := by
  cases v with
  | none => rfl
  | some v =>
    cases v with
    | null => exact (h rfl).elim
    | _ => rfl

theorem optionalList_getD (names : Option (List Json)) :
    optionalList ((names.map Json.array).getD .null) = .ok names := by
  cases names <;> rfl

/-- **An attribute is read back.** -/
theorem readAttribute_dump {a : AttributeSpec Json} (h : a.IsStorable) :
    readAttribute a.dump = .ok a := by
  have hkeys := a.nodup_fields
  have hrequired : (!((if a.isRequired then some (Json.bool true) else none).getD
      (.bool false)).isVoid) = a.isRequired := by
    cases a.isRequired <;> rfl
  rw [AttributeSpec.dump_eq, readAttribute, Json.get_ofPresent hkeys "values" rfl, ok_bind,
    Json.get_ofPresent hkeys "suggestedValues" rfl, ok_bind,
    need_ofPresent hkeys "name" rfl, ok_bind,
    getD_ofPresent hkeys "required" _ rfl, ok_bind, optionalList_getD, ok_bind,
    Json.get_ofPresent hkeys "defaultValue" rfl, ok_bind,
    Json.get_ofPresent hkeys "datatype" rfl, ok_bind,
    Json.get_ofPresent hkeys "documentation" rfl, ok_bind, optionalList_getD, ok_bind,
    nameOrNone_getD h.defaultValue, nameOrNone_getD h.datatype, nameOrNone_getD h.documentation,
    hrequired]
  rfl

end Module

/-! ### Bounds -/

namespace Module

/-- What is read from the fields of bounds. -/
def occursOf (b : Bounds) : Occurs × Occurs :=
  (.given (.nat b.least),
    match b.most with
    | .finite n => .given (.nat n)
    | .unbounded => .unbounded)

theorem checkBounds_occursOf (b : Bounds) : checkBounds (occursOf b) = .ok b := by
  obtain ⟨least, most, ordered⟩ := b
  cases most with
  | unbounded => rfl
  | finite n =>
    have hlimits : Bounds.ofOccurs (.given (.nat least)) (.given (.nat n))
        = Bounds.ofLimits least (.finite n) := rfl
    rw [occursOf, checkBounds]
    simp only [hlimits, Bounds.ofLimits, dif_pos ordered]

theorem readLimit_toJson (most : Limit) :
    readLimit most.toJson = .ok (match most with
      | .finite n => .given (.nat n)
      | .unbounded => .unbounded) := by
  cases most with
  | finite n => rfl
  | unbounded => rw [Limit.toJson, readLimit, Json.string_beq]; rfl

/-- Bounds are read back from the fields of a model or item. -/
theorem readOccurs_ofPresent {fields : List (String × Option Json)}
    (hkeys : (fields.map (·.1)).Nodup) {b : Bounds}
    (hleast : fields.lookup "minOccurs" = some (some (.nat b.least)))
    (hmost : fields.lookup "maxOccurs" = some (some b.most.toJson)) :
    readOccurs (Json.ofPresent fields) = .ok (occursOf b) := by
  rw [readOccurs, getD_ofPresent hkeys "minOccurs" _ hleast, ok_bind,
    show (Option.getD (some (Json.nat b.least)) _).integer = .ok ↑b.least from rfl, ok_bind,
    getD_ofPresent hkeys "maxOccurs" _ hmost, ok_bind, Option.getD_some, readLimit_toJson]
  rfl

/-! ### Content models -/

theorem ofWord?_word (a : Arrangement) : Arrangement.ofWord? (.string a.word) = some a := by
  cases a <;> rfl

/-- The items of a model are in its `items` field. -/
theorem readItemsField_of_lookup {fields : List (Text × Json)} {items : List Json}
    (h : Json.lookup (Text.ofString "items") fields = some (.array items)) :
    readItemsField fields = readItems items := by
  induction fields with
  | nil => exact nomatch h
  | cons e fields ih =>
    obtain ⟨key, value⟩ := e
    rw [Json.lookup] at h
    by_cases hkey : key = Text.ofString "items"
    · rw [if_pos hkey] at h
      obtain rfl := Option.some.inj h
      rw [readItemsField, if_pos hkey]
    · rw [if_neg hkey] at h
      cases value <;> simp only [readItemsField, if_neg hkey, ih h]

theorem readItemsField_of_lookup_none {fields : List (Text × Json)}
    (h : Json.lookup (Text.ofString "items") fields = none) :
    readItemsField fields = .ok [] := by
  induction fields with
  | nil => rfl
  | cons e fields ih =>
    obtain ⟨key, value⟩ := e
    rw [Json.lookup] at h
    by_cases hkey : key = Text.ofString "items"
    · rw [if_pos hkey] at h
      exact absurd h (Option.some_ne_none _)
    · rw [if_neg hkey] at h
      cases value <;> simp only [readItemsField, if_neg hkey, ih h]

/-- The model of a group is in its `content` field. -/
theorem readContentField_of_lookup {fields : List (Text × Json)} {content : Json}
    (h : Json.lookup (Text.ofString "content") fields = some content) :
    readContentField fields = readModel content := by
  induction fields with
  | nil => exact nomatch h
  | cons e fields ih =>
    obtain ⟨key, value⟩ := e
    rw [Json.lookup] at h
    rw [readContentField]
    by_cases hkey : key = Text.ofString "content"
    · rw [if_pos hkey] at h ⊢
      rw [Option.some.inj h]
    · rw [if_neg hkey] at h ⊢
      exact ih h

end Module

/-- The fields of a content model in a module. -/
def ContentModel.fields (m : ContentModel Json) : List (String × Option Json) :=
  [("type", some (.string m.arrangement.word)), ("minOccurs", some (.nat m.bounds.least)),
   ("maxOccurs", some m.bounds.most.toJson),
   ("items", if (Item.dumpAll m.items).isEmpty then none else some (.array (Item.dumpAll m.items)))]

theorem ContentModel.dump_eq (m : ContentModel Json) : m.dump = Json.ofPresent m.fields := by
  obtain ⟨arrangement, items, bounds⟩ := m
  rw [dump, fields, Json.ofPresent]
  cases Item.dumpAll items <;> rfl

/-- The fields of an item in a module. -/
def Item.fields : Item Json → List (String × Option Json)
  | .element name b => [("kind", some (.string "element")), ("minOccurs", some (.nat b.least)),
      ("maxOccurs", some b.most.toJson), ("name", some name)]
  | .text b => [("kind", some (.string "text")), ("minOccurs", some (.nat b.least)),
      ("maxOccurs", some b.most.toJson)]
  | .group content b => [("kind", some (.string "group")), ("minOccurs", some (.nat b.least)),
      ("maxOccurs", some b.most.toJson), ("content", some content.dump)]
  | .pattern name b => [("kind", some (.string "model")), ("minOccurs", some (.nat b.least)),
      ("maxOccurs", some b.most.toJson), ("name", some name)]

theorem Item.dump_eq (item : Item Json) : item.dump = Json.ofPresent item.fields := by
  cases item <;> rfl

namespace Module

mutual

/-- **A content model is read back.** -/
theorem readModel_dump (m : ContentModel Json) : readModel m.dump = .ok m := by
  obtain ⟨arrangement, items, bounds⟩ := m
  have hkeys : ((ContentModel.fields ⟨arrangement, items, bounds⟩).map (·.1)).Nodup := by
    simp [ContentModel.fields]
  have hitems : readItemsField (Json.written (ContentModel.fields ⟨arrangement, items, bounds⟩))
      = .ok items := by
    have hlookup := Json.lookup_written hkeys "items" rfl
    have hread := readItems_dumpAll items
    by_cases hempty : (Item.dumpAll items).isEmpty = true
    · rw [if_pos hempty] at hlookup
      rw [readItemsField_of_lookup_none hlookup]
      rwa [List.isEmpty_iff.mp hempty, readItems] at hread
    · rw [if_neg hempty] at hlookup
      rwa [readItemsField_of_lookup hlookup]
  rw [ContentModel.dump_eq, Json.ofPresent, readModel, ← Json.ofPresent,
    need_ofPresent hkeys "type" rfl, ok_bind, ofWord?_word]
  simp only
  rw [hitems, ok_bind, readOccurs_ofPresent hkeys rfl rfl, ok_bind, checkBounds_occursOf, ok_bind]
  rfl
termination_by (sizeOf m, 1)

theorem readItems_dumpAll (items : List (Item Json)) :
    readItems (Item.dumpAll items) = .ok items := by
  cases items with
  | nil => rw [Item.dumpAll, readItems]
  | cons item items =>
    rw [Item.dumpAll, readItems, readItem_dump item, ok_bind, readItems_dumpAll items, ok_bind]
    rfl
termination_by (sizeOf items, 0)

theorem readItem_dump (item : Item Json) : readItem item.dump = .ok item := by
  have hkeys : (item.fields.map (·.1)).Nodup := by cases item <;> simp [Item.fields]
  rw [Item.dump_eq, Json.ofPresent, readItem, ← Json.ofPresent]
  cases item with
  | element name bounds =>
    rw [need_ofPresent hkeys "kind" rfl, ok_bind, readOccurs_ofPresent hkeys rfl rfl, ok_bind]
    simp only [Json.string_beq, String.reduceBEq, if_true]
    rw [need_ofPresent hkeys "name" rfl, ok_bind, checkBounds_occursOf]
    rfl
  | text bounds =>
    rw [need_ofPresent hkeys "kind" rfl, ok_bind, readOccurs_ofPresent hkeys rfl rfl, ok_bind]
    simp only [Json.string_beq, String.reduceBEq, Bool.false_eq_true, if_false, if_true]
    rw [checkBounds_occursOf]
    rfl
  | group content bounds =>
    have hcontent : readContentField (Json.written (Item.group content bounds).fields)
        = .ok content := by
      rw [readContentField_of_lookup (Json.lookup_written hkeys "content" rfl),
        readModel_dump content]
    rw [need_ofPresent hkeys "kind" rfl, ok_bind, readOccurs_ofPresent hkeys rfl rfl, ok_bind]
    simp only [Json.string_beq, String.reduceBEq, Bool.false_eq_true, if_false, if_true]
    rw [hcontent, ok_bind, checkBounds_occursOf]
    rfl
  | pattern name bounds =>
    rw [need_ofPresent hkeys "kind" rfl, ok_bind, readOccurs_ofPresent hkeys rfl rfl, ok_bind]
    simp only [Json.string_beq, String.reduceBEq, Bool.false_eq_true, if_false, if_true]
    rw [need_ofPresent hkeys "name" rfl, ok_bind, checkBounds_occursOf]
    rfl
termination_by (sizeOf item, 0)

end

end Module

end MarkupGrammar
