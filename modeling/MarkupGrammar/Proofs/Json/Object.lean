import MarkupGrammar.Grammar.Failure
import MarkupGrammar.Proofs.Grammar.Table

/-!
# Objects with literal keys

What is written as JSON mostly has the same few fields, under keys that stand in the program as
string literals, and some of them are left out. Such an object is described by the list of its
fields with the values that they have or do not have (`Json.ofPresent`). What is found in it under a
key is then read off the list, where keys are strings and are compared without a look at their code
points.

## Main results

* `Json.string_beq` — literal texts are compared as strings
* `Json.lookup_written` — what is found in an object whose fields may be left out
-/

namespace MarkupGrammar

theorem CodePoint.ofChar_injective : Function.Injective CodePoint.ofChar := by
  intro c d h
  exact Char.toNat_inj.mp (congrArg CodePoint.val h)

theorem Text.ofString_injective : Function.Injective Text.ofString := by
  intro s t h
  exact String.toList_inj.mp ((List.map_inj_right fun c d => @CodePoint.ofChar_injective c d).mp h)

namespace Json

/-- Literal texts are the same value when they are the same string. -/
theorem string_beq (s t : String) : (Json.string s == Json.string t) = (s == t) := by
  have h : (Json.string s == Json.string t) = true ↔ Json.string s = Json.string t :=
    LawfulLabel.beq_ofText_iff (Json.string s) (Text.ofString t)
  have hst : Json.string s = Json.string t ↔ s = t :=
    ⟨fun heq => Text.ofString_injective (Json.text.inj heq), congrArg Json.string⟩
  cases hs : s == t with
  | true => exact h.mpr (hst.mpr (beq_iff_eq.mp hs))
  | false => exact Bool.eq_false_iff.mpr fun heq => beq_eq_false_iff_ne.mp hs (hst.mp (h.mp heq))

/-- A field of an object with literal keys is found by comparing strings. -/
theorem lookup_ofFields (key : String) (fields : List (String × Json)) :
    lookup (Text.ofString key) (fields.map fun (k, v) => (Text.ofString k, v))
      = fields.lookup key := by
  induction fields with
  | nil => rfl
  | cons e fields ih =>
    obtain ⟨k, v⟩ := e
    rw [List.map_cons, lookup, ih, List.lookup_cons]
    by_cases h : k = key
    · simp [h]
    · have hkey : (key == k) = false := beq_eq_false_iff_ne.mpr (Ne.symm h)
      rw [if_neg fun heq => h (Text.ofString_injective heq), hkey]

/-- The fields of an object that have a value. -/
def present (fields : List (String × Option Json)) : List (String × Json) :=
  fields.filterMap fun (key, v) => v.map (key, ·)

/-- The fields that have a value, with their keys as texts. -/
def written (fields : List (String × Option Json)) : List (Text × Json) :=
  (present fields).map fun (key, v) => (Text.ofString key, v)

/-- An object in which the fields without a value are left out. -/
def ofPresent (fields : List (String × Option Json)) : Json := .object (written fields)

@[simp] theorem present_cons_none (key : String) (fields : List (String × Option Json)) :
    present ((key, none) :: fields) = present fields :=
  rfl

@[simp] theorem present_cons_some (key : String) (v : Json)
    (fields : List (String × Option Json)) :
    present ((key, some v) :: fields) = (key, v) :: present fields :=
  rfl

theorem lookup_present_eq_none {key : String} {fields : List (String × Option Json)}
    (h : key ∉ fields.map (·.1)) : (present fields).lookup key = none := by
  induction fields with
  | nil => rfl
  | cons e fields ih =>
    obtain ⟨k, v⟩ := e
    rw [List.map_cons, List.mem_cons, not_or] at h
    have hkey : (key == k) = false := beq_eq_false_iff_ne.mpr h.1
    cases v with
    | none => exact ih h.2
    | some v =>
      rw [present_cons_some, List.lookup_cons, hkey]
      exact ih h.2

/-- A field with a key of its own is found if it has a value. -/
theorem lookup_present {fields : List (String × Option Json)}
    (hkeys : (fields.map (·.1)).Nodup) (key : String) :
    (present fields).lookup key = (fields.lookup key).join := by
  induction fields with
  | nil => rfl
  | cons e fields ih =>
    obtain ⟨k, v⟩ := e
    obtain ⟨hk, hrest⟩ := List.nodup_cons.mp hkeys
    rw [List.lookup_cons]
    cases hkey : key == k with
    | false =>
      cases v with
      | none => exact ih hrest
      | some v =>
        rw [present_cons_some, List.lookup_cons, hkey]
        exact ih hrest
    | true =>
      obtain rfl := beq_iff_eq.mp hkey
      cases v with
      | none => rw [present_cons_none]; exact lookup_present_eq_none hk
      | some v => rw [present_cons_some, List.lookup_cons, hkey]; rfl

section

variable {fields : List (String × Option Json)} (hkeys : (fields.map (·.1)).Nodup) (key : String)

include hkeys

theorem lookup_written {v : Option Json} (h : fields.lookup key = some v) :
    lookup (Text.ofString key) (written fields) = v := by
  rw [written, lookup_ofFields, lookup_present hkeys, h]
  rfl

theorem get_ofPresent {v : Option Json} (h : fields.lookup key = some v) :
    (ofPresent fields).get key = .ok (v.getD .null) := by
  rw [ofPresent, get, Json.fields, Except.map, lookup_written hkeys key h]

end

end Json

end MarkupGrammar
