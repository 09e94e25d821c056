import MarkupGrammar.Module.Graph
import MarkupGrammar.Proofs.Grammar.Resolution
import MarkupGrammar.Proofs.Json.Name
import MarkupGrammar.Proofs.Module.Mending

/-!
# Whatever is loaded is consistent

A module is data from outside, and says some things twice: the children of an element and the
content model that they follow from, the name of an element and its place in the table of elements.
What it says of bounds may be impossible. None of this is in a schema that has been loaded. All
bounds in it, at any depth, are in order, and they are those that are written in the module; the
children of an element with a content model are the names in that model; an element is found under
its own name; and the attributes of every element can be looked up.

A module in which nothing is wrong but bounds is refused.

Names need not be texts in a module. They are compared as names are, so that `1` and `true` are the
same name, and an element that is defined under both is in the table once.

## Main results

* `Module.isConsistent_of_readSchema` — what is read is consistent
* `Module.isConsistent_or_refused_load` — what is loaded is consistent, and bad bounds are refused
-/

namespace MarkupGrammar

/-- What a schema that was read from a module can be relied on for. -/
structure Schema.IsConsistent (s : Schema Json) (d : Json) : Prop where
  /-- Every model and item that is read has bounds that some count can meet. -/
  ordered : ∀ x, Module.Holds .schema d x →
    ∃ least most, Module.readOccurs x = .ok (.given (.int least), most) ∧ 0 ≤ least ∧
      (most = .unbounded ∨ ∃ m, most = .given (.int m) ∧ least ≤ m)
  /-- The bounds in the schema are in order, and they are written in the module. -/
  bounds : ∀ k e, (k, e) ∈ s.elements → ∀ b ∈ e.allBounds,
    (b.most = .unbounded ∨ ∃ m, b.most = .finite m ∧ b.least ≤ m) ∧
      ∃ x, Module.Holds .schema d x ∧ Module.readOccurs x = .ok (Module.occursOf b)
  /-- An element has the name and the content of one of the elements that the module lists. -/
  defined : ∀ k e, (k, e) ∈ s.elements → ∃ vs v, Module.elementsOf "elements" d = .ok vs ∧ v ∈ vs ∧
    Module.need "name" v = .ok e.name ∧ Module.IsContentOf v e.content
  /-- The children of an element with a model are the names in it, each once. -/
  children : ∀ k e, (k, e) ∈ s.elements → ∀ m, e.model? = some m →
    (∀ n ∈ m.names, ∃ c ∈ e.children, (c == n) = true) ∧ (∀ c ∈ e.children, c ∈ m.names) ∧
      e.children.Pairwise fun a b => (b == a) = false
  /-- No key is in the table twice. -/
  distinct : s.elements.Distinct
  /-- The key of an element is its name, and the element is found under it. -/
  keyed : ∀ k e, (k, e) ∈ s.elements → (k == e.name) = true ∧ s.element? e.name = some e
  /-- The attributes of an element are those that the tables of the schema give it. -/
  resolved : ∀ k e, (k, e) ∈ s.elements → s.resolve k = .ok (s.attributesOf k) ∧
    (s.IsTextual → s.IsResolution e (s.attributesOf k))

namespace Module

variable {d : Json} {s : Schema Json}

/-! ### Bounds -/

theorem eq_occursOf_of_ofOccurs {least most : Occurs} {b : Bounds}
    (h : Bounds.ofOccurs least most = .ok b) : (least, most) = occursOf b := by
  unfold Bounds.ofOccurs at h
  split at h
  · split at h
    · obtain rfl := Except.ok.inj h
      rfl
    · rw [Bounds.ofLimits] at h
      split at h
      · obtain rfl := Except.ok.inj h
        rfl
      · cases h
    · cases h
  · cases h

/-- Bounds that are in order are written as integers. -/
theorem readOccurs_of_boundsOf {x : Json} {b : Bounds} (h : boundsOf x = .ok b) :
    readOccurs x = .ok (occursOf b) := by
  obtain ⟨occurs, hoccurs, hcheck⟩ := exists_of_bind_eq_ok h
  rw [checkBounds] at hcheck
  split at hcheck
  · next hlimits =>
    obtain rfl := Except.ok.inj hcheck
    rw [hoccurs, ← eq_occursOf_of_ofOccurs hlimits]
  · cases hcheck

theorem ordered_occursOf (b : Bounds) : ∃ least most, occursOf b = (.given (.int least), most) ∧
    0 ≤ least ∧ (most = .unbounded ∨ ∃ m, most = .given (.int m) ∧ least ≤ m) := by
  obtain ⟨least, most, hordered⟩ := b
  refine ⟨least, _, rfl, Int.natCast_nonneg least, ?_⟩
  cases most with
  | unbounded => exact Or.inl rfl
  | finite m => exact Or.inr ⟨m, rfl, Int.ofNat_le.mpr (of_decide_eq_true hordered)⟩

theorem model?_eq_some_iff {e : ElementSpec Json} {m : ContentModel Json} :
    e.model? = some m ↔ e.content = .model m := by
  rw [ElementSpec.model?]
  cases e.content <;> simp

theorem exists_of_holds (hs : readSchema d = .ok s) {x : Json} (hx : Holds .schema d x) :
    ∃ b, boundsOf x = .ok b := by
  obtain ⟨vs, es, hvs, hes, -⟩ := exists_of_readSchema hs
  obtain ⟨vs', hvs', v, hv, hx⟩ := holds_schema_iff.mp hx
  obtain rfl := Except.ok.inj (hvs'.symm.trans hvs)
  obtain ⟨e, -, he⟩ := exists_read_of_mem_mapM hes v hv
  obtain ⟨b, -, hb⟩ := (areBoundsOf_readElement he).ordered x hx
  exact ⟨b, hb⟩

/-! ### Elements -/

/-- An entry of a table of elements: one of some elements, under a name that is the same as its
own. -/
structure IsEntryOf (es : List (ElementSpec Json)) (entry : Json × ElementSpec Json) : Prop where
  isName_key : entry.1.isName = true
  isName_name : entry.2.name.isName = true
  same : (entry.1 == entry.2.name) = true
  listed : entry.2 ∈ es

theorem isEntryOf_ofEntries {es : List (ElementSpec Json)} (h : ∀ e ∈ es, e.name.isName = true) :
    ∀ entry ∈ Table.ofEntries (es.map fun e => (e.name, e)), IsEntryOf es entry := by
  refine Table.forall_mem_ofEntries (List.forall_mem_map.mpr fun e he => ?_)
    (List.forall_mem_map.mpr fun e he f hf hsame => ?_)
  · exact ⟨h e he, h e he, Json.beq_self_of_isName (h e he), he⟩
  · exact ⟨hf.isName_key, h e he, hsame, he⟩

/-- An element of a schema is read from one of the elements that the module lists. -/
theorem exists_of_mem_elements (hs : readSchema d = .ok s) {entry : Json × ElementSpec Json}
    (hentry : entry ∈ s.elements) : ∃ vs v es, elementsOf "elements" d = .ok vs ∧ v ∈ vs ∧
      readElement v = .ok entry.2 ∧ IsEntryOf es entry := by
  obtain ⟨vs, es, hvs, hes, hnames, helements, -⟩ := exists_of_readSchema hs
  rw [helements] at hentry
  have hentry := isEntryOf_ofEntries hnames entry hentry
  obtain ⟨v, hv, hread⟩ := exists_of_mem_mapM hes entry.2 hentry.listed
  exact ⟨vs, v, es, hvs, hv, hread, hentry⟩

/-- The children of an element with a model are the names in it, each once. -/
theorem children_of_readElement {v : Json} {e : ElementSpec Json} (h : readElement v = .ok e)
    {m : ContentModel Json} (hm : e.model? = some m) :
    (∀ n ∈ m.names, ∃ c ∈ e.children, (c == n) = true) ∧ (∀ c ∈ e.children, c ∈ m.names) ∧
      e.children.Pairwise fun a b => (b == a) = false := by
  have hmodel : e.content = .model m := model?_eq_some_iff.mp hm
  have hchildren : e.children = m.names.eraseDups := by
    rw [ElementSpec.children, hmodel]
    rfl
  have hcontent := (isContentOf_readElement h).2
  rw [hmodel] at hcontent
  rw [hchildren]
  cases hcontent with
  | model hw hvoid hm hnames =>
    exact ⟨fun n hn => Json.exists_beq_mem_eraseDups hnames hn,
      fun c hc => Label.mem_of_mem_eraseDups hc, pairwise_eraseDups _⟩

/-- **What is read is consistent.** -/
theorem isConsistent_of_readSchema (hs : readSchema d = .ok s) : s.IsConsistent d := by
  have hkeys : ∀ entry ∈ s.elements, entry.1.isName = true := by
    intro entry hentry
    obtain ⟨_, _, _, _, _, _, h⟩ := exists_of_mem_elements hs hentry
    exact h.isName_key
  obtain ⟨_, _, _, _, _, helements, husable⟩ := exists_of_readSchema hs
  have hdistinct : s.elements.Distinct := by
    rw [helements]
    exact Table.distinct_ofEntries _
  have hfind {k e} (he : (k, e) ∈ s.elements) : s.element? k = some e :=
    Table.find?_of_mem_of_areNames hkeys hdistinct he
  refine {
    ordered := fun x hx => ?_
    bounds := fun k e he b hb => ?_
    defined := fun k e he => ?_
    children := fun k e he m hm => ?_
    distinct := hdistinct
    keyed := fun k e he => ?_
    resolved := fun k e he => ?_ }
  · obtain ⟨b, hb⟩ := exists_of_holds hs hx
    rw [readOccurs_of_boundsOf hb]
    obtain ⟨least, most, hoccurs, hordered⟩ := ordered_occursOf b
    exact ⟨least, most, congrArg _ hoccurs, hordered⟩
  · obtain ⟨vs, v, -, hvs, hv, hread, -⟩ := exists_of_mem_elements hs he
    obtain ⟨x, hx, hbounds⟩ := (areBoundsOf_readElement hread).written b hb
    refine ⟨?_, x, .ofSchema hvs hv hx, readOccurs_of_boundsOf hbounds⟩
    cases hmost : b.most with
    | unbounded => exact Or.inl rfl
    | finite m => exact Or.inr ⟨m, rfl, b.least_le hmost⟩
  · obtain ⟨vs, v, -, hvs, hv, hread, -⟩ := exists_of_mem_elements hs he
    exact ⟨vs, v, hvs, hv, isContentOf_readElement hread⟩
  · obtain ⟨_, _, _, _, _, hread, -⟩ := exists_of_mem_elements hs he
    exact children_of_readElement hread hm
  · obtain ⟨_, _, _, _, _, _, h⟩ := exists_of_mem_elements hs he
    refine ⟨h.same, ?_⟩
    rw [Schema.element?,
      ← Table.find?_congr_of_areNames hkeys h.isName_key h.isName_name h.same]
    exact hfind he
  · refine ⟨?_, fun htextual => Schema.isResolution_attributesOf htextual (hfind he)⟩
    have hresolve := (Bool.and_eq_true _ _ ▸ List.all_eq_true.mp husable (k, e) he).2
    have hname : k.isName = true := hkeys (k, e) he
    rw [Schema.resolve, hname, hfind he, Option.map_some, Option.getD_some, hresolve]
    rfl

/-! ### Modules -/

theorem not_hasBadBounds_of_boundsOf {x : Json} {b : Bounds} (h : boundsOf x = .ok b) :
    hasBadBounds x = false := by
  obtain ⟨occurs, hoccurs, hcheck⟩ := exists_of_bind_eq_ok h
  rcases checkBounds_of_readOccurs hoccurs with ⟨-, hgood⟩ | ⟨⟨e, he⟩, -⟩
  · exact hgood
  · cases he.symm.trans hcheck

/-- **Loading never yields an inconsistent schema.** A module that is loaded yields a consistent
one. A module that would be loaded but for bad bounds, in a model or an item at any depth, is
refused for its bounds. -/
theorem isConsistent_or_refused_load (d : Json) :
    (∀ s, load d = .ok s → s.IsConsistent d) ∧
      ∀ s, load (mend .schema d) = .ok s → ∀ x, Holds .schema d x → hasBadBounds x = true →
        ∃ e, load d = .error (.of (.invalidModule (.badBounds e)) (Text.ofString "compiled")) := by
  have hread {s} (h : load d = .ok s) : readSchema d = .ok s := by
    obtain ⟨-, -, -, hs⟩ := load_eq_ok_iff.mp h
    exact hs
  refine ⟨fun s h => isConsistent_of_readSchema (hread h), fun s h x hx hbad => ?_⟩
  refine (load_of_load_mend h).resolve_left fun hload => ?_
  obtain ⟨b, hb⟩ := exists_of_holds (hread hload) hx
  exact nomatch hbad.symm.trans (not_hasBadBounds_of_boundsOf hb)

/-- An item that has to occur twice and may occur once. -/
def crossedItem : Json :=
  .ofFields [("kind", .string "element"), ("name", .string "item"), ("minOccurs", .int 2),
    ("maxOccurs", .string " 1 ")]

/-- A module in which the item is in a group. -/
def crossedLists : Json :=
  .ofFields
    [("formatVersion", .int 1), ("id", .string "lists"), ("name", .string "Lists"),
     ("elements", .array
       [.ofFields
         [("name", .string "list"), ("children", .array [.string "note"]),
          ("contentModel", .ofFields
            [("type", .string "sequence"),
             ("items", .array
               [.ofFields
                 [("kind", .string "group"),
                  ("content", .ofFields
                    [("type", .string "choice"), ("items", .array [crossedItem])])]])])]])]

/-- What is read of the module when it has been mended. -/
def uncrossedSchema : Schema Json where
  id := .string "lists"
  name := .string "Lists"
  elements :=
    [(.string "list",
      { name := .string "list"
        documentation := none
        attributeClasses := []
        modelClasses := []
        attributes := []
        shape := none
        content := .model ⟨.sequence,
          [.group ⟨.choice, [.element (.string "item") .once], .once⟩ .once], .once⟩ })]
  attributeClasses := []
  inheritance := []
  elementClasses := []

/-- The crossed bounds are refused, and once they are mended the schema is consistent. -/
theorem isConsistent_or_refused_crossedLists :
    load (mend .schema crossedLists) = .ok uncrossedSchema ∧
      uncrossedSchema.IsConsistent (mend .schema crossedLists) ∧
      Holds .schema crossedLists crossedItem ∧ hasBadBounds crossedItem = true ∧
      ∃ e, load crossedLists
        = .error (.of (.invalidModule (.badBounds e)) (Text.ofString "compiled")) := by
  have husable : uncrossedSchema.isUsable = true := by cbv
  have hread : readSchema (mend .schema crossedLists) = .ok uncrossedSchema := by
    refine Eq.trans (b := if uncrossedSchema.isUsable then .ok uncrossedSchema
      else .error .wrongKind) ?_ (if_pos husable)
    rfl
  have hload : load (mend .schema crossedLists) = .ok uncrossedSchema :=
    load_eq_ok_iff.mpr ⟨.int 1, rfl, rfl, hread⟩
  have hitem : Holds .schema crossedLists crossedItem :=
    .ofSchema rfl List.mem_cons_self <| .ofElement rfl rfl <|
      .ofItems rfl List.mem_cons_self <| .ofContent rfl rfl <|
        .ofItems rfl List.mem_cons_self <| .item crossedItem
  have hbad : hasBadBounds crossedItem = true := by decide
  exact ⟨hload, (isConsistent_or_refused_load _).1 _ hload, hitem, hbad,
    (isConsistent_or_refused_load _).2 _ hload crossedItem hitem hbad⟩

end Module

end MarkupGrammar
