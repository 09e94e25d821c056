import MarkupGrammar.Proofs.Module.Normal

/-!
# The bounds in a module

Content models and their items stand in a module at any depth, and each is written with bounds of
its own, in any form that stands for integers. A reader looks at all of them. So the bounds of a
content model that has been read, at whatever depth, are those that are written in the module, and
every pair that is written there has been found to be in order.

What a module has under other keys is not looked at: it may be anything, and that includes models
with impossible bounds, such as the content of an item that is no group.

## Main definitions

* `Module.Holds` — the models and items in a part of a module
* `Module.boundsOf` — the bounds that a model or item is written with
* `ContentModel.allBounds` — the bounds in a content model at any depth

## Main results

* `Module.areBoundsOf_readModel` — the bounds of a content model are those that are written
* `Module.areBoundsOf_readElement` — and so are those of an element
-/

namespace MarkupGrammar

/-! ### Bounds at any depth -/

section

variable {Name : Type}

mutual

/-- The bounds of a content model and of everything in it. -/
def ContentModel.allBounds : ContentModel Name → List Bounds
  | ⟨_, items, bounds⟩ => bounds :: Item.allBoundsIn items

/-- The bounds of some items and of everything in them. -/
def Item.allBoundsIn : List (Item Name) → List Bounds
  | [] => []
  | item :: items => item.allBounds ++ Item.allBoundsIn items

/-- The bounds of an item and of everything in it. -/
def Item.allBounds : Item Name → List Bounds
  | .element _ bounds => [bounds]
  | .text bounds => [bounds]
  | .group content bounds => bounds :: content.allBounds
  | .pattern _ bounds => [bounds]

end

/-- The bounds in the content model of an element; none when it has no model. -/
def ElementSpec.allBounds (e : ElementSpec Name) : List Bounds :=
  (e.model?.map ContentModel.allBounds).getD []

end

namespace Module

/-- The models and items in a part of a module, at any depth. -/
inductive Holds : Part → Json → Json → Prop where
  | contentModel (v : Json) : Holds .contentModel v v
  | item (v : Json) : Holds .item v v
  | ofItems {v w x : Json} {vs : List Json} (hvs : v.field? "items" = some (.array vs))
      (hw : w ∈ vs) (hx : Holds .item w x) : Holds .contentModel v x
  | ofContent {v w x : Json} (hkind : v.field? "kind" = some (.string "group"))
      (hw : v.field? "content" = some w) (hx : Holds .contentModel w x) : Holds .item v x
  | ofElement {v w x : Json} (hw : v.field? "contentModel" = some w) (hvoid : w.isVoid = false)
      (hx : Holds .contentModel w x) : Holds .element v x
  | ofSchema {d v x : Json} {vs : List Json} (hvs : elementsOf "elements" d = .ok vs) (hv : v ∈ vs)
      (hx : Holds .element v x) : Holds .schema d x

/-- The bounds that a model or item is written with. -/
def boundsOf (v : Json) : Except Fault Bounds := do
  checkBounds (← readOccurs v)

/-- Bounds are those that values are written with: each value with some of them, and each of them in
a value. -/
structure AreBoundsOf (held : Json → Prop) (bs : List Bounds) : Prop where
  ordered : ∀ x, held x → ∃ b ∈ bs, boundsOf x = .ok b
  written : ∀ b ∈ bs, ∃ x, held x ∧ boundsOf x = .ok b

namespace AreBoundsOf

variable {held held' : Json → Prop} {bs bs' : List Bounds}

theorem congr (h : AreBoundsOf held bs) (hheld : ∀ x, held x ↔ held' x) : AreBoundsOf held' bs := by
  obtain rfl : held = held' := funext fun x => propext (hheld x)
  exact h

theorem nil : AreBoundsOf (fun _ => False) [] where
  ordered _ hx := hx.elim
  written _ hb := nomatch hb

theorem append (h : AreBoundsOf held bs) (h' : AreBoundsOf held' bs') :
    AreBoundsOf (fun x => held x ∨ held' x) (bs ++ bs') where
  ordered x hx := by
    rcases hx with hx | hx
    · obtain ⟨b, hb, hbounds⟩ := h.ordered x hx
      exact ⟨b, List.mem_append_left bs' hb, hbounds⟩
    · obtain ⟨b, hb, hbounds⟩ := h'.ordered x hx
      exact ⟨b, List.mem_append_right bs hb, hbounds⟩
  written b hb := by
    rcases List.mem_append.mp hb with hb | hb
    · obtain ⟨x, hx, hbounds⟩ := h.written b hb
      exact ⟨x, Or.inl hx, hbounds⟩
    · obtain ⟨x, hx, hbounds⟩ := h'.written b hb
      exact ⟨x, Or.inr hx, hbounds⟩

/-- A model or item with everything in it. -/
theorem cons {v : Json} {b : Bounds} (hb : boundsOf v = .ok b) (h : AreBoundsOf held bs) :
    AreBoundsOf (fun x => x = v ∨ held x) (b :: bs) where
  ordered x hx := by
    rcases hx with rfl | hx
    · exact ⟨b, List.mem_cons_self, hb⟩
    · obtain ⟨c, hc, hbounds⟩ := h.ordered x hx
      exact ⟨c, List.mem_cons_of_mem b hc, hbounds⟩
  written c hc := by
    rcases List.mem_cons.mp hc with rfl | hc
    · exact ⟨v, Or.inl rfl, hb⟩
    · obtain ⟨x, hx, hbounds⟩ := h.written c hc
      exact ⟨x, Or.inr hx, hbounds⟩

end AreBoundsOf

end Module

namespace Json

theorem beq_string_iff (v : Json) (s : String) : (v == Json.string s) = true ↔ v = .string s :=
  LawfulLabel.beq_ofText_iff v (Text.ofString s)

theorem string_injective : Function.Injective Json.string :=
  fun _ _ h => Text.ofString_injective (Json.text.inj h)

end Json

namespace Module

/-! ### Models and items -/

/-- Of the fields of a model, only its items are looked at for items. -/
theorem readItemsField_cons_of_ne {key : Text} (hkey : key ≠ Text.ofString "items") (value : Json)
    (fields : List (Text × Json)) :
    readItemsField ((key, value) :: fields) = readItemsField fields := by
  cases value <;> simp only [readItemsField, if_neg hkey]

theorem readModel_eq (fields : List (Text × Json)) : readModel (.object fields) = (do
    let type ← need "type" (.object fields)
    match Arrangement.ofWord? type with
    | none => throw (.unknownTerm type "ContentModelType")
    | some arrangement =>
      let items ← readItemsField fields
      let bounds ← boundsOf (.object fields)
      return ⟨arrangement, items, bounds⟩) := by
  rw [readModel]
  refine bind_congr fun type => ?_
  cases Arrangement.ofWord? type with
  | none => rfl
  | some arrangement => simp only [boundsOf, bind_assoc]

theorem need_eq_ok_iff {key : String} {v w : Json} :
    need key v = .ok w ↔ v.field? key = some w := by
  cases v with
  | object fields =>
    rw [need, Json.field?]
    cases Json.lookup (Text.ofString key) fields <;> simp
  | _ => simp [need, Json.field?]

/-- What an item of some kind is, but for its bounds. -/
def itemOf (kind v : Json) (content : Except Fault (ContentModel Json)) :
    Except Fault (Bounds → Item Json) :=
  if kind == Json.string "element" then (need "name" v).map .element
  else if kind == Json.string "text" then .ok .text
  else if kind == Json.string "group" then content.map .group
  else if kind == Json.string "model" then (need "name" v).map .pattern
  else .error (.unknownItemKind kind)

/-- An item is read in this order: its kind, how often it may occur, what it is, and whether its
bounds are in order. -/
theorem readItem_eq (fields : List (Text × Json)) : readItem (.object fields) = (do
    let kind ← need "kind" (.object fields)
    let occurs ← readOccurs (.object fields)
    let item ← itemOf kind (.object fields) (readContentField fields)
    return item (← checkBounds occurs)) := by
  rw [readItem]
  refine congrArg _ (funext fun kind => congrArg _ (funext fun occurs => ?_))
  rw [itemOf]
  split
  · cases need "name" (.object fields) <;> rfl
  · split
    · rfl
    · split
      · cases readContentField fields <;> rfl
      · split
        · cases need "name" (.object fields) <;> rfl
        · rfl

/-- Only a group has content. -/
theorem cases_of_itemOf {kind v : Json} {content : Except Fault (ContentModel Json)}
    {item : Bounds → Item Json} (h : itemOf kind v content = .ok item) :
    (kind = .string "group" ∧ ∃ m, content = .ok m ∧ item = .group m) ∨
      kind ≠ .string "group" ∧ ∀ b, (item b).allBounds = [b] := by
  have hne {word : String} (hword : (kind == .string word) = true) (hne : word ≠ "group") :
      kind ≠ .string "group" := by
    rw [(Json.beq_string_iff kind word).mp hword]
    exact Json.string_injective.ne hne
  rw [itemOf] at h
  split at h
  · next hword =>
    obtain ⟨name, -, rfl⟩ := exists_of_map_eq_ok h
    exact Or.inr ⟨hne hword (by decide), fun _ => rfl⟩
  · split at h
    · next hword =>
      obtain rfl := Except.ok.inj h
      exact Or.inr ⟨hne hword (by decide), fun _ => rfl⟩
    · split at h
      · next hword =>
        obtain ⟨m, hm, rfl⟩ := exists_of_map_eq_ok h
        exact Or.inl ⟨(Json.beq_string_iff kind _).mp hword, m, hm, rfl⟩
      · split at h
        · next hword =>
          obtain ⟨name, -, rfl⟩ := exists_of_map_eq_ok h
          exact Or.inr ⟨hne hword (by decide), fun _ => rfl⟩
        · cases h

/-! ### Bounds of what is read -/

theorem holds_contentModel_iff {v x : Json} : Holds .contentModel v x ↔
    x = v ∨ ∃ vs, v.field? "items" = some (.array vs) ∧ ∃ w ∈ vs, Holds .item w x := by
  constructor
  · rintro (_ | _ | ⟨hvs, hw, hx⟩)
    · exact Or.inl rfl
    · exact Or.inr ⟨_, hvs, _, hw, hx⟩
  · rintro (rfl | ⟨vs, hvs, w, hw, hx⟩)
    · exact .contentModel x
    · exact .ofItems hvs hw hx

theorem holds_item_iff {v x : Json} : Holds .item v x ↔
    x = v ∨ v.field? "kind" = some (.string "group") ∧
      ∃ w, v.field? "content" = some w ∧ Holds .contentModel w x := by
  constructor
  · rintro (_ | _ | _ | ⟨hkind, hw, hx⟩)
    · exact Or.inl rfl
    · exact Or.inr ⟨hkind, _, hw, hx⟩
  · rintro (rfl | ⟨hkind, w, hw, hx⟩)
    · exact .item x
    · exact .ofContent hkind hw hx

theorem holds_element_iff {v x : Json} : Holds .element v x ↔
    ∃ w, v.field? "contentModel" = some w ∧ w.isVoid = false ∧ Holds .contentModel w x := by
  constructor
  · rintro (_ | _ | _ | _ | ⟨hw, hvoid, hx⟩)
    exact ⟨_, hw, hvoid, hx⟩
  · rintro ⟨w, hw, hvoid, hx⟩
    exact .ofElement hw hvoid hx

theorem holds_schema_iff {d x : Json} : Holds .schema d x ↔
    ∃ vs, elementsOf "elements" d = .ok vs ∧ ∃ v ∈ vs, Holds .element v x := by
  constructor
  · rintro (_ | _ | _ | _ | _ | ⟨hvs, hv, hx⟩)
    exact ⟨_, hvs, _, hv, hx⟩
  · rintro ⟨vs, hvs, v, hv, hx⟩
    exact .ofSchema hvs hv hx

mutual

/-- **The bounds of a content model are those that are written,** at every depth. -/
theorem areBoundsOf_readModel (v : Json) {m : ContentModel Json} (h : readModel v = .ok m) :
    AreBoundsOf (Holds .contentModel v) m.allBounds := by
  cases v with
  | object fields =>
    rw [readModel_eq] at h
    obtain ⟨type, -, h⟩ := exists_of_bind_eq_ok h
    split at h
    · cases h
    · obtain ⟨items, hitems, h⟩ := exists_of_bind_eq_ok h
      obtain ⟨bounds, hbounds, h⟩ := exists_of_bind_eq_ok h
      obtain rfl := Except.ok.inj h
      rw [ContentModel.allBounds]
      exact (AreBoundsOf.cons hbounds (areBoundsOf_readItemsField fields hitems)).congr
        fun _ => holds_contentModel_iff.symm
  | _ => cases h

theorem areBoundsOf_readItemsField (fields : List (Text × Json)) {items : List (Item Json)}
    (h : readItemsField fields = .ok items) :
    AreBoundsOf (fun x => ∃ vs, Json.lookup (Text.ofString "items") fields = some (.array vs) ∧
      ∃ w ∈ vs, Holds .item w x) (Item.allBoundsIn items) := by
  cases fields with
  | nil =>
    rw [readItemsField] at h
    obtain rfl := Except.ok.inj h
    exact AreBoundsOf.nil.congr fun x => by simp [Json.lookup]
  | cons e fields =>
    obtain ⟨key, value⟩ := e
    by_cases hkey : key = Text.ofString "items"
    · cases value with
      | array vs =>
        simp only [readItemsField, if_pos hkey] at h
        refine (areBoundsOf_readItems vs h).congr fun x => ?_
        simp [Json.lookup, hkey]
      | _ =>
        -- what is no list has no items, whatever it consists of
        simp only [readItemsField, if_pos hkey] at h
        obtain ⟨parts, -, h⟩ := exists_of_bind_eq_ok h
        split at h
        · obtain rfl := Except.ok.inj h
          exact AreBoundsOf.nil.congr fun x => by simp [Json.lookup, hkey]
        · cases h
    · rw [readItemsField_cons_of_ne hkey] at h
      refine (areBoundsOf_readItemsField fields h).congr fun x => ?_
      rw [Json.lookup, if_neg hkey]

theorem areBoundsOf_readItems (vs : List Json) {items : List (Item Json)}
    (h : readItems vs = .ok items) :
    AreBoundsOf (fun x => ∃ w ∈ vs, Holds .item w x) (Item.allBoundsIn items) := by
  cases vs with
  | nil =>
    rw [readItems] at h
    obtain rfl := Except.ok.inj h
    exact AreBoundsOf.nil.congr fun x => by simp
  | cons v vs =>
    rw [readItems] at h
    obtain ⟨item, hitem, h⟩ := exists_of_bind_eq_ok h
    obtain ⟨items', hitems, h⟩ := exists_of_bind_eq_ok h
    obtain rfl := Except.ok.inj h
    rw [Item.allBoundsIn]
    exact ((areBoundsOf_readItem v hitem).append (areBoundsOf_readItems vs hitems)).congr
      fun x => by simp

theorem areBoundsOf_readItem (v : Json) {item : Item Json} (h : readItem v = .ok item) :
    AreBoundsOf (Holds .item v) item.allBounds := by
  cases v with
  | object fields =>
    rw [readItem_eq] at h
    obtain ⟨kind, hkind, h⟩ := exists_of_bind_eq_ok h
    obtain ⟨occurs, hoccurs, h⟩ := exists_of_bind_eq_ok h
    obtain ⟨make, hmake, h⟩ := exists_of_bind_eq_ok h
    obtain ⟨bounds, hbounds, h⟩ := exists_of_bind_eq_ok h
    obtain rfl := Except.ok.inj h
    have hself : boundsOf (.object fields) = .ok bounds := by
      rw [boundsOf, hoccurs, ok_bind, hbounds]
    replace hkind := need_eq_ok_iff.mp hkind
    rcases cases_of_itemOf hmake with ⟨rfl, m, hm, rfl⟩ | ⟨hgroup, hitem⟩
    · rw [Item.allBounds]
      refine (AreBoundsOf.cons hself (areBoundsOf_readContentField fields hm)).congr fun x => ?_
      rw [holds_item_iff, hkind]
      simp [Json.field?]
    · rw [hitem]
      refine (AreBoundsOf.cons hself .nil).congr fun x => ?_
      rw [holds_item_iff, hkind]
      simp [hgroup]
  | _ => cases h

theorem areBoundsOf_readContentField (fields : List (Text × Json)) {m : ContentModel Json}
    (h : readContentField fields = .ok m) :
    AreBoundsOf (fun x => ∃ w, Json.lookup (Text.ofString "content") fields = some w ∧
      Holds .contentModel w x) m.allBounds := by
  cases fields with
  | nil => cases h
  | cons e fields =>
    obtain ⟨key, value⟩ := e
    rw [readContentField] at h
    split at h
    · next hkey =>
      refine (areBoundsOf_readModel value h).congr fun x => ?_
      simp [Json.lookup, hkey]
    · next hkey =>
      refine (areBoundsOf_readContentField fields h).congr fun x => ?_
      rw [Json.lookup, if_neg hkey]

end

/-! ### Elements -/

theorem field?_eq_of_get {key : String} {v w : Json} (h : v.get key = .ok w) :
    v.field? key = some w ∨ v.field? key = none ∧ w = .null := by
  obtain ⟨fields, hfields, rfl⟩ := exists_of_map_eq_ok h
  cases v with
  | object fields' =>
    obtain rfl := Except.ok.inj hfields
    rw [Json.field?]
    cases Json.lookup (Text.ofString key) fields' <;> simp
  | _ => cases hfields

theorem holds_element_iff_of_get {v model x : Json} (hmodel : v.get "contentModel" = .ok model) :
    Holds .element v x ↔ model.isVoid = false ∧ Holds .contentModel model x := by
  rw [holds_element_iff]
  rcases field?_eq_of_get hmodel with hfield | ⟨hfield, rfl⟩
  · simp [hfield]
  · simp [hfield, Json.isVoid]

theorem readNames_eq_ok_iff {names names' : List Json} : readNames names = .ok names' ↔
    names' = names ∧ ∀ n ∈ names, n.isName = true := by
  rw [readNames, ← List.all_eq_true]
  split
  · next h => simp [h, eq_comm]
  · next h => simp [h]

/-- The content of an element that is read: its model, or else the children that are listed. -/
inductive IsContentOf (v : Json) : ElementContent Json → Prop where
  | model {w : Json} {m : ContentModel Json} (hw : v.field? "contentModel" = some w)
      (hvoid : w.isVoid = false) (hm : readModel w = .ok m)
      (hnames : ∀ n ∈ m.names, n.isName = true) : IsContentOf v (.model m)
  | children {names : List Json} (hw : ∀ w, v.field? "contentModel" = some w → w.isVoid = true)
      (hchildren : elementsOf "children" v = .ok names)
      (hnames : ∀ n ∈ names, n.isName = true) : IsContentOf v (.children names.eraseDups)

theorem isContentOf_readElement {v : Json} {e : ElementSpec Json} (h : readElement v = .ok e) :
    need "name" v = .ok e.name ∧ IsContentOf v e.content := by
  rw [readElement] at h
  obtain ⟨type, -, h⟩ := exists_of_bind_eq_ok h
  obtain ⟨model, hmodel, h⟩ := exists_of_bind_eq_ok h
  obtain ⟨name, hname, h⟩ := exists_of_bind_eq_ok h
  obtain ⟨documentation, -, h⟩ := exists_of_bind_eq_ok h
  obtain ⟨attributeClasses, -, h⟩ := exists_of_bind_eq_ok h
  obtain ⟨modelClasses, -, h⟩ := exists_of_bind_eq_ok h
  obtain ⟨definitions, -, h⟩ := exists_of_bind_eq_ok h
  obtain ⟨attributes, -, h⟩ := exists_of_bind_eq_ok h
  obtain ⟨listed, hlisted, h⟩ := exists_of_bind_eq_ok h
  obtain ⟨children, hchildren, h⟩ := exists_of_bind_eq_ok h
  obtain ⟨shape, -, h⟩ := exists_of_bind_eq_ok h
  obtain ⟨content, hcontent, h⟩ := exists_of_bind_eq_ok h
  obtain rfl := Except.ok.inj h
  refine ⟨hname, ?_⟩
  obtain ⟨rfl, hnames⟩ := readNames_eq_ok_iff.mp hchildren
  split at hcontent
  · next hvoid =>
    obtain rfl := Except.ok.inj hcontent
    refine .children (fun w hw => ?_) hlisted hnames
    rcases field?_eq_of_get hmodel with hfield | ⟨hfield, -⟩
    · obtain rfl := Option.some.inj (hw.symm.trans hfield)
      exact hvoid
    · cases hw.symm.trans hfield
  · next hvoid =>
    obtain ⟨m, hm, hcontent⟩ := exists_of_bind_eq_ok hcontent
    obtain ⟨names, hnames, hcontent⟩ := exists_of_bind_eq_ok hcontent
    obtain rfl := Except.ok.inj hcontent
    rcases field?_eq_of_get hmodel with hfield | ⟨-, rfl⟩
    · exact .model hfield (Bool.eq_false_iff.mpr hvoid) hm (readNames_eq_ok_iff.mp hnames).2
    · exact (hvoid rfl).elim

/-- **The bounds of an element are those that are written.** -/
theorem areBoundsOf_readElement {v : Json} {e : ElementSpec Json} (h : readElement v = .ok e) :
    AreBoundsOf (Holds .element v) e.allBounds := by
  obtain ⟨-, hcontent⟩ := isContentOf_readElement h
  rw [ElementSpec.allBounds, ElementSpec.model?]
  generalize e.content = content at hcontent ⊢
  cases hcontent with
  | model hw hvoid hm hnames =>
    refine (areBoundsOf_readModel _ hm).congr fun x => ?_
    simp [holds_element_iff, hw, hvoid]
  | children hw hchildren hnames =>
    refine AreBoundsOf.nil.congr fun x => ?_
    rw [holds_element_iff]
    refine ⟨False.elim, ?_⟩
    rintro ⟨w, hfield, hvoid, -⟩
    exact Bool.false_ne_true (hvoid.symm.trans (hw w hfield))

/-! ### Schemas -/

theorem load_eq_ok_iff {d : Json} {s : Schema Json} : load d = .ok s ↔
    ∃ version, d.get "formatVersion" = .ok version ∧ (version == .int moduleVersion) = true ∧
      readSchema d = .ok s := by
  rw [load]
  constructor
  · intro h
    split at h
    · cases h
    · next version hversion =>
      split at h
      · next hcurrent =>
        split at h
        · next hs => exact ⟨version, hversion, hcurrent, hs.trans (Except.ok.inj h ▸ rfl)⟩
        · split at h <;> cases h
      · cases h
  · rintro ⟨version, hversion, hcurrent, hs⟩
    simp only [hversion, hcurrent, hs, if_true]

/-- What the elements of a schema are read from, and what is known of it. -/
theorem exists_of_readSchema {d : Json} {s : Schema Json} (h : readSchema d = .ok s) :
    ∃ vs es, elementsOf "elements" d = .ok vs ∧ vs.mapM readElement = .ok es ∧
      (∀ e ∈ es, e.name.isName = true) ∧
      s.elements = Table.ofEntries (es.map fun e => (e.name, e)) ∧ s.isUsable = true := by
  rw [readSchema] at h
  obtain ⟨vs, hvs, h⟩ := exists_of_bind_eq_ok h
  obtain ⟨es, hes, h⟩ := exists_of_bind_eq_ok h
  obtain ⟨id, -, h⟩ := exists_of_bind_eq_ok h
  obtain ⟨name, -, h⟩ := exists_of_bind_eq_ok h
  obtain ⟨names, hnames, h⟩ := exists_of_bind_eq_ok h
  obtain ⟨attributeClasses, -, h⟩ := exists_of_bind_eq_ok h
  obtain ⟨inheritance, -, h⟩ := exists_of_bind_eq_ok h
  obtain ⟨elementClasses, -, h⟩ := exists_of_bind_eq_ok h
  simp only at h
  split at h
  · next husable =>
    obtain rfl := Except.ok.inj h
    exact ⟨vs, es, hvs, hes, List.forall_mem_map.mp (readNames_eq_ok_iff.mp hnames).2, rfl, husable⟩
  · cases h

end Module

end MarkupGrammar
