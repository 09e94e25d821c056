import MarkupGrammar.Proofs.Module.Parts

/-!
# Modules with bad bounds

A bound may be any integer in a module, also a negative one, and the upper bound may be below the
lower one. To say that nothing else is wrong with such a module takes a module without the fault:
`Module.mend` puts 1 for both bounds wherever they are bad, in a model or an item at any depth, and
changes nothing else. A module that is loaded when it has been mended either did not need it, or is
refused, and refused for its bounds.

## Main definitions

* `Module.hasBadBounds` — whether integers are written that bound no count
* `Module.mend` — a part of a module without bad bounds

## Main results

* `Module.recovers_readModel` — a model that is read when it has been mended
* `Module.load_of_load_mend` — a module that is loaded when it has been mended
-/

namespace MarkupGrammar

namespace Module

variable {α β : Type}

/-! ### Bad bounds -/

/-- Whether a model or item is written with integers that bound no count: a negative one, or an
upper bound below the lower one. -/
def hasBadBounds (v : Json) : Bool :=
  match readOccurs v with
  | .ok (.given (.int least), .unbounded) => least < 0
  | .ok (.given (.int least), .given (.int most)) => least < 0 || most < 0 || most < least
  | _ => false

/-- Integers are in order as bounds or they are bad. -/
theorem checkBounds_int (least most : Int) :
    (∃ b, checkBounds (.given (.int least), .given (.int most)) = .ok b) ∧
      ¬ (least < 0 ∨ most < 0 ∨ most < least) ∨
    (∃ e, checkBounds (.given (.int least), .given (.int most)) = .error (.badBounds e)) ∧
      (least < 0 ∨ most < 0 ∨ most < least) := by
  cases least with
  | negSucc n => exact Or.inr ⟨⟨_, rfl⟩, Or.inl (Int.negSucc_lt_zero n)⟩
  | ofNat l =>
    cases most with
    | negSucc n => exact Or.inr ⟨⟨_, rfl⟩, Or.inr (Or.inl (Int.negSucc_lt_zero n))⟩
    | ofNat m =>
      by_cases h : (Limit.finite m).admits l = true
      · refine Or.inl ⟨⟨⟨l, .finite m, h⟩, ?_⟩, ?_⟩
        · simp only [checkBounds, Bounds.ofOccurs, Bounds.ofLimits, dif_pos h]
        · have hle : l ≤ m := of_decide_eq_true h
          simp only [Int.ofNat_eq_natCast]
          omega
      · refine Or.inr ⟨⟨.crossed l m, ?_⟩, ?_⟩
        · simp only [checkBounds, Bounds.ofOccurs, Bounds.ofLimits, dif_neg h]
        · have hlt : ¬ l ≤ m := fun hle => h (decide_eq_true hle)
          simp only [Int.ofNat_eq_natCast]
          omega

/-- **Bounds that can be read are in order or bad.** -/
theorem checkBounds_of_readOccurs {v : Json} {occurs : Occurs × Occurs}
    (h : readOccurs v = .ok occurs) :
    (∃ b, checkBounds occurs = .ok b) ∧ hasBadBounds v = false ∨
      (∃ e, checkBounds occurs = .error (.badBounds e)) ∧ hasBadBounds v = true := by
  have hbad := h
  obtain ⟨raw, -, h⟩ := exists_of_bind_eq_ok h
  obtain ⟨least, -, h⟩ := exists_of_bind_eq_ok h
  obtain ⟨raw', -, h⟩ := exists_of_bind_eq_ok h
  obtain ⟨most, hmost, h⟩ := exists_of_bind_eq_ok h
  obtain rfl := Except.ok.inj h
  rw [hasBadBounds, hbad]
  rw [readLimit] at hmost
  split at hmost
  · obtain rfl := Except.ok.inj hmost
    cases least with
    | ofNat l => exact Or.inl ⟨⟨_, rfl⟩, rfl⟩
    | negSucc n => exact Or.inr ⟨⟨_, rfl⟩, decide_eq_true (Int.negSucc_lt_zero n)⟩
  · obtain ⟨most, -, rfl⟩ := exists_of_map_eq_ok hmost
    simpa [or_assoc, and_assoc] using checkBounds_int least most

/-! ### Mending -/

/-- Whether a key is that of a bound. -/
def isBoundKey (key : Text) : Bool :=
  key = Text.ofString "minOccurs" || key = Text.ofString "maxOccurs"

mutual

/-- A part of a module in which 1 stands for both bounds of a model or item when they are bad. -/
def mend (p : Part) : Json → Json
  | .array items => .array (mendAll p.entry items)
  | .object fields =>
    let isBad := (p = .contentModel || p = .item) && hasBadBounds (.object fields)
    .object (mendFields p isBad fields)
  | v => v

/-- The entries of a list with bad bounds replaced. -/
def mendAll (p : Part) : List Json → List Json
  | [] => []
  | v :: vs => mend p v :: mendAll p vs

/-- The fields of a part with bad bounds replaced, and its own bounds if they are bad. -/
def mendFields (p : Part) (isBad : Bool) : List (Text × Json) → List (Text × Json)
  | [] => []
  | (key, v) :: fields =>
    (key, if isBad && isBoundKey key then .int 1 else mend (p.under key) v) ::
      mendFields p isBad fields

end

theorem mendAll_eq_map (p : Part) (vs : List Json) : mendAll p vs = vs.map (mend p) := by
  induction vs with
  | nil => rfl
  | cons v vs ih => rw [mendAll, ih, List.map_cons]

theorem lookup_mendFields (p : Part) (isBad : Bool) (fields : List (Text × Json)) (key : Text) :
    Json.lookup key (mendFields p isBad fields) = (Json.lookup key fields).map fun v =>
      if isBad && isBoundKey key then .int 1 else mend (p.under key) v := by
  induction fields with
  | nil => rfl
  | cons e fields ih =>
    obtain ⟨k, v⟩ := e
    rw [mendFields, Json.lookup, Json.lookup]
    split
    · next hkey => rw [hkey, Option.map_some]
    · exact ih

/-- The parts in which there are no bounds. -/
def Part.isPlain (p : Part) : Bool := p = .nameList || p = .name || p = .other

theorem Part.isPlain_entry {p : Part} (h : p.isPlain = true) : p.entry.isPlain = true := by
  cases p <;> first | rfl | exact nomatch h

theorem Part.isPlain_under {p : Part} (h : p.isPlain = true) (key : Text) :
    (p.under key).isPlain = true := by
  cases p <;> first | rfl | exact nomatch h

theorem Part.not_bounded_of_isPlain {p : Part} (h : p.isPlain = true) :
    (decide (p = .contentModel) || decide (p = .item)) = false := by
  cases p <;> first | rfl | exact nomatch h

mutual

/-- Where there are no bounds there is nothing to mend. -/
theorem mend_of_isPlain {p : Part} (h : p.isPlain = true) (v : Json) : mend p v = v := by
  cases v with
  | array items => rw [mend, mendAll_of_isPlain (Part.isPlain_entry h) items]
  | object fields =>
    rw [mend, Part.not_bounded_of_isPlain h, Bool.false_and, mendFields_of_isPlain h fields]
  | _ => rfl

theorem mendAll_of_isPlain {p : Part} (h : p.isPlain = true) (vs : List Json) :
    mendAll p vs = vs := by
  cases vs with
  | nil => rfl
  | cons v vs => rw [mendAll, mend_of_isPlain h v, mendAll_of_isPlain h vs]

theorem mendFields_of_isPlain {p : Part} (h : p.isPlain = true) (fields : List (Text × Json)) :
    mendFields p false fields = fields := by
  cases fields with
  | nil => rfl
  | cons e fields =>
    rw [mendFields, Bool.false_and, if_neg Bool.false_ne_true,
      mend_of_isPlain (Part.isPlain_under h e.1) e.2, mendFields_of_isPlain h fields]

end

/-! ### Fields of a mended part -/

section

variable {p : Part} {v : Json} (key : String)

theorem need_mend (hkey : isBoundKey (Text.ofString key) = false) :
    need key (mend p v) = (need key v).map (mend (p.under (Text.ofString key))) := by
  cases v with
  | object fields =>
    rw [mend, need, need, lookup_mendFields]
    cases Json.lookup (Text.ofString key) fields <;> simp [hkey, Except.map]
  | _ => rfl

theorem getD_mend (hkey : isBoundKey (Text.ofString key) = false) {fallback : Json}
    (hfallback : mend (p.under (Text.ofString key)) fallback = fallback) :
    getD key fallback (mend p v)
      = (getD key fallback v).map (mend (p.under (Text.ofString key))) := by
  cases v with
  | object fields =>
    rw [mend, getD, getD, Json.fields, Json.fields, Except.map, Except.map, Except.map,
      lookup_mendFields]
    cases Json.lookup (Text.ofString key) fields <;> simp [hkey, hfallback]
  | _ => rfl

theorem get_mend (hkey : isBoundKey (Text.ofString key) = false) :
    (mend p v).get key = (v.get key).map (mend (p.under (Text.ofString key))) :=
  getD_mend key hkey rfl

theorem elements_mend (p : Part) (v : Json) :
    (mend p v).elements = v.elements.map (List.map (mend p.entry)) := by
  cases v with
  | array items => rw [mend, mendAll_eq_map]; rfl
  | object fields =>
    have hkeys (isBad : Bool) : (mendFields p isBad fields).map (fun e => Json.text e.1)
        = (fields.map fun e => Json.text e.1).map (mend p.entry) := by
      induction fields with
      | nil => rfl
      | cons e fields ih => rw [mendFields, List.map_cons, List.map_cons, ih]; rfl
    exact congrArg Except.ok (hkeys _)
  | text t =>
    refine congrArg Except.ok ?_
    rw [List.map_map]
    rfl
  | _ => rfl

theorem elementsOf_mend (hkey : isBoundKey (Text.ofString key) = false) :
    elementsOf key (mend p v)
      = (elementsOf key v).map (List.map (mend (p.under (Text.ofString key)).entry)) := by
  rw [elementsOf, elementsOf, getD_mend key hkey rfl]
  cases getD key (.array []) v with
  | error f => rfl
  | ok w => exact elements_mend _ w

theorem isVoid_mend (p : Part) (v : Json) : (mend p v).isVoid = v.isVoid := by
  cases v with
  | array items => cases items <;> rfl
  | object fields => cases fields <;> rfl
  | _ => rfl

section

variable (hkey : isBoundKey (Text.ofString key) = false)
  (hplain : (p.under (Text.ofString key)).isPlain = true)

include hkey hplain

theorem need_mend_of_isPlain : need key (mend p v) = need key v := by
  rw [need_mend key hkey, funext (mend_of_isPlain hplain)]
  cases need key v <;> rfl

theorem getD_mend_of_isPlain (fallback : Json) :
    getD key fallback (mend p v) = getD key fallback v := by
  rw [getD_mend key hkey (mend_of_isPlain hplain fallback), funext (mend_of_isPlain hplain)]
  cases getD key fallback v <;> rfl

theorem get_mend_of_isPlain : (mend p v).get key = v.get key :=
  getD_mend_of_isPlain key hkey hplain .null

theorem elementsOf_mend_of_isPlain : elementsOf key (mend p v) = elementsOf key v := by
  rw [elementsOf, elementsOf, getD_mend_of_isPlain key hkey hplain]

end

end

/-! ### Bounds of a mended part -/

/-- What is read by the second reading is read by the first, unless that one fails and bounds are to
blame. -/
def Recovers (r r' : Except Fault α) : Prop :=
  ∀ a, r' = .ok a → r = .ok a ∨ ∃ e, r = .error (.badBounds e)

namespace Recovers

theorem refl (r : Except Fault α) : Recovers r r := fun _ h => Or.inl h

theorem bind {r r' : Except Fault α} (h : Recovers r r') {f f' : α → Except Fault β}
    (hf : ∀ a, Recovers (f a) (f' a)) : Recovers (r >>= f) (r' >>= f') := by
  intro b hb
  obtain ⟨a, ha, hb⟩ := exists_of_bind_eq_ok hb
  rcases h a ha with h | ⟨e, h⟩
  · rw [h]
    exact hf a b hb
  · rw [h]
    exact Or.inr ⟨e, rfl⟩

theorem map {r r' : Except Fault α} (h : Recovers r r') (f : α → β) :
    Recovers (r.map f) (r'.map f) := by
  intro b hb
  obtain ⟨a, ha, rfl⟩ := exists_of_map_eq_ok hb
  rcases h a ha with h | ⟨e, h⟩
  · exact Or.inl (congrArg (Except.map f) h)
  · exact Or.inr ⟨e, congrArg (Except.map f) h⟩

/-- The same when what is read first is changed before it is used. -/
theorem bind_map {r : Except Fault α} {g : α → α} {f f' : α → Except Fault β}
    (hf : ∀ a, Recovers (f a) (f' (g a))) : Recovers (r >>= f) (r.map g >>= f') := by
  cases r with
  | error e => exact refl _
  | ok a => exact hf a

theorem mapM {f : Json → Except Fault β} {g : Json → Json} (hf : ∀ v, Recovers (f v) (f (g v)))
    (vs : List Json) : Recovers (vs.mapM f) ((vs.map g).mapM f) := by
  induction vs with
  | nil => exact refl _
  | cons v vs ih =>
    rw [List.map_cons, List.mapM_cons, List.mapM_cons]
    exact (hf v).bind fun b => ih.bind fun bs => refl _

end Recovers

/-- Bounds are mended when they are bad, also where one of them is not written. -/
theorem readOccurs_mend {p : Part} (hp : p = .contentModel ∨ p = .item)
    (fields : List (Text × Json)) :
    readOccurs (mend p (.object fields)) = if hasBadBounds (.object fields)
      then .ok (.given (.int 1), .given (.int 1)) else readOccurs (.object fields) := by
  have hbounded : (decide (p = .contentModel) || decide (p = .item)) = true := by
    rcases hp with rfl | rfl <;> rfl
  have hget {key : String} (hkey : isBoundKey (Text.ofString key) = true)
      (hunder : p.under (Text.ofString key) = .other) :
      getD key (.int 1) (mend p (.object fields)) = if hasBadBounds (.object fields)
        then .ok (.int 1) else getD key (.int 1) (.object fields) := by
    rw [mend, hbounded, Bool.true_and, getD, getD, Json.fields, Json.fields, Except.map, Except.map,
      lookup_mendFields, hkey, Bool.and_true, hunder, funext (mend_of_isPlain (p := .other) rfl)]
    cases hasBadBounds (.object fields) <;>
      cases Json.lookup (Text.ofString key) fields <;> rfl
  rw [readOccurs, readOccurs, hget (by decide) (by rcases hp with rfl | rfl <;> rfl),
    hget (by decide) (by rcases hp with rfl | rfl <;> rfl)]
  split <;> rfl

/-- Bounds are read, then something else, and then the bounds are checked. -/
theorem recovers_checkBounds {p : Part} (hp : p = .contentModel ∨ p = .item)
    (fields : List (Text × Json)) {r r' : Except Fault α} (h : Recovers r r') (f : α → Bounds → β) :
    Recovers
      (do
        let occurs ← readOccurs (.object fields)
        let a ← r
        return f a (← checkBounds occurs))
      (do
        let occurs ← readOccurs (mend p (.object fields))
        let a ← r'
        return f a (← checkBounds occurs)) := by
  cases hbad : hasBadBounds (.object fields) with
  | false =>
    rw [readOccurs_mend hp, hbad, if_neg Bool.false_ne_true]
    exact Recovers.bind (.refl _) fun occurs => h.bind fun a => .refl _
  | true =>
    cases hoccurs : readOccurs (.object fields) with
    | error f => simp [hasBadBounds, hoccurs] at hbad
    | ok occurs =>
      rcases checkBounds_of_readOccurs hoccurs with ⟨-, hgood⟩ | ⟨⟨e, he⟩, -⟩
      · exact nomatch hbad.symm.trans hgood
      · -- either way the bounds are refused, now or when the rest has been read
        intro b hb
        obtain ⟨occurs', -, hb⟩ := exists_of_bind_eq_ok hb
        obtain ⟨a, ha, -⟩ := exists_of_bind_eq_ok hb
        rw [ok_bind]
        rcases h a ha with ha | ⟨e', ha⟩
        · exact Or.inr ⟨e, by rw [ha, ok_bind, he]; rfl⟩
        · exact Or.inr ⟨e', by rw [ha]; rfl⟩

theorem recovers_boundsOf {p : Part} (hp : p = .contentModel ∨ p = .item)
    (fields : List (Text × Json)) :
    Recovers (boundsOf (.object fields)) (boundsOf (mend p (.object fields))) := by
  have hbounds (v : Json) : boundsOf v = (do
      let occurs ← readOccurs v
      let _ ← (.ok () : Except Fault Unit)
      return id (← checkBounds occurs)) := by
    refine congrArg _ (funext fun occurs => ?_)
    cases checkBounds occurs <;> rfl
  rw [hbounds, hbounds]
  exact recovers_checkBounds hp fields (.refl _) fun _ => id

/-! ### Content models -/

theorem recovers_itemOf (kind : Json) {v : Json}
    {content content' : Except Fault (ContentModel Json)} (hcontent : Recovers content content') :
    Recovers (itemOf kind v content) (itemOf kind (mend .item v) content') := by
  rw [itemOf, itemOf, need_mend_of_isPlain _ (by decide) (by decide)]
  repeat' split
  · exact .refl _
  · exact .refl _
  · exact hcontent.map _
  · exact .refl _
  · exact .refl _

mutual

/-- **A content model that is read when it has been mended** is read as it is, or refused for its
bounds. -/
theorem recovers_readModel (v : Json) :
    Recovers (readModel v) (readModel (mend .contentModel v)) := by
  cases v with
  | object fields =>
    have hbounds := recovers_boundsOf (.inl rfl) fields
    have htype : need "type" (mend .contentModel (.object fields)) = need "type" (.object fields) :=
      need_mend_of_isPlain _ (by decide) (by decide)
    rw [mend] at hbounds htype ⊢
    rw [readModel_eq, readModel_eq, htype]
    refine Recovers.bind (.refl _) fun type => ?_
    cases Arrangement.ofWord? type with
    | none => exact .refl _
    | some arrangement =>
      exact (recovers_readItemsField fields _).bind fun items => hbounds.bind fun bounds => .refl _
  | _ => exact .refl _

theorem recovers_readItemsField (fields : List (Text × Json)) (isBad : Bool) :
    Recovers (readItemsField fields) (readItemsField (mendFields .contentModel isBad fields)) := by
  cases fields with
  | nil => exact .refl _
  | cons e fields =>
    obtain ⟨key, value⟩ := e
    by_cases hkey : key = Text.ofString "items"
    · subst hkey
      have hnoBound : isBoundKey (Text.ofString "items") = false := by decide
      rw [mendFields, hnoBound, Bool.and_false, if_neg Bool.false_ne_true]
      cases value with
      | array vs =>
        simp only [mend, readItemsField, if_true]
        exact recovers_readItems vs
      | object entries => cases entries <;> exact .refl _
      | _ => exact .refl _
    · rw [mendFields, readItemsField_cons_of_ne hkey, readItemsField_cons_of_ne hkey]
      exact recovers_readItemsField fields isBad

theorem recovers_readItems (vs : List Json) :
    Recovers (readItems vs) (readItems (mendAll .item vs)) := by
  cases vs with
  | nil => exact .refl _
  | cons v vs =>
    rw [mendAll, readItems, readItems]
    exact (recovers_readItem v).bind fun item => (recovers_readItems vs).bind fun items => .refl _

theorem recovers_readItem (v : Json) : Recovers (readItem v) (readItem (mend .item v)) := by
  cases v with
  | object fields =>
    have hkind : need "kind" (mend .item (.object fields)) = need "kind" (.object fields) :=
      need_mend_of_isPlain _ (by decide) (by decide)
    have hitem (kind : Json) := recovers_checkBounds (.inr rfl) fields
      (recovers_itemOf kind (v := .object fields)
        (recovers_readContentField fields (hasBadBounds (.object fields)))) id
    rw [mend] at hkind hitem ⊢
    rw [readItem_eq, readItem_eq, hkind]
    exact Recovers.bind (.refl _) hitem
  | _ => exact .refl _

theorem recovers_readContentField (fields : List (Text × Json)) (isBad : Bool) :
    Recovers (readContentField fields) (readContentField (mendFields .item isBad fields)) := by
  cases fields with
  | nil => exact .refl _
  | cons e fields =>
    obtain ⟨key, value⟩ := e
    rw [mendFields, readContentField, readContentField]
    split
    · next hkey =>
      subst hkey
      have hnoBound : isBoundKey (Text.ofString "content") = false := by decide
      rw [hnoBound, Bool.and_false, if_neg Bool.false_ne_true]
      exact recovers_readModel value
    · exact recovers_readContentField fields isBad

end

/-! ### Elements and schemas -/

theorem recovers_readElement (v : Json) :
    Recovers (readElement v) (readElement (mend .element v)) := by
  rw [readElement, readElement,
    get_mend_of_isPlain "contentModelType" (by decide) (by decide),
    get_mend "contentModel" (by decide),
    need_mend_of_isPlain "name" (by decide) (by decide),
    get_mend_of_isPlain "documentation" (by decide) (by decide),
    elementsOf_mend_of_isPlain "attrClasses" (by decide) (by decide),
    elementsOf_mend_of_isPlain "modelClasses" (by decide) (by decide),
    elementsOf_mend_of_isPlain "localAttrs" (by decide) (by decide),
    elementsOf_mend_of_isPlain "children" (by decide) (by decide)]
  refine Recovers.bind (.refl _) fun type => .bind_map fun model => .bind (.refl _) fun name =>
    .bind (.refl _) fun documentation => .bind (.refl _) fun attributeClasses =>
    .bind (.refl _) fun modelClasses => .bind (.refl _) fun definitions =>
    .bind (.refl _) fun attributes => .bind (.refl _) fun listed => .bind (.refl _) fun children =>
    .bind (.refl _) fun shape => .bind ?_ fun content => .refl _
  rw [isVoid_mend]
  split
  · exact .refl _
  · exact (recovers_readModel model).bind fun m => .refl _

/-- **A schema that is read when its module has been mended** is read as it is, or refused for its
bounds. -/
theorem recovers_readSchema (d : Json) :
    Recovers (readSchema d) (readSchema (mend .schema d)) := by
  have htable {α : Type} (key : String) (hkey : isBoundKey (Text.ofString key) = false)
      (hplain : (Part.under .schema (Text.ofString key)).isPlain = true)
      (f : Json → Except Fault α) : readTable key f (mend .schema d) = readTable key f d := by
    rw [readTable, readTable, getD_mend_of_isPlain key hkey hplain]
  rw [readSchema, readSchema, elementsOf_mend "elements" (by decide),
    need_mend_of_isPlain "id" (by decide) (by decide),
    need_mend_of_isPlain "name" (by decide) (by decide),
    htable "attributeClasses" (by decide) (by decide),
    htable "attributeClassInheritance" (by decide) (by decide),
    htable "elementAttributeClasses" (by decide) (by decide)]
  exact Recovers.bind_map fun vs =>
    (Recovers.mapM recovers_readElement vs).bind fun elements => .refl _

/-- **A module that is loaded when it has been mended** is loaded as it is, or refused for its
bounds. -/
theorem load_of_load_mend {d : Json} {s : Schema Json} (h : load (mend .schema d) = .ok s) :
    load d = .ok s ∨
      ∃ e, load d = .error (.of (.invalidModule (.badBounds e)) (Text.ofString "compiled")) := by
  obtain ⟨version, hversion, hcurrent, hs⟩ := load_eq_ok_iff.mp h
  rw [get_mend_of_isPlain _ (by decide) (by decide)] at hversion
  rcases recovers_readSchema d s hs with hs | ⟨e, he⟩
  · exact Or.inl (load_eq_ok_iff.mpr ⟨version, hversion, hcurrent, hs⟩)
  · refine Or.inr ⟨e, ?_⟩
    rw [load, hversion]
    simp only [hcurrent, he]
    rfl

end Module

end MarkupGrammar
