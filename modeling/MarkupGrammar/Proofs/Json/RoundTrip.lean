import MarkupGrammar.Proofs.Json.Printer

/-!
# What is written is read back

A value is read back when it is *legible*: no integer is too long, doubles have numerals that read
back, keys of an object differ, and its arrays and objects are not nested too deeply. A text must
also have no surrogate in it, since the reader would join two of them that make a pair; a file holds
none anyway.

The induction is on the levels that are left: every array and object takes one, and its items are
read with the others. The budget is counted by the length of the value's own text.

## Main definitions

* `Json.isLegible` — what has to hold of a value for it to be read back

## Main results

* `Json.isFaithful` — a legible value is read back wherever it stands
* `Json.parse_print` — a legible value's text is read as the value
-/

namespace MarkupGrammar

namespace Json

variable {layout : Layout} {depth : Nat}

/-! ### Legible values -/

/-- Whether the numeral of a double is read as the double. -/
def readsBack (x : Binary64) : Bool :=
  match readValue 1 0 (Binary64.jsonLayout.render x) with
  | .ok (.float y, []) => x == y
  | _ => false

/-- Whether a value can be read back with some levels: integers are not too long, doubles read back,
the keys of an object differ, and arrays and objects are not nested too deeply. -/
def isLegible : Nat → Json → Bool
  | _, .null | _, .bool _ | _, .text _ => true
  | _, .int i => (Text.ofNat i.natAbs).length ≤ Text.Numeral.longest
  | _, .float x => readsBack x
  | 0, .array _ | 0, .object _ => false
  | l + 1, .array items => items.all (isLegible l)
  | l + 1, .object fields =>
    decide (fields.map (·.1)).Nodup && fields.all fun (_, v) => isLegible l v

/-! ### Texts without surrogates -/

/-- A text without surrogates has no pairs to be joined. -/
theorem joinPairs_of_forall {t : Text} (h : ∀ c ∈ t, c.isSurrogate = false) : joinPairs t = t := by
  fun_induction joinPairs t with
  | case1 => rfl
  | case2 => rfl
  | case3 c d t hpair =>
    have hc := h c List.mem_cons_self
    simp only [Bool.and_eq_true, decide_eq_true_eq] at hpair
    simp only [CodePoint.isSurrogate, Bool.and_eq_false_iff, decide_eq_false_iff_not] at hc
    omega
  | case4 c d t hpair ih => rw [ih fun e he => h e (List.mem_cons_of_mem c he)]

theorem mem_escape {c : CodePoint} (h : ¬ c.val < 0x20) : c ∈ escape false c := by
  have hne : ∀ n < 0x20, c.val ≠ n := fun n hn heq => h (heq ▸ hn)
  rw [escape]
  split
  · exact List.mem_cons_of_mem _ List.mem_cons_self
  · rw [if_neg (hne 0x08 (by decide)), if_neg (hne 0x09 (by decide)), if_neg (hne 0x0A (by decide)),
      if_neg (hne 0x0C (by decide)), if_neg (hne 0x0D (by decide))]
    exact (List.mem_singleton_self c : c ∈ [c])

/-- Quoting keeps surrogates as they are. -/
theorem joinPairs_of_escaped {t : Text}
    (h : ∀ c ∈ t.flatMap (escape false), c.isSurrogate = false) : joinPairs t = t := by
  refine joinPairs_of_forall fun c hc => ?_
  by_cases hcontrol : c.val < 0x20
  · simp only [CodePoint.isSurrogate, Bool.and_eq_false_iff, decide_eq_false_iff_not]
    omega
  · exact h c (List.mem_flatMap.mpr ⟨c, hc, mem_escape hcontrol⟩)

/-! ### Scalars -/

theorem readValue_of_readsBack {x : Binary64} (h : readsBack x = true) :
    readValue 1 0 (Binary64.jsonLayout.render x) = .ok (.float x, []) := by
  rw [readsBack] at h
  split at h
  · next y hread => rw [hread, eq_of_beq h]
  · cases h

theorem readValue_of_readNumber {b l : Nat} {w rest r : Text} {v : Json} (hne : w ≠ [])
    (hw : ∀ c ∈ w, isBare c = true) (h : readNumber (w ++ rest) = .ok (v, r)) :
    readValue (b + 1) l (w ++ rest) = .ok (v, r) := by
  obtain ⟨c, w, rfl⟩ := List.exists_cons_of_ne_nil hne
  rw [List.cons_append] at h ⊢
  rw [readValue_of_isBare (hw c List.mem_cons_self),
    readWord_of_beginsNumber (beginsNumber_of_readNumber h)]
  exact h

theorem readValue_of_mem_fixedWords {b l : Nat} {s : String} {v : Json}
    (h : (s, v) ∈ fixedWords) (rest : Text) :
    readValue (b + 1) l (Text.ofString s ++ rest) = .ok (v, rest) := by
  have hread := readWord_of_mem h rest
  have hbare := isBare_of_mem_fixedWords _ h
  cases hword : Text.ofString s with
  | nil =>
    simp only [fixedWords, List.mem_cons, List.not_mem_nil, or_false, Prod.mk.injEq] at h
    obtain ⟨rfl, -⟩ | ⟨rfl, -⟩ | ⟨rfl, -⟩ | ⟨rfl, -⟩ := h <;> cases hword
  | cons c w =>
    rw [hword] at hread hbare
    rw [List.cons_append] at hread ⊢
    rw [readValue_of_isBare (hbare c List.mem_cons_self), hread]

/-- A legible scalar is read back, with any levels. -/
theorem readValue_textAt_of_isName {b l : Nat} {v : Json} {rest : Text} (hname : v.isName = true)
    (hv : v.isLegible l = true) (hplain : ∀ c ∈ textAt layout depth v, c.isSurrogate = false)
    (hrest : isSettled rest = true) :
    readValue (b + 1) l (textAt layout depth v ++ rest) = .ok (v, rest) := by
  cases v with
  | null => exact readValue_of_mem_fixedWords (s := "null") (by simp [fixedWords]) rest
  | bool b =>
    cases b with
    | true => exact readValue_of_mem_fixedWords (s := "true") (by simp [fixedWords]) rest
    | false => exact readValue_of_mem_fixedWords (s := "false") (by simp [fixedWords]) rest
  | int i =>
    rw [isLegible, decide_eq_true_eq] at hv
    rw [textAt_int]
    refine readValue_of_readNumber (ofInt_ne_nil i) (isBare_of_mem_ofInt i) ?_
    rw [readNumber_ofInt i hrest, if_neg (Nat.not_lt.mpr hv)]
  | float x =>
    rw [isLegible] at hv
    rw [textAt_float]
    exact readValue_append (readValue_of_readsBack hv) (Nat.le_add_left 1 b) (Nat.zero_le l)
      fun _ => hrest
  | text t =>
    rw [textAt_text] at hplain ⊢
    simp only [List.forall_mem_cons, List.forall_mem_append] at hplain
    rw [List.cons_append, List.append_assoc, List.singleton_append,
      readValue_quote (readString_quoted t rest), joinPairs_of_escaped hplain.2.1]
  | array _ | object _ => exact nomatch hname

/-! ### Items and fields -/

theorem insertField_of_not_mem {key : Text} {fields : List (Text × Json)}
    (h : key ∉ fields.map (·.1)) (v : Json) :
    insertField key v fields = fields ++ [(key, v)] := by
  induction fields with
  | nil => rfl
  | cons f fields ih =>
    rw [List.map_cons, List.mem_cons, not_or] at h
    rw [insertField, if_neg (Ne.symm h.1), ih h.2, List.cons_append]

theorem key_not_mem_of_nodup {field : Text × Json} {acc fields : List (Text × Json)}
    (h : ((acc ++ field :: fields).map (·.1)).Nodup) : field.1 ∉ acc.map (·.1) := by
  rw [List.map_append, List.map_cons] at h
  exact fun hmem => (List.nodup_append.mp h).2.2 _ hmem _ List.mem_cons_self rfl

section

variable {b l : Nat} {acc : List (Text × Json)} {key t r₁ r : Text} {v w : Json}
  (hvalue : readValue b l (textAt layout depth v ++ t) = .ok (w, r₁))

include hvalue

theorem readFields_fieldAt_of_comma (hskip : skipSpace r₁ = CodePoint.ofChar ',' :: r) :
    readFields (b + 1) l acc (fieldAt layout depth (key, v) ++ t)
      = readFields b l (insertField (joinPairs key) w acc) (skipSpace r) := by
  rw [← skipSpace_blank_textAt] at hvalue
  rw [fieldAt_append]
  exact readFields_of_comma (readString_quoted key _) (skipSpace_cons rfl _) hvalue hskip

theorem readFields_fieldAt_of_brace (hskip : skipSpace r₁ = CodePoint.ofChar '\x7d' :: r) :
    readFields (b + 1) l acc (fieldAt layout depth (key, v) ++ t)
      = .ok (insertField (joinPairs key) w acc, r) := by
  rw [← skipSpace_blank_textAt] at hvalue
  rw [fieldAt_append]
  exact readFields_of_brace (readString_quoted key _) (skipSpace_cons rfl _) hvalue hskip

end

/-- With some levels, a legible value is read back. -/
def IsFaithful (layout : Layout) (l : Nat) : Prop :=
  ∀ ⦃depth b : Nat⦄ ⦃v : Json⦄ ⦃rest : Text⦄, v.isLegible l = true →
    (∀ c ∈ textAt layout depth v, c.isSurrogate = false) → (textAt layout depth v).length ≤ b →
    (v.isName = true → isSettled rest = true) →
      readValue b l (textAt layout depth v ++ rest) = .ok (v, rest)

theorem length_behind {Item : Type} (layout : Layout) (depth : Nat) (text : Item → Text)
    (item : Item) (items : List Item) :
    (text item).length + (behind layout depth text items).length
      < (behind layout depth text (item :: items)).length := by
  simp only [behind, separator_eq, List.flatMap_cons, List.length_append, List.length_cons]
  omega

theorem length_fieldAt (layout : Layout) (depth : Nat) (key : Text) (v : Json) :
    (textAt layout depth v).length < (fieldAt layout depth (key, v)).length := by
  rw [← List.append_nil (fieldAt _ _ _), fieldAt_append]
  simp only [List.length_cons, List.length_append]
  omega

theorem IsFaithful.readItems_textAt {b l : Nat} (h : IsFaithful layout l) {v : Json}
    {items : List Json} {space : Text} (hspace : ∀ c ∈ space, isSpace c = true)
    (hitems : ∀ w ∈ v :: items, isLegible l w = true)
    (hplain : ∀ c ∈ textAt layout depth v ++ behind layout depth (textAt layout depth) items,
      c.isSurrogate = false)
    (hb : (textAt layout depth v).length
      + (behind layout depth (textAt layout depth) items).length < b) (rest : Text) :
    readItems b l (textAt layout depth v ++ (behind layout depth (textAt layout depth) items ++
      (space ++ CodePoint.ofChar ']' :: rest))) = .ok (v :: items, rest) := by
  induction items generalizing v b with
  | nil =>
    obtain ⟨b, rfl⟩ := Nat.exists_eq_add_one_of_ne_zero (Nat.ne_zero_of_lt hb)
    rw [List.forall_mem_append] at hplain
    have hclose := skipSpace_close hspace (c := CodePoint.ofChar ']') rfl rest
    exact readItems_of_bracket (h (hitems v List.mem_cons_self) hplain.1 (by omega)
      fun _ => isSettled_of_skipSpace_eq hclose rfl) hclose
  | cons w items ih =>
    obtain ⟨b, rfl⟩ := Nat.exists_eq_add_one_of_ne_zero (Nat.ne_zero_of_lt hb)
    have hlength := length_behind layout depth (textAt layout depth) w items
    rw [List.forall_mem_cons] at hitems
    simp only [behind, List.flatMap_cons, List.forall_mem_append] at hplain
    have hcomma := skipSpace_behind layout depth (textAt layout depth) w items
      (space ++ CodePoint.ofChar ']' :: rest)
    rw [readItems_of_comma (h hitems.1 hplain.1 (by omega)
        fun _ => isSettled_of_skipSpace_eq hcomma rfl) hcomma,
      skipSpace_textAt _ _ isSpace_of_mem_gap,
      ih hitems.2 (List.forall_mem_append.mpr ⟨hplain.2.1.2, hplain.2.2⟩) (by omega)]
    rfl

/-- A field whose text has no surrogates has none in its key and none in its value's text. -/
theorem plain_of_fieldAt {key : Text} {v : Json}
    (h : ∀ c ∈ fieldAt layout depth (key, v), c.isSurrogate = false) :
    joinPairs key = key ∧ ∀ c ∈ textAt layout depth v, c.isSurrogate = false := by
  rw [← List.append_nil (fieldAt _ _ _), fieldAt_append] at h
  simp only [List.forall_mem_cons, List.forall_mem_append] at h
  exact ⟨joinPairs_of_escaped h.2.1, h.2.2.2.2.2.1⟩

theorem IsFaithful.readFields_fieldAt {b l : Nat} (h : IsFaithful layout l) {field : Text × Json}
    {acc fields : List (Text × Json)} {space : Text} (hspace : ∀ c ∈ space, isSpace c = true)
    (hfields : ∀ f ∈ field :: fields, isLegible l f.2 = true)
    (hkeys : ((acc ++ field :: fields).map (·.1)).Nodup)
    (hplain : ∀ c ∈ fieldAt layout depth field ++ behind layout depth (fieldAt layout depth) fields,
      c.isSurrogate = false)
    (hb : (fieldAt layout depth field).length
      + (behind layout depth (fieldAt layout depth) fields).length < b) (rest : Text) :
    readFields b l acc (fieldAt layout depth field ++
      (behind layout depth (fieldAt layout depth) fields ++
        (space ++ CodePoint.ofChar '\x7d' :: rest))) = .ok (acc ++ field :: fields, rest) := by
  induction fields generalizing field acc b with
  | nil =>
    obtain ⟨key, v⟩ := field
    obtain ⟨b, rfl⟩ := Nat.exists_eq_add_one_of_ne_zero (Nat.ne_zero_of_lt hb)
    have hlength := length_fieldAt layout depth key v
    rw [List.forall_mem_append] at hplain
    obtain ⟨hkey, hv⟩ := plain_of_fieldAt hplain.1
    have hnew := key_not_mem_of_nodup hkeys
    have hclose := skipSpace_close hspace (c := CodePoint.ofChar '\x7d') rfl rest
    have hvalue := h (b := b) (v := v) (hfields _ List.mem_cons_self) hv (by omega)
      fun _ => isSettled_of_skipSpace_eq hclose rfl
    refine (readFields_fieldAt_of_brace hvalue hclose).trans ?_
    rw [hkey, insertField_of_not_mem hnew]
  | cons f fields ih =>
    obtain ⟨key, v⟩ := field
    obtain ⟨b, rfl⟩ := Nat.exists_eq_add_one_of_ne_zero (Nat.ne_zero_of_lt hb)
    have hlength := length_fieldAt layout depth key v
    have hlengths := length_behind layout depth (fieldAt layout depth) f fields
    rw [List.forall_mem_cons] at hfields
    simp only [behind, List.flatMap_cons, List.forall_mem_append] at hplain
    obtain ⟨hkey, hv⟩ := plain_of_fieldAt hplain.1
    have hnew := key_not_mem_of_nodup hkeys
    have hcomma := skipSpace_behind layout depth (fieldAt layout depth) f fields
      (space ++ CodePoint.ofChar '\x7d' :: rest)
    have hvalue := h (b := b) (v := v) hfields.1 hv (by omega)
      fun _ => isSettled_of_skipSpace_eq hcomma rfl
    -- the key is new, so its field comes behind those that have been read
    rw [readFields_fieldAt_of_comma hvalue hcomma, hkey, insertField_of_not_mem hnew,
      skipSpace_fieldAt isSpace_of_mem_gap,
      ih hfields.2 (by rwa [List.append_assoc])
        (List.forall_mem_append.mpr ⟨hplain.2.1.2, hplain.2.2⟩) (by omega), List.append_assoc]
    rfl

/-! ### Values -/

section

variable {b l : Nat} (h : IsFaithful layout l)

include h

theorem IsFaithful.readValue_array {v : Json} {items : List Json}
    (hitems : ∀ w ∈ v :: items, isLegible l w = true)
    (hplain : ∀ c ∈ textAt layout depth (.array (v :: items)), c.isSurrogate = false)
    (hb : (textAt layout depth (.array (v :: items))).length ≤ b + 1) (rest : Text) :
    readValue (b + 1) (l + 1) (textAt layout depth (.array (v :: items)) ++ rest)
      = .ok (.array (v :: items), rest) := by
  obtain ⟨c, t, heq, hc⟩ := exists_textAt_eq_cons layout (depth + 1) v
  have hne : c.val ≠ 0x5D := fun hval => by simp [endsNumber, hval] at hc
  rw [textAt_array] at hplain hb ⊢
  simp only [List.forall_mem_cons, List.forall_mem_append] at hplain
  simp only [List.length_cons, List.length_append] at hb
  simp only [List.cons_append, List.append_assoc, List.nil_append]
  rw [readValue_bracket,
    readArray_of_items ((skipSpace_textAt _ _ isSpace_of_mem_lineBreak _ _).trans
      (by rw [heq, List.cons_append])) hne,
    ← List.cons_append, ← heq, h.readItems_textAt isSpace_of_mem_lineBreak hitems
      (List.forall_mem_append.mpr ⟨hplain.2.2.1, hplain.2.2.2.1⟩) (by omega)]
  rfl

theorem IsFaithful.readValue_object {field : Text × Json} {fields : List (Text × Json)}
    (hkeys : ((field :: fields).map (·.1)).Nodup)
    (hfields : ∀ f ∈ field :: fields, isLegible l f.2 = true)
    (hplain : ∀ c ∈ textAt layout depth (.object (field :: fields)), c.isSurrogate = false)
    (hb : (textAt layout depth (.object (field :: fields))).length ≤ b + 1) (rest : Text) :
    readValue (b + 1) (l + 1) (textAt layout depth (.object (field :: fields)) ++ rest)
      = .ok (.object (field :: fields), rest) := by
  rw [textAt_object] at hplain hb ⊢
  simp only [List.forall_mem_cons, List.forall_mem_append] at hplain
  simp only [List.length_cons, List.length_append] at hb
  simp only [List.cons_append, List.append_assoc, List.nil_append]
  rw [readValue_brace, readObject_of_fields ((skipSpace_fieldAt isSpace_of_mem_lineBreak _ _).trans
    (fieldAt_append _ _ _)) (by decide), ← fieldAt_append,
    h.readFields_fieldAt isSpace_of_mem_lineBreak hfields hkeys
      (List.forall_mem_append.mpr ⟨hplain.2.2.1, hplain.2.2.2.1⟩) (by omega)]
  rfl

end

theorem isFaithful (layout : Layout) (l : Nat) : IsFaithful layout l := by
  induction l using Nat.strong_induction_on with
  | _ l ih =>
  intro depth b v rest hv hplain hb hrest
  obtain ⟨c, t, heq, -⟩ := exists_textAt_eq_cons layout depth v
  obtain ⟨b, rfl⟩ := Nat.exists_eq_add_one_of_ne_zero (n := b) (by
    rw [heq] at hb
    exact Nat.ne_zero_of_lt hb)
  cases hname : v.isName with
  | true => exact readValue_textAt_of_isName hname hv hplain (hrest hname)
  | false =>
    cases l with
    | zero =>
      cases v with
      | array _ | object _ => exact nomatch hv
      | _ => exact nomatch hname
    | succ l =>
      -- items and fields are read with one level fewer
      have hl := ih l (Nat.lt_succ_self l)
      match v with
      | .array [] => exact readValue_bracket b (l + 1) _
      | .array (v :: items) =>
        rw [isLegible, List.all_eq_true] at hv
        exact hl.readValue_array hv hplain hb rest
      | .object [] => exact readValue_brace b (l + 1) _
      | .object (field :: fields) =>
        rw [isLegible, Bool.and_eq_true, decide_eq_true_eq, List.all_eq_true] at hv
        exact hl.readValue_object hv.1 hv.2 hplain hb rest

/-- **A legible value is read back,** if its text can be encoded. -/
theorem parse_print {v : Json} (hv : v.isLegible deepest = true)
    (hplain : ∀ c ∈ print layout v, c.isSurrogate = false) : parse (print layout v) = .ok v := by
  have hread : readValue ((print layout v).length + 1) deepest (textAt layout 0 v ++ [])
      = .ok (v, []) :=
    isFaithful layout deepest hv hplain (Nat.le_succ _) fun _ => rfl
  have hspace := skipSpace_textAt layout 0 (List.forall_mem_nil _) v []
  rw [List.append_nil] at hread hspace
  replace hspace : skipSpace (print layout v) = textAt layout 0 v := hspace
  rw [parse, hspace, hread]
  rfl

end Json

end MarkupGrammar
