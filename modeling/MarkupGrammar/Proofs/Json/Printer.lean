import MarkupGrammar.Proofs.Json.Numeral

/-!
# The extent of a written value

A value's pieces, put together, are a text with one shape at every depth: brackets around items,
each one after the first behind a comma. The reader goes through it item by item. Where an item ends
it is told by the comma, the bracket or the brace behind it, whatever number it has read; so the
reader either fails or stops exactly where the text ends. Nothing is assumed of the value for this.

It follows that no proper beginning of an object's text is read as a value, so what is left of a
file by a write that was cut short is not mistaken for a smaller object.

## Main definitions

* `Json.textAt` — the text of a value in one piece

## Main results

* `Json.readString_quoted` — a quoted text is read
* `Json.readsAll` — what is read of a written value is all of it
* `Json.exists_parse_eq_error` — no proper beginning of an object's text is read
-/

namespace MarkupGrammar

theorem CodePoint.ofNat_val (c : CodePoint) : CodePoint.ofNat c.val = c := dif_pos c.isLt

namespace Json

variable {layout : Layout} {depth : Nat}

/-! ### The text in one piece -/

/-- The text of a value at a depth. -/
def textAt (layout : Layout) (depth : Nat) (v : Json) : Text :=
  (piecesAt false layout depth [] v).flatten

/-- The text of a field. -/
def fieldAt (layout : Layout) (depth : Nat) (field : Text × Json) : Text :=
  quoteString false field.1 ++ (Text.ofString ": " ++ textAt layout depth field.2)

/-- The texts of items or fields that stand behind another one. -/
def behind {Item : Type} (layout : Layout) (depth : Nat) (text : Item → Text) (items : List Item) :
    Text :=
  items.flatMap fun item => layout.separator depth ++ text item

theorem flatten_piece (t : Text) : (piece t).flatten = t := by
  cases t <;> simp [piece]

theorem flatten_piecesAt (lead : Text) (v : Json) :
    (piecesAt false layout depth lead v).flatten = lead ++ textAt layout depth v := by
  match v with
  | .null | .bool _ | .int _ | .float _ | .text _ => simp [textAt, piecesAt]
  | .array [] | .object [] => simp [textAt, piecesAt]
  | .array (_ :: _) | .object (_ :: _) => simp [textAt, piecesAt, flatten_piece]

theorem flatten_itemPieces (lead : Text) (v : Json) (items : List Json) :
    (itemPieces false layout depth lead (v :: items)).flatten
      = lead ++ (textAt layout depth v ++ behind layout depth (textAt layout depth) items) := by
  induction items generalizing lead v with
  | nil => simp [itemPieces, behind, flatten_piecesAt]
  | cons w items ih =>
    rw [itemPieces, List.flatten_append, flatten_piecesAt, ih]
    simp [behind]

theorem flatten_fieldPieces (lead : Text) (field : Text × Json) (fields : List (Text × Json)) :
    (fieldPieces false layout depth lead (field :: fields)).flatten
      = lead ++
        (fieldAt layout depth field ++ behind layout depth (fieldAt layout depth) fields) := by
  induction fields generalizing lead field with
  | nil => simp [fieldPieces, behind, fieldAt, flatten_piecesAt, flatten_piece]
  | cons f fields ih =>
    rw [fieldPieces, List.flatten_append, ih]
    simp [behind, fieldAt, flatten_piecesAt, flatten_piece]

theorem textAt_int (i : Int) : textAt layout depth (.int i) = Text.ofInt i := List.append_nil _

theorem textAt_float (x : Binary64) :
    textAt layout depth (.float x) = Binary64.jsonLayout.render x :=
  List.append_nil _

theorem textAt_text (t : Text) :
    textAt layout depth (.text t)
      = CodePoint.ofChar '"' :: (t.flatMap (escape false) ++ [CodePoint.ofChar '"']) :=
  List.append_nil _

theorem textAt_array (v : Json) (items : List Json) :
    textAt layout depth (.array (v :: items)) =
      CodePoint.ofChar '[' :: (layout.lineBreak (depth + 1) ++
        (textAt layout (depth + 1) v ++
          (behind layout (depth + 1) (textAt layout (depth + 1)) items ++
            (layout.lineBreak depth ++ [CodePoint.ofChar ']'])))) := by
  simp [textAt, piecesAt, flatten_itemPieces, flatten_piece]
  rfl

theorem textAt_object (field : Text × Json) (fields : List (Text × Json)) :
    textAt layout depth (.object (field :: fields)) =
      CodePoint.ofChar '\x7b' :: (layout.lineBreak (depth + 1) ++
        (fieldAt layout (depth + 1) field ++
          (behind layout (depth + 1) (fieldAt layout (depth + 1)) fields ++
            (layout.lineBreak depth ++ [CodePoint.ofChar '\x7d'])))) := by
  simp [textAt, piecesAt, flatten_fieldPieces, flatten_piece]
  rfl

/-! ### Space -/

theorem skipSpace_of_forall {space : Text} (h : ∀ c ∈ space, isSpace c = true) (t : Text) :
    skipSpace (space ++ t) = skipSpace t :=
  List.dropWhile_append_of_pos h

theorem skipSpace_cons {c : CodePoint} (h : isSpace c = false) (t : Text) :
    skipSpace (c :: t) = c :: t :=
  List.dropWhile_cons_of_neg (by rw [h]; exact Bool.false_ne_true)

/-- What stands before a closing bracket and is passed over. -/
theorem skipSpace_close {space : Text} (h : ∀ c ∈ space, isSpace c = true) {c : CodePoint}
    (hc : isSpace c = false) (t : Text) : skipSpace (space ++ c :: t) = c :: t := by
  rw [skipSpace_of_forall h, skipSpace_cons hc]

theorem isSpace_of_mem_lineBreak : ∀ c ∈ layout.lineBreak depth, isSpace c = true := by
  cases layout with
  | oneLine => nofun
  | indented step =>
    refine List.forall_mem_cons.mpr ⟨rfl, fun c hc => ?_⟩
    rw [List.eq_of_mem_replicate hc]
    rfl

/-- What stands behind the comma between two items. -/
def Layout.gap (layout : Layout) (depth : Nat) : Text :=
  match layout with
  | .oneLine => [CodePoint.ofChar ' ']
  | .indented step => (Layout.indented step).lineBreak depth

theorem separator_eq : layout.separator depth = CodePoint.ofChar ',' :: layout.gap depth := by
  cases layout <;> rfl

theorem isSpace_of_mem_gap : ∀ c ∈ layout.gap depth, isSpace c = true := by
  cases layout with
  | oneLine => exact List.forall_mem_singleton.mpr rfl
  | indented step =>
    change ∀ c ∈ (Layout.indented step).lineBreak depth, isSpace c = true
    exact isSpace_of_mem_lineBreak

/-- What stands behind an item begins with a comma, and space and an item follow. -/
theorem skipSpace_behind {Item : Type} (layout : Layout) (depth : Nat) (text : Item → Text)
    (item : Item) (items : List Item) (t : Text) :
    skipSpace (behind layout depth text (item :: items) ++ t) =
      CodePoint.ofChar ',' :: (layout.gap depth ++
        (text item ++ (behind layout depth text items ++ t))) := by
  have hcomma : behind layout depth text (item :: items) ++ t =
      CodePoint.ofChar ',' :: (layout.gap depth ++
        (text item ++ (behind layout depth text items ++ t))) := by
    simp [behind, separator_eq]
  rw [hcomma, skipSpace_cons rfl]

/-! ### Strings -/

theorem hexDigit?_hexDigit : ∀ d < 16, (CodePoint.hexDigit d).hexDigit? = some d := by decide

theorem scanString_plain {c : CodePoint} (hquote : c.val ≠ 0x22) (hslash : c.val ≠ 0x5C)
    (hcontrol : ¬ c.val < 0x20) (acc r : Text) :
    scanString .plain acc (c :: r) = scanString .plain (c :: acc) r := by
  rw [scanString, if_neg hquote, if_neg hslash, if_neg hcontrol]

theorem scanString_escape {c d : CodePoint} (h : simpleEscape? c = some d) (hc : c.val ≠ 0x75)
    (acc r : Text) :
    scanString .plain acc (CodePoint.ofChar '\\' :: c :: r) = scanString .plain (d :: acc) r := by
  rw [scanString, if_neg (by decide), if_pos (by decide), scanString, if_neg hc, h]

theorem scanString_hex_succ {d : Nat} (h : d < 16) (missing value : Nat) (acc r : Text) :
    scanString (.hex (missing + 1) value) acc (CodePoint.hexDigit d :: r)
      = scanString (.hex missing (16 * value + d)) acc r := by
  rw [scanString, hexDigit?_hexDigit d h]

theorem scanString_hex_zero {d : Nat} (h : d < 16) (value : Nat) (acc r : Text) :
    scanString (.hex 0 value) acc (CodePoint.hexDigit d :: r)
      = scanString .plain (CodePoint.ofNat (16 * value + d) :: acc) r := by
  rw [scanString, hexDigit?_hexDigit d h]

/-- A numbered escape is read as the code point with the number. -/
theorem scanString_unit {n : Nat} (h : n < 0x10000) (acc r : Text) :
    scanString .plain acc (Text.ofString "\\u"
        ++ ([12, 8, 4, 0].map fun shift => CodePoint.hexDigit (n / Nat.pow 2 shift % 16)) ++ r)
      = scanString .plain (CodePoint.ofNat n :: acc) r := by
  have hlt : ∀ k, k % 16 < 16 := fun k => Nat.mod_lt k (by decide)
  have hvalue : 16 * (16 * (16 * (16 * 0 + n / Nat.pow 2 12 % 16) + n / Nat.pow 2 8 % 16)
      + n / Nat.pow 2 4 % 16) + n / Nat.pow 2 0 % 16 = n := by
    simp only [Nat.pow_eq, Nat.reducePow]
    omega
  change scanString .plain acc (CodePoint.ofChar '\\' :: CodePoint.ofChar 'u' ::
    CodePoint.hexDigit (n / Nat.pow 2 12 % 16) :: CodePoint.hexDigit (n / Nat.pow 2 8 % 16) ::
    CodePoint.hexDigit (n / Nat.pow 2 4 % 16) :: CodePoint.hexDigit (n / Nat.pow 2 0 % 16) :: r) = _
  rw [scanString, if_neg (by decide), if_pos (by decide), scanString, if_pos (by decide),
    scanString_hex_succ (hlt _), scanString_hex_succ (hlt _), scanString_hex_succ (hlt _),
    scanString_hex_zero (hlt _), hvalue]

/-- **An escaped code point is read as the code point.** -/
theorem scanString_append_escape (c : CodePoint) (acc r : Text) :
    scanString .plain acc (escape false c ++ r) = scanString .plain (c :: acc) r := by
  have hshort : ∀ d : CodePoint, c.val = d.val → ∀ letter : Char,
      simpleEscape? (CodePoint.ofChar letter) = some d → (CodePoint.ofChar letter).val ≠ 0x75 →
        scanString .plain acc (Text.ofString (String.ofList ['\\', letter]) ++ r)
          = scanString .plain (c :: acc) r := by
    intro d hd letter hletter hne
    rw [CodePoint.eq_iff.mpr hd, Text.ofString_ofList]
    exact scanString_escape hletter hne acc r
  rw [escape]
  split
  · next hself =>
    rw [Bool.or_eq_true, decide_eq_true_eq, decide_eq_true_eq] at hself
    obtain rfl | rfl := hself <;> exact scanString_escape rfl (by decide) acc r
  next hself =>
  rw [Bool.not_eq_true, Bool.or_eq_false_iff, decide_eq_false_iff_not, decide_eq_false_iff_not,
    CodePoint.eq_iff, CodePoint.eq_iff] at hself
  split
  · next h => exact hshort (CodePoint.ofNat 8) h 'b' rfl (by decide)
  split
  · next h => exact hshort (CodePoint.ofNat 9) h 't' rfl (by decide)
  split
  · next h => exact hshort (CodePoint.ofNat 10) h 'n' rfl (by decide)
  split
  · next h => exact hshort (CodePoint.ofNat 12) h 'f' rfl (by decide)
  split
  · next h => exact hshort (CodePoint.ofNat 13) h 'r' rfl (by decide)
  split
  · next h => rw [scanString_unit (Nat.lt_trans h (by decide)), CodePoint.ofNat_val]
  · next h => exact scanString_plain hself.1 hself.2 h acc r

/-- **A quoted text is read,** and what follows its closing quote is left. -/
theorem readString_quoted (t r : Text) :
    readString (t.flatMap (escape false) ++ CodePoint.ofChar '"' :: r) = some (joinPairs t, r) := by
  have hscan : ∀ acc, scanString .plain acc (t.flatMap (escape false) ++ CodePoint.ofChar '"' :: r)
      = some (t.reverse ++ acc, r) := by
    induction t with
    | nil => exact fun acc => if_pos rfl
    | cons c t ih =>
      intro acc
      rw [List.flatMap_cons, List.append_assoc, scanString_append_escape, ih, List.reverse_cons,
        List.append_assoc]
      rfl
  rw [readString, hscan, List.append_nil, Option.map_some]
  simp only [List.reverse_reverse]

/-! ### Words and numbers -/

/-- Whether a value is written as a word or a number. -/
def isWord : Json → Bool
  | .null | .bool _ | .int _ | .float _ => true
  | .text _ | .array _ | .object _ => false

theorem isName_of_isWord {v : Json} (h : v.isWord = true) : v.isName = true := by
  cases v with
  | array _ | object _ => exact nomatch h
  | _ => rfl

theorem isBare_of_mem_ofInt (i : Int) : ∀ c ∈ Text.ofInt i, isBare c = true := by
  have hnat : ∀ n, ∀ c ∈ Text.ofNat n, isBare c = true := fun n c hc =>
    isBare_of_isAsciiDigit (isAsciiDigit_of_mem_toDigits c hc)
  cases i with
  | ofNat n => exact hnat n
  | negSucc n => exact List.forall_mem_append.mpr ⟨by decide, hnat (n + 1)⟩

theorem ofInt_ne_nil (i : Int) : Text.ofInt i ≠ [] := by
  cases i with
  | ofNat n => exact (isWhole_ofNat n).ne_nil
  | negSucc n => nofun

/-- A word or a number is written bare. -/
theorem bare_textAt (layout : Layout) (depth : Nat) {v : Json} (h : v.isWord = true) :
    textAt layout depth v ≠ [] ∧ ∀ c ∈ textAt layout depth v, isBare c = true := by
  cases v with
  | null => exact ⟨nofun, (by decide : ∀ c ∈ Text.ofString "null", isBare c = true)⟩
  | bool b =>
    cases b with
    | true => exact ⟨nofun, (by decide : ∀ c ∈ Text.ofString "true", isBare c = true)⟩
    | false => exact ⟨nofun, (by decide : ∀ c ∈ Text.ofString "false", isBare c = true)⟩
  | int i =>
    rw [textAt_int]
    exact ⟨ofInt_ne_nil i, isBare_of_mem_ofInt i⟩
  | float x =>
    rw [textAt_float]
    exact ⟨render_ne_nil x, isBare_of_mem_render x⟩
  | text _ | array _ | object _ => exact nomatch h

/-- The text of a value begins with a code point that ends none. -/
theorem exists_textAt_eq_cons (layout : Layout) (depth : Nat) (v : Json) :
    ∃ c t, textAt layout depth v = c :: t ∧ endsNumber c = false := by
  cases hword : v.isWord with
  | true =>
    obtain ⟨hne, hbare⟩ := bare_textAt layout depth hword
    obtain ⟨c, t, heq⟩ := List.exists_cons_of_ne_nil hne
    rw [heq] at hbare
    exact ⟨c, t, heq, endsNumber_of_isBare (hbare c List.mem_cons_self)⟩
  | false =>
    match v with
    | .text t => exact ⟨_, _, textAt_text t, rfl⟩
    | .array [] => exact ⟨CodePoint.ofChar '[', [CodePoint.ofChar ']'], rfl, rfl⟩
    | .array (v :: items) => exact ⟨_, _, textAt_array v items, rfl⟩
    | .object [] => exact ⟨CodePoint.ofChar '\x7b', [CodePoint.ofChar '\x7d'], rfl, rfl⟩
    | .object (field :: fields) => exact ⟨_, _, textAt_object field fields, rfl⟩

theorem isSpace_of_endsNumber {c : CodePoint} (h : endsNumber c = false) : isSpace c = false := by
  rw [endsNumber, Bool.or_eq_false_iff, Bool.or_eq_false_iff, Bool.or_eq_false_iff,
    Bool.or_eq_false_iff] at h
  exact h.1.1.1.1

/-- Space before a value is passed over, and no more. -/
theorem skipSpace_textAt (layout : Layout) (depth : Nat) {space : Text}
    (h : ∀ c ∈ space, isSpace c = true) (v : Json) (t : Text) :
    skipSpace (space ++ (textAt layout depth v ++ t)) = textAt layout depth v ++ t := by
  obtain ⟨c, u, heq, hc⟩ := exists_textAt_eq_cons layout depth v
  rw [skipSpace_of_forall h, heq, List.cons_append, skipSpace_cons (isSpace_of_endsNumber hc)]

/-- The space behind a colon is passed over. -/
theorem skipSpace_blank_textAt (v : Json) (t : Text) :
    skipSpace (CodePoint.ofChar ' ' :: (textAt layout depth v ++ t)) = textAt layout depth v ++ t :=
  skipSpace_textAt layout depth
    (List.forall_mem_singleton.mpr (rfl : isSpace (CodePoint.ofChar ' ') = true)) v t

theorem readValue_of_isBare {c : CodePoint} (h : isBare c = true) (b l : Nat) (t : Text) :
    readValue (b + 1) l (c :: t) =
      match readWord (c :: t) with
      | some found => .ok found
      | none => readNumber (c :: t) := by
  rw [isBare, Bool.not_eq_true', Bool.or_eq_false_iff, Bool.or_eq_false_iff, Bool.or_eq_false_iff,
    decide_eq_false_iff_not, decide_eq_false_iff_not, decide_eq_false_iff_not] at h
  rw [readValue_cons]
  exact (if_neg h.1.1.2).trans ((if_neg h.1.2).trans (if_neg h.2))

/-! ### The extent of a text -/

/-- What is read where a word or a number is written bare. -/
theorem rest_of_readValue_bare {b l : Nat} {w rest r : Text} {v : Json} (hne : w ≠ [])
    (hw : ∀ c ∈ w, isBare c = true) (hrest : isSettled rest = true)
    (h : readValue b l (w ++ rest) = .ok (v, r)) : r = rest ∨ isSettled r = false := by
  refine Passes.eq_or_not_isSettled ?_ hw hrest
  cases w with
  | nil => exact absurd rfl hne
  | cons c w =>
    cases b with
    | zero => exact nomatch h
    | succ b =>
      rw [List.cons_append, readValue_of_isBare (hw c List.mem_cons_self)] at h
      split at h
      · next found hword => exact passes_of_readWord (hword.trans (congrArg some (Except.ok.inj h)))
      · exact passes_of_readNumber h

theorem fieldAt_append (key : Text) (v : Json) (t : Text) :
    fieldAt layout depth (key, v) ++ t =
      CodePoint.ofChar '"' :: (key.flatMap (escape false) ++ CodePoint.ofChar '"' ::
        CodePoint.ofChar ':' :: CodePoint.ofChar ' ' :: (textAt layout depth v ++ t)) := by
  simp [fieldAt, quoteString]
  rfl

/-- With some levels, what is read of a written value is all of it. A number may be read in part,
when nothing can follow. -/
def ReadsAll (layout : Layout) (l : Nat) : Prop :=
  ∀ ⦃depth b : Nat⦄ ⦃v w : Json⦄ ⦃rest r : Text⦄,
    readValue b l (textAt layout depth v ++ rest) = .ok (w, r) →
    (v.isName = true → isSettled rest = true) → r = rest ∨ v.isName = true ∧ isSettled r = false

/-- Where something follows that settles the matter, a number is read as a whole too. -/
theorem ReadsAll.eq {l b : Nat} (h : ReadsAll layout l) {v w : Json} {rest r : Text}
    (hread : readValue b l (textAt layout depth v ++ rest) = .ok (w, r))
    (hrest : isSettled rest = true) (hr : isSettled r = true) : r = rest := by
  obtain rfl | ⟨-, hr'⟩ := h hread fun _ => hrest
  · rfl
  · exact absurd (hr.symm.trans hr') nofun

theorem ReadsAll.rest_of_readItems {b l : Nat} (h : ReadsAll layout l) {v : Json}
    {items vs : List Json} {space rest r : Text} (hspace : ∀ c ∈ space, isSpace c = true)
    (hread : readItems b l (textAt layout depth v ++
      (behind layout depth (textAt layout depth) items ++
        (space ++ CodePoint.ofChar ']' :: rest))) = .ok (vs, r)) : r = rest := by
  induction items generalizing v b vs with
  | nil =>
    obtain ⟨b, v', r₁, rfl, hvalue, hnext⟩ := cases_of_readItems hread
    have hclose := skipSpace_close hspace (c := CodePoint.ofChar ']') rfl rest
    have hr₁ := h.eq hvalue (isSettled_of_skipSpace_eq hclose rfl)
    obtain ⟨r₂, -, hskip, -⟩ | ⟨hskip, -⟩ := hnext
    all_goals
      obtain rfl := hr₁ (isSettled_of_skipSpace_eq hskip rfl)
      have hcons := List.cons.inj (hskip.symm.trans hclose)
    · exact absurd hcons.1 (by decide)
    · exact hcons.2
  | cons w items ih =>
    obtain ⟨b, v', r₁, rfl, hvalue, hnext⟩ := cases_of_readItems hread
    have hcomma := skipSpace_behind layout depth (textAt layout depth) w items
      (space ++ CodePoint.ofChar ']' :: rest)
    have hr₁ := h.eq hvalue (isSettled_of_skipSpace_eq hcomma rfl)
    obtain ⟨r₂, vs, hskip, hitems, -⟩ | ⟨hskip, -⟩ := hnext
    all_goals
      obtain rfl := hr₁ (isSettled_of_skipSpace_eq hskip rfl)
      have hcons := List.cons.inj (hskip.symm.trans hcomma)
    · obtain rfl := hcons.2
      rw [skipSpace_textAt _ _ isSpace_of_mem_gap] at hitems
      exact ih hitems
    · exact absurd hcons.1 (by decide)

/-- The key of a written field is read, and its value is what is read next. -/
theorem cases_of_readFields_fieldAt {b l : Nat} {acc fields : List (Text × Json)} {key t r : Text}
    {v : Json} (h : readFields b l acc (fieldAt layout depth (key, v) ++ t) = .ok (fields, r)) :
    ∃ b' w r₃, b = b' + 1 ∧ readValue b' l (textAt layout depth v ++ t) = .ok (w, r₃) ∧
      ((∃ r₄, skipSpace r₃ = CodePoint.ofChar ',' :: r₄ ∧
          readFields b' l (insertField (joinPairs key) w acc) (skipSpace r₄) = .ok (fields, r)) ∨
        skipSpace r₃ = CodePoint.ofChar '\x7d' :: r ∧
          fields = insertField (joinPairs key) w acc) := by
  rw [fieldAt_append] at h
  obtain ⟨b, t', key', r₁, r₂, w, r₃, rfl, ht', hkey, hcolon, hvalue, hnext⟩ :=
    cases_of_readFields h
  obtain rfl := (List.cons.inj ht').2
  obtain ⟨rfl, rfl⟩ := Prod.mk.inj (Option.some.inj ((readString_quoted _ _).symm.trans hkey))
  rw [skipSpace_cons rfl] at hcolon
  obtain rfl := (List.cons.inj hcolon).2
  rw [skipSpace_blank_textAt] at hvalue
  exact ⟨b, w, r₃, rfl, hvalue, hnext⟩

theorem skipSpace_fieldAt {space : Text} (h : ∀ c ∈ space, isSpace c = true)
    (field : Text × Json) (t : Text) :
    skipSpace (space ++ (fieldAt layout depth field ++ t)) = fieldAt layout depth field ++ t := by
  rw [skipSpace_of_forall h, fieldAt_append, skipSpace_cons rfl]

theorem ReadsAll.rest_of_readFields {b l : Nat} (h : ReadsAll layout l) {field : Text × Json}
    {fields acc found : List (Text × Json)} {space rest r : Text}
    (hspace : ∀ c ∈ space, isSpace c = true)
    (hread : readFields b l acc (fieldAt layout depth field ++
      (behind layout depth (fieldAt layout depth) fields ++
        (space ++ CodePoint.ofChar '\x7d' :: rest))) = .ok (found, r)) : r = rest := by
  induction fields generalizing field b acc with
  | nil =>
    obtain ⟨b, w, r₁, rfl, hvalue, hnext⟩ := cases_of_readFields_fieldAt hread
    have hclose := skipSpace_close hspace (c := CodePoint.ofChar '\x7d') rfl rest
    have hr₁ := h.eq hvalue (isSettled_of_skipSpace_eq hclose rfl)
    obtain ⟨r₂, hskip, -⟩ | ⟨hskip, -⟩ := hnext
    all_goals
      obtain rfl := hr₁ (isSettled_of_skipSpace_eq hskip rfl)
      have hcons := List.cons.inj (hskip.symm.trans hclose)
    · exact absurd hcons.1 (by decide)
    · exact hcons.2
  | cons f fields ih =>
    obtain ⟨b, w, r₁, rfl, hvalue, hnext⟩ := cases_of_readFields_fieldAt hread
    have hcomma := skipSpace_behind layout depth (fieldAt layout depth) f fields
      (space ++ CodePoint.ofChar '\x7d' :: rest)
    have hr₁ := h.eq hvalue (isSettled_of_skipSpace_eq hcomma rfl)
    obtain ⟨r₂, hskip, hfields⟩ | ⟨hskip, -⟩ := hnext
    all_goals
      obtain rfl := hr₁ (isSettled_of_skipSpace_eq hskip rfl)
      have hcons := List.cons.inj (hskip.symm.trans hcomma)
    · obtain rfl := hcons.2
      rw [skipSpace_fieldAt isSpace_of_mem_gap] at hfields
      exact ih hfields
    · exact absurd hcons.1 (by decide)

theorem rest_of_readArray {b l : Nat} (h : ∀ l' < l, ReadsAll layout l') {v w : Json}
    {items : List Json} {rest r : Text}
    (hread : readArray b l (layout.lineBreak (depth + 1) ++ (textAt layout (depth + 1) v ++
      (behind layout (depth + 1) (textAt layout (depth + 1)) items ++
        (layout.lineBreak depth ++ CodePoint.ofChar ']' :: rest)))) = .ok (w, r)) : r = rest := by
  obtain ⟨l, rfl, hcases⟩ := cases_of_readArray hread
  rw [skipSpace_textAt _ _ isSpace_of_mem_lineBreak] at hcases
  obtain ⟨hskip, -⟩ | ⟨c, r', vs, hskip, -, hitems, -⟩ := hcases
  · obtain ⟨c, t, heq, hc⟩ := exists_textAt_eq_cons layout (depth + 1) v
    rw [heq] at hskip
    rw [(List.cons.inj hskip).1] at hc
    exact nomatch hc
  · rw [← hskip] at hitems
    exact (h l (Nat.lt_succ_self l)).rest_of_readItems isSpace_of_mem_lineBreak hitems

theorem rest_of_readObject {b l : Nat} (h : ∀ l' < l, ReadsAll layout l') {field : Text × Json}
    {fields : List (Text × Json)} {w : Json} {rest r : Text}
    (hread : readObject b l (layout.lineBreak (depth + 1) ++ (fieldAt layout (depth + 1) field ++
      (behind layout (depth + 1) (fieldAt layout (depth + 1)) fields ++
        (layout.lineBreak depth ++ CodePoint.ofChar '\x7d' :: rest)))) = .ok (w, r)) :
    r = rest := by
  obtain ⟨l, rfl, hcases⟩ := cases_of_readObject hread
  rw [skipSpace_fieldAt isSpace_of_mem_lineBreak] at hcases
  obtain ⟨hskip, -⟩ | ⟨c, r', found, hskip, -, hfields, -⟩ := hcases
  · rw [fieldAt_append] at hskip
    exact absurd (List.cons.inj hskip).1 (by decide)
  · rw [← hskip] at hfields
    exact (h l (Nat.lt_succ_self l)).rest_of_readFields isSpace_of_mem_lineBreak hfields

theorem readsAll (layout : Layout) (l : Nat) : ReadsAll layout l := by
  induction l using Nat.strong_induction_on with
  | _ l ih =>
  intro depth b v w rest r h hrest
  cases hword : v.isWord with
  | true =>
    -- nothing in the text says where it ends, so it is settled by what follows
    obtain ⟨hne, hbare⟩ := bare_textAt layout depth hword
    have hname := isName_of_isWord hword
    exact (rest_of_readValue_bare hne hbare (hrest hname) h).imp_right fun hr => ⟨hname, hr⟩
  | false =>
    refine Or.inl ?_
    cases b with
    | zero => exact nomatch h
    | succ b =>
    match v with
    | .text t =>
      rw [textAt_text, List.cons_append, List.append_assoc, List.singleton_append,
        readValue_quote (readString_quoted t rest)] at h
      exact (Prod.mk.inj (Except.ok.inj h)).2.symm
    | .array [] =>
      replace h : readValue (b + 1) l
        (CodePoint.ofChar '[' :: CodePoint.ofChar ']' :: rest) = .ok (w, r) := h
      rw [readValue_bracket] at h
      obtain ⟨l, rfl, hcases⟩ := cases_of_readArray h
      rw [skipSpace_cons rfl] at hcases
      obtain ⟨hskip, -⟩ | ⟨c, r', -, hskip, hc, -⟩ := hcases
      · exact (List.cons.inj hskip).2.symm
      · exact absurd rfl ((List.cons.inj hskip).1 ▸ hc)
    | .object [] =>
      replace h : readValue (b + 1) l
        (CodePoint.ofChar '\x7b' :: CodePoint.ofChar '\x7d' :: rest) = .ok (w, r) := h
      rw [readValue_brace] at h
      obtain ⟨l, rfl, hcases⟩ := cases_of_readObject h
      rw [skipSpace_cons rfl] at hcases
      obtain ⟨hskip, -⟩ | ⟨c, r', -, hskip, hc, -⟩ := hcases
      · exact (List.cons.inj hskip).2.symm
      · exact absurd rfl ((List.cons.inj hskip).1 ▸ hc)
    | .array (v :: items) =>
      rw [textAt_array] at h
      simp only [List.cons_append, List.append_assoc, List.nil_append] at h
      rw [readValue_bracket] at h
      exact rest_of_readArray ih h
    | .object (field :: fields) =>
      rw [textAt_object] at h
      simp only [List.cons_append, List.append_assoc, List.nil_append] at h
      rw [readValue_brace] at h
      exact rest_of_readObject ih h

theorem exists_textAt_object (layout : Layout) (depth : Nat) (fields : List (Text × Json)) :
    ∃ t, textAt layout depth (.object fields) = CodePoint.ofChar '\x7b' :: t := by
  match fields with
  | [] => exact ⟨_, rfl⟩
  | field :: fields => exact ⟨_, textAt_object field fields⟩

/-- **No proper beginning of an object's text is read.** -/
theorem exists_parse_eq_error {fields : List (Text × Json)} {t u : Text}
    (h : print layout (.object fields) = t ++ u) (hu : u ≠ []) : ∃ e, parse t = .error e := by
  cases hparse : parse t with
  | error e => exact ⟨e, rfl⟩
  | ok v =>
    exfalso
    obtain ⟨tail, htail⟩ := exists_textAt_object layout 0 fields
    replace h : textAt layout 0 (.object fields) = t ++ u := h
    rw [parse] at hparse
    cases t with
    | nil => exact nomatch hparse
    | cons c t =>
      obtain rfl : CodePoint.ofChar '\x7b' = c := (List.cons.inj (htail.symm.trans h)).1
      rw [skipSpace_cons rfl, readValue_brace] at hparse
      cases hread : readObject (CodePoint.ofChar '\x7b' :: t).length deepest t with
      | error e =>
        rw [hread] at hparse
        exact nomatch hparse
      | ok p =>
        obtain ⟨w, r⟩ := p
        have hlonger := readObject_append (u := u) hread (Nat.le_refl _) (Nat.le_refl _)
        rw [← readValue_brace, ← List.cons_append, ← h, ← List.append_nil (textAt _ _ _)] at hlonger
        obtain hnil | ⟨hname, -⟩ := readsAll layout deepest hlonger nofun
        · exact hu (List.append_eq_nil_iff.mp hnil).2
        · exact nomatch hname

end Json

end MarkupGrammar
