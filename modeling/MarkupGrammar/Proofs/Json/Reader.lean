import MarkupGrammar.Json.Reader
import MarkupGrammar.Proofs.Reading
import Mathlib.Data.List.TakeWhile

/-!
# The reader does not look ahead

What the reader takes for a value is decided by the value's own text. When more text follows, the
same value is read, and the rest is longer by what follows. Only a number may go on, so after a
number the next code point has to be one that ends it: a space, a separator or a closing bracket.

An object ends with its brace, so no proper beginning of an object's text is an object's text, and a
file that was cut off is not mistaken for a shorter one.

## Main results

* `Json.readNumber_append` — a number is read alike in a longer text
* `Json.readValue_append`, `Json.readItems_append`, `Json.readFields_append` — and so is a value
-/

namespace MarkupGrammar

theorem CodePoint.eq_iff {c d : CodePoint} : c = d ↔ c.val = d.val := by
  obtain ⟨c, hc⟩ := c
  obtain ⟨d, hd⟩ := d
  rw [CodePoint.mk.injEq]

namespace Json

/-! ### What comes next -/

/-- Whether a text begins with a code point of a kind. -/
def beginsWith (p : CodePoint → Bool) (t : Text) : Bool := t.head?.any p

@[simp] theorem beginsWith_nil (p : CodePoint → Bool) : beginsWith p [] = false := rfl

@[simp] theorem beginsWith_cons (p : CodePoint → Bool) (c : CodePoint) (t : Text) :
    beginsWith p (c :: t) = p c :=
  rfl

/-- Whether a code point ends a number: a space, a separator or a closing bracket. -/
def endsNumber (c : CodePoint) : Bool :=
  isSpace c || c.val = 0x2C || c.val = 0x3A || c.val = 0x5D || c.val = 0x7D

/-- Whether no number goes on with a text. -/
def isSettled (t : Text) : Bool := !beginsWith (fun c => !endsNumber c) t

theorem isSettled_cons (c : CodePoint) (t : Text) : isSettled (c :: t) = endsNumber c := by
  simp [isSettled]

/-- A code point that can stand in a number after its first digit. -/
def isNumeric (c : CodePoint) : Bool := c.isAsciiDigit || c.val = 0x2E

theorem isNumeric_of_endsNumber {c : CodePoint} (h : endsNumber c = true) :
    isNumeric c = false := by
  simp only [endsNumber, isSpace, Bool.or_eq_true, decide_eq_true_eq] at h
  simp only [isNumeric, CodePoint.isAsciiDigit, Bool.or_eq_false_iff, Bool.and_eq_false_iff,
    decide_eq_false_iff_not]
  omega

theorem beginsWith_isNumeric_of_isSettled {t : Text} (h : isSettled t = true) :
    beginsWith isNumeric t = false := by
  cases t with
  | nil => rfl
  | cons c t => exact isNumeric_of_endsNumber (by rwa [isSettled_cons] at h)

theorem beginsWith_isAsciiDigit_of_isNumeric {t : Text} (h : beginsWith isNumeric t = false) :
    beginsWith CodePoint.isAsciiDigit t = false := by
  cases t with
  | nil => rfl
  | cons c t =>
    rw [beginsWith_cons, isNumeric, Bool.or_eq_false_iff] at h
    exact h.1

theorem skipSpace_append {t : Text} (h : skipSpace t ≠ []) (u : Text) :
    skipSpace (t ++ u) = skipSpace t ++ u := by
  rw [skipSpace, skipSpace, List.dropWhile_append, if_neg (by rwa [List.isEmpty_iff])]

/-- A text in which a separator or a closing bracket comes first ends a number. -/
theorem isSettled_of_skipSpace {t r : Text} {c : CodePoint} (h : skipSpace t = c :: r)
    (hc : endsNumber c = true) (u : Text) : isSettled (t ++ u) = true := by
  cases t with
  | nil => exact nomatch h
  | cons d t =>
    rw [List.cons_append, isSettled_cons]
    cases hd : isSpace d with
    | true => rw [endsNumber, hd]; rfl
    | false =>
      rw [skipSpace, List.dropWhile_cons_of_neg (by rw [hd]; nofun)] at h
      obtain ⟨rfl, -⟩ := List.cons.inj h
      exact hc

/-- The same of the text itself. -/
theorem isSettled_of_skipSpace_eq {t r : Text} {c : CodePoint} (h : skipSpace t = c :: r)
    (hc : endsNumber c = true) : isSettled t = true := by
  rw [← List.append_nil t]
  exact isSettled_of_skipSpace h hc []

/-! ### Numbers -/

theorem takeDigits_append {t u : Text}
    (h : beginsWith CodePoint.isAsciiDigit ((takeDigits t).2 ++ u) = false) :
    takeDigits (t ++ u) = ((takeDigits t).1, (takeDigits t).2 ++ u) := by
  induction t with
  | nil =>
    cases u with
    | nil => rfl
    | cons c u =>
      replace h : c.isAsciiDigit = false := h
      simp [takeDigits, h]
  | cons c t ih =>
    cases hc : c.isAsciiDigit with
    | true =>
      simp only [takeDigits, List.dropWhile_cons, List.takeWhile_cons, List.cons_append, hc,
        if_true] at h ih ⊢
      rw [Prod.mk.injEq] at ih ⊢
      exact ⟨congrArg _ (ih h).1, (ih h).2⟩
    | false => simp [takeDigits, hc]

theorem readWhole_append {t u r w : Text} (h : readWhole t = some (w, r))
    (hu : beginsWith CodePoint.isAsciiDigit (r ++ u) = false) :
    readWhole (t ++ u) = some (w, r ++ u) := by
  rw [readWhole] at h ⊢
  cases hdigits : takeDigits t with
  | mk digits rest =>
    have happend := takeDigits_append (t := t) (u := u)
    rw [hdigits] at h happend
    cases digits with
    | nil => exact nomatch h
    | cons d ds =>
      simp only at h happend
      by_cases hd : d.val = 0x30
      · rw [if_pos hd] at h
        obtain ⟨rfl, rfl⟩ := Prod.mk.inj (Option.some.inj h)
        cases ds with
        | nil => simp [happend hu, hd]
        | cons e ds =>
          have he : e ∈ t.takeWhile CodePoint.isAsciiDigit := by
            rw [show t.takeWhile CodePoint.isAsciiDigit = d :: e :: ds from
              congrArg Prod.fst hdigits]
            exact List.mem_cons_of_mem _ List.mem_cons_self
          rw [List.cons_append, List.cons_append, beginsWith_cons, List.mem_takeWhile_imp he] at hu
          exact nomatch hu
      · rw [if_neg hd] at h
        obtain ⟨rfl, rfl⟩ := Prod.mk.inj (Option.some.inj h)
        simp [happend hu, hd]

theorem after?_singleton (a c : CodePoint) (t : Text) :
    Text.after? [a] (c :: t) = if c.val = a.val then some t else none := by
  change (if a == c then some t else none) = _
  simp only [beq_iff_eq, CodePoint.eq_iff, @eq_comm _ a.val]

theorem after?_point (c : CodePoint) (t : Text) :
    Text.after? (Text.ofString ".") (c :: t) = if c.val = 0x2E then some t else none :=
  after?_singleton (CodePoint.ofChar '.') c t

theorem readFraction_of_beginsWith {t : Text} (h : beginsWith isNumeric t = false) :
    readFraction t = ([], t) := by
  cases t with
  | nil => rfl
  | cons c t =>
    rw [beginsWith_cons, isNumeric, Bool.or_eq_false_iff, decide_eq_false_iff_not] at h
    rw [readFraction, after?_point, if_neg h.2]

theorem readFraction_append {t u r f : Text} (h : readFraction t = (f, r))
    (hu : beginsWith isNumeric (r ++ u) = false) :
    readFraction (t ++ u) = (f, r ++ u) ∧ beginsWith CodePoint.isAsciiDigit (t ++ u) = false := by
  have hnone : t = r → f = [] →
      readFraction (t ++ u) = (f, r ++ u) ∧
        beginsWith CodePoint.isAsciiDigit (t ++ u) = false := by
    rintro rfl rfl
    exact ⟨readFraction_of_beginsWith hu, beginsWith_isAsciiDigit_of_isNumeric hu⟩
  cases t with
  | nil =>
    obtain ⟨rfl, rfl⟩ := Prod.mk.inj h
    exact hnone rfl rfl
  | cons c t =>
    by_cases hpoint : c.val = 0x2E
    · rw [List.cons_append, readFraction, after?_point, if_pos hpoint]
      rw [readFraction, after?_point, if_pos hpoint] at h
      have hc : c.isAsciiDigit = false := by simp [CodePoint.isAsciiDigit, hpoint]
      refine ⟨?_, hc⟩
      cases hdigits : takeDigits t with
      | mk digits rest =>
        simp only [hdigits] at h
        cases digits with
        | nil =>
          obtain ⟨rfl, rfl⟩ := Prod.mk.inj h
          rw [List.cons_append, beginsWith_cons, isNumeric, hpoint] at hu
          simp at hu
        | cons d ds =>
          obtain ⟨rfl, rfl⟩ := Prod.mk.inj h
          have happend := takeDigits_append (t := t) (u := u)
          rw [hdigits] at happend
          simp only [happend (beginsWith_isAsciiDigit_of_isNumeric hu)]
    · rw [readFraction, after?_point, if_neg hpoint] at h
      obtain ⟨rfl, rfl⟩ := Prod.mk.inj h
      exact hnone rfl rfl

/-- The sign of an exponent, and what follows it. -/
def readSign : Text → Bool × Text
  | [] => (false, [])
  | s :: r =>
    if s.val = 0x2D then (true, r) else if s.val = 0x2B then (false, r) else (false, s :: r)

theorem readSign_append {t : Text} (h : (readSign t).2 ≠ []) (u : Text) :
    readSign (t ++ u) = ((readSign t).1, (readSign t).2 ++ u) := by
  cases t with
  | nil => exact absurd rfl h
  | cons s t =>
    rw [List.cons_append, readSign, readSign]
    split
    · rfl
    · split <;> rfl

/-- Whether a code point marks an exponent. -/
def marksExponent (c : CodePoint) : Bool := c.val = 0x65 || c.val = 0x45

theorem readExponent_of_not_marksExponent {c : CodePoint} (h : marksExponent c = false) (t : Text) :
    readExponent (c :: t) = (none, c :: t) := by
  unfold readExponent
  exact if_neg (Bool.eq_false_iff.mp h)

theorem readExponent_of_marksExponent {c : CodePoint} (h : marksExponent c = true) (t : Text) :
    readExponent (c :: t) =
      match takeDigits (readSign t).2 with
      | ([], _) => (none, c :: t)
      | (digits, rest) =>
        (some (if (readSign t).1 then -(digitsValue digits : Int) else digitsValue digits),
          rest) := by
  unfold readExponent
  refine (if_pos h).trans ?_
  cases t <;> rfl

theorem marksExponent_of_endsNumber {c : CodePoint} (h : endsNumber c = true) :
    marksExponent c = false := by
  simp only [endsNumber, isSpace, Bool.or_eq_true, decide_eq_true_eq] at h
  simp only [marksExponent, Bool.or_eq_false_iff, decide_eq_false_iff_not]
  omega

theorem readExponent_of_isSettled {t : Text} (h : isSettled t = true) :
    readExponent t = (none, t) := by
  cases t with
  | nil => rfl
  | cons c t =>
    rw [isSettled_cons] at h
    exact readExponent_of_not_marksExponent (marksExponent_of_endsNumber h) t

theorem readExponent_append {t u r : Text} {x : Option Int} (h : readExponent t = (x, r))
    (hu : isSettled (r ++ u) = true) :
    readExponent (t ++ u) = (x, r ++ u) ∧ beginsWith isNumeric (t ++ u) = false := by
  have hnone : t = r → x = none →
      readExponent (t ++ u) = (x, r ++ u) ∧ beginsWith isNumeric (t ++ u) = false := by
    rintro rfl rfl
    exact ⟨readExponent_of_isSettled hu, beginsWith_isNumeric_of_isSettled hu⟩
  cases t with
  | nil =>
    obtain ⟨rfl, rfl⟩ := Prod.mk.inj h
    exact hnone rfl rfl
  | cons c t =>
    cases hc : marksExponent c with
    | false =>
      rw [readExponent_of_not_marksExponent hc] at h
      obtain ⟨rfl, rfl⟩ := Prod.mk.inj h
      exact hnone rfl rfl
    | true =>
      have hnumeric : isNumeric c = false := by
        simp only [marksExponent, Bool.or_eq_true, decide_eq_true_eq] at hc
        simp only [isNumeric, CodePoint.isAsciiDigit, Bool.or_eq_false_iff, Bool.and_eq_false_iff,
          decide_eq_false_iff_not]
        omega
      refine ⟨?_, hnumeric⟩
      rw [readExponent_of_marksExponent hc] at h
      rw [List.cons_append, readExponent_of_marksExponent hc]
      cases hdigits : takeDigits (readSign t).2 with
      | mk digits rest =>
        rw [hdigits] at h
        cases digits with
        | nil =>
          obtain ⟨rfl, rfl⟩ := Prod.mk.inj h
          rw [List.cons_append, isSettled_cons] at hu
          rw [marksExponent_of_endsNumber hu] at hc
          exact nomatch hc
        | cons d ds =>
          obtain ⟨rfl, rfl⟩ := Prod.mk.inj h
          have hne : (readSign t).2 ≠ [] := by
            intro hnil
            rw [hnil] at hdigits
            exact nomatch hdigits
          have happend := takeDigits_append (t := (readSign t).2) (u := u)
          rw [hdigits] at happend
          rw [readSign_append hne]
          simp only [happend (beginsWith_isAsciiDigit_of_isNumeric
            (beginsWith_isNumeric_of_isSettled hu))]

/-- Reads a number after its sign. -/
def readUnsigned (negative : Bool) (t : Text) : Except JsonError (Json × Text) :=
  match readWhole t with
  | none =>
    match Text.after? (Text.ofString "Infinity") t with
    | some rest => .ok (.float (.infinity negative), rest)
    | none => .error .malformed
  | some (whole, r) =>
    let (fraction, r) := readFraction r
    let (exponent, rest) := readExponent r
    if fraction.isEmpty && exponent.isNone then
      (readInteger negative whole).map fun v => (v, rest)
    else
      let power := exponent.getD 0 - fraction.length
      .ok (.float (Binary64.ofDecimal negative (digitsValue (whole ++ fraction)) power), rest)

/-- The value of a number with some digits before the point, others behind it and an exponent. -/
def numberOf (negative : Bool) (whole fraction : Text) (exponent : Option Int) :
    Except JsonError Json :=
  if fraction.isEmpty && exponent.isNone then readInteger negative whole
  else
    let power := exponent.getD 0 - fraction.length
    .ok (.float (Binary64.ofDecimal negative (digitsValue (whole ++ fraction)) power))

theorem isName_of_numberOf {negative : Bool} {whole fraction : Text} {exponent : Option Int}
    {v : Json} (h : numberOf negative whole fraction exponent = .ok v) : v.isName = true := by
  rw [numberOf] at h
  split at h
  · rw [readInteger] at h
    split at h
    · exact nomatch h
    · rw [← Except.ok.inj h]
      rfl
  · rw [← Except.ok.inj h]
    rfl

theorem readUnsigned_of_none {t : Text} (h : readWhole t = none) (negative : Bool) :
    readUnsigned negative t =
      match Text.after? (Text.ofString "Infinity") t with
      | some rest => .ok (.float (.infinity negative), rest)
      | none => .error .malformed := by
  rw [readUnsigned, h]

theorem readUnsigned_of_some {t whole r : Text} (h : readWhole t = some (whole, r))
    (negative : Bool) :
    readUnsigned negative t =
      (numberOf negative whole (readFraction r).1 (readExponent (readFraction r).2).1).map
        fun v => (v, (readExponent (readFraction r).2).2) := by
  rw [readUnsigned, h, numberOf]
  simp only
  split <;> rfl

theorem readNumber_cons (c : CodePoint) (t : Text) :
    readNumber (c :: t) =
      if c.val = 0x2D then readUnsigned true t else readUnsigned false (c :: t) := by
  have hafter : Text.after? (Text.ofString "-") (c :: t) = if c.val = 0x2D then some t else none :=
    after?_singleton (CodePoint.ofChar '-') c t
  rw [readNumber, hafter]
  by_cases hminus : c.val = 0x2D
  · rw [if_pos hminus, if_pos hminus]
    rfl
  · rw [if_neg hminus, if_neg hminus]
    rfl

theorem readWhole_of_beginsWith {t : Text} (h : beginsWith CodePoint.isAsciiDigit t = false) :
    readWhole t = none := by
  cases t with
  | nil => rfl
  | cons c t =>
    replace h : c.isAsciiDigit = false := h
    simp [readWhole, takeDigits, h]

theorem readUnsigned_append {negative : Bool} {t u r : Text} {v : Json}
    (h : readUnsigned negative t = .ok (v, r)) (hu : isSettled (r ++ u) = true) :
    readUnsigned negative (t ++ u) = .ok (v, r ++ u) := by
  cases hwhole : readWhole t with
  | none =>
    rw [readUnsigned_of_none hwhole] at h
    split at h
    · next rest hinfinity =>
      obtain ⟨rfl, rfl⟩ := Prod.mk.inj (Except.ok.inj h)
      obtain rfl := Text.after?_eq_some_iff.mp hinfinity
      rw [List.append_assoc, readUnsigned_of_none (readWhole_of_beginsWith (by rfl)),
        Text.after?_eq_some_iff.mpr rfl]
    · exact nomatch h
  | some p =>
    obtain ⟨whole, r₁⟩ := p
    rw [readUnsigned_of_some hwhole] at h
    obtain ⟨v, hvalue, heq⟩ := exists_of_map_eq_ok h
    obtain ⟨rfl, rfl⟩ := Prod.mk.inj heq
    -- what follows the exponent settles it, and so on from the last part to the first
    obtain ⟨hexponent, hnumeric⟩ := readExponent_append (Prod.eta _).symm hu
    obtain ⟨hfraction, hdigit⟩ := readFraction_append (Prod.eta _).symm hnumeric
    rw [readUnsigned_of_some (readWhole_append hwhole hdigit), hfraction, hexponent, hvalue]
    rfl

/-- What is read as a number is one. -/
theorem isName_of_readNumber {t r : Text} {v : Json} (h : readNumber t = .ok (v, r)) :
    v.isName = true := by
  have hunsigned : ∀ {negative : Bool} {t : Text}, readUnsigned negative t = .ok (v, r) →
      v.isName = true := by
    intro negative t h
    cases hwhole : readWhole t with
    | none =>
      rw [readUnsigned_of_none hwhole] at h
      split at h
      · rw [← (Prod.mk.inj (Except.ok.inj h)).1]
        rfl
      · exact nomatch h
    | some p =>
      rw [readUnsigned_of_some hwhole] at h
      obtain ⟨w, hvalue, heq⟩ := exists_of_map_eq_ok h
      rw [← (Prod.mk.inj heq).1]
      exact isName_of_numberOf hvalue
  cases t with
  | nil => exact nomatch h
  | cons c t =>
    rw [readNumber_cons] at h
    split at h <;> exact hunsigned h

/-- **A number is read alike in a longer text,** if what follows it ends it. -/
theorem readNumber_append {t u r : Text} {v : Json} (h : readNumber t = .ok (v, r))
    (hu : isSettled (r ++ u) = true) : readNumber (t ++ u) = .ok (v, r ++ u) := by
  cases t with
  | nil => exact nomatch h
  | cons c t =>
    rw [readNumber_cons] at h
    rw [List.cons_append, readNumber_cons]
    split at h
    · next hminus => rw [if_pos hminus, readUnsigned_append h hu]
    · next hminus => rw [if_neg hminus, ← List.cons_append, readUnsigned_append h hu]

/-! ### Strings and words -/

theorem scanString_append {state : StringState} {acc found t u r : Text}
    (h : scanString state acc t = some (found, r)) :
    scanString state acc (t ++ u) = some (found, r ++ u) := by
  fun_induction scanString state acc t <;> simp_all [scanString]

theorem readString_append {s t u r : Text} (h : readString t = some (s, r)) :
    readString (t ++ u) = some (s, r ++ u) := by
  obtain ⟨⟨found, rest⟩, hscan, heq⟩ := Option.map_eq_some_iff.mp h
  obtain ⟨rfl, rfl⟩ := Prod.mk.inj heq
  rw [readString, scanString_append hscan]
  rfl

/-- The fixed words and what they stand for. -/
def fixedWords : List (String × Json) :=
  [("null", .null), ("true", .bool true), ("false", .bool false), ("NaN", .float .nan)]

theorem readWord_of_mem {word : String} {v : Json} (h : (word, v) ∈ fixedWords) (r : Text) :
    readWord (Text.ofString word ++ r) = some (v, r) := by
  simp only [fixedWords, List.mem_cons, List.not_mem_nil, or_false, Prod.mk.injEq] at h
  obtain ⟨rfl, rfl⟩ | ⟨rfl, rfl⟩ | ⟨rfl, rfl⟩ | ⟨rfl, rfl⟩ := h <;> rfl

theorem exists_of_readWord {t r : Text} {v : Json} (h : readWord t = some (v, r)) :
    ∃ word, (word, v) ∈ fixedWords ∧ t = Text.ofString word ++ r := by
  obtain ⟨⟨word, value⟩, hmem, heq⟩ := List.exists_of_findSome?_eq_some h
  obtain ⟨rest, hrest, heq⟩ := Option.map_eq_some_iff.mp heq
  obtain ⟨rfl, rfl⟩ := Prod.mk.inj heq
  exact ⟨word, hmem, Text.after?_eq_some_iff.mp hrest⟩

theorem readWord_append {t r : Text} {v : Json} (h : readWord t = some (v, r)) (u : Text) :
    readWord (t ++ u) = some (v, r ++ u) := by
  obtain ⟨word, hmem, rfl⟩ := exists_of_readWord h
  rw [List.append_assoc, readWord_of_mem hmem]

/-- What a number can begin with. -/
def beginsNumber (c : CodePoint) : Bool := c.isAsciiDigit || c.val = 0x2D || c.val = 0x49

theorem beginsNumber_of_readNumber {c : CodePoint} {t r : Text} {v : Json}
    (h : readNumber (c :: t) = .ok (v, r)) : beginsNumber c = true := by
  rw [readNumber_cons] at h
  split at h
  · next hminus => simp [beginsNumber, hminus]
  · cases hdigit : c.isAsciiDigit with
    | true => simp [beginsNumber, hdigit]
    | false =>
      have hwhole : readWhole (c :: t) = none := readWhole_of_beginsWith hdigit
      rw [readUnsigned_of_none hwhole] at h
      split at h
      · next rest hinfinity =>
        have hc := (List.cons.inj (Text.after?_eq_some_iff.mp hinfinity)).1
        rw [hc]
        rfl
      · exact nomatch h

/-- No word begins as a number does. -/
theorem readWord_of_beginsNumber {c : CodePoint} (h : beginsNumber c = true) (t : Text) :
    readWord (c :: t) = none := by
  cases hword : readWord (c :: t) with
  | none => rfl
  | some p =>
    obtain ⟨v, r⟩ := p
    obtain ⟨word, hmem, heq⟩ := exists_of_readWord hword
    simp only [fixedWords, List.mem_cons, List.not_mem_nil, or_false, Prod.mk.injEq] at hmem
    obtain ⟨rfl, -⟩ | ⟨rfl, -⟩ | ⟨rfl, -⟩ | ⟨rfl, -⟩ := hmem <;>
      (rw [(List.cons.inj heq).1] at h; exact nomatch h)

/-! ### Values -/

theorem skipSpace_cons_append {t r : Text} {c : CodePoint} (h : skipSpace t = c :: r) (u : Text) :
    skipSpace (t ++ u) = c :: (r ++ u) := by
  rw [skipSpace_append (by rw [h]; nofun), h, List.cons_append]

/-- Reads an array after its bracket. -/
def readArray (b : Nat) : Nat → Text → Except JsonError (Json × Text)
  | 0, _ => .error .tooDeep
  | l + 1, t =>
    match skipSpace t with
    | [] => .error .malformed
    | c :: r =>
      if c.val = 0x5D then .ok (.array [], r)
      else (readItems b l (c :: r)).map fun (items, rest) => (.array items, rest)

/-- Reads an object after its brace. -/
def readObject (b : Nat) : Nat → Text → Except JsonError (Json × Text)
  | 0, _ => .error .tooDeep
  | l + 1, t =>
    match skipSpace t with
    | [] => .error .malformed
    | c :: r =>
      if c.val = 0x7D then .ok (.object [], r)
      else (readFields b l [] (c :: r)).map fun (fields, rest) => (.object fields, rest)

theorem readValue_cons (b l : Nat) (c : CodePoint) (t : Text) :
    readValue (b + 1) l (c :: t) =
      if c.val = 0x22 then
        match readString t with
        | none => .error .malformed
        | some (s, rest) => .ok (.text s, rest)
      else if c.val = 0x5B then readArray b l t
      else if c.val = 0x7B then readObject b l t
      else
        match readWord (c :: t) with
        | some found => .ok found
        | none => readNumber (c :: t) := by
  rw [readValue.eq_def]
  cases l with
  | zero => rfl
  | succ l =>
    rw [readArray, readObject]
    dsimp only
    cases skipSpace t <;> rfl

theorem readValue_bracket (b l : Nat) (t : Text) :
    readValue (b + 1) l (CodePoint.ofChar '[' :: t) = readArray b l t :=
  readValue_cons b l _ t

theorem readValue_brace (b l : Nat) (t : Text) :
    readValue (b + 1) l (CodePoint.ofChar '\x7b' :: t) = readObject b l t :=
  readValue_cons b l _ t

theorem readValue_quote {t s r : Text} (h : readString t = some (s, r)) (b l : Nat) :
    readValue (b + 1) l (CodePoint.ofChar '"' :: t) = .ok (.text s, r) := by
  refine (readValue_cons b l _ t).trans ((if_pos rfl).trans ?_)
  rw [h]

theorem ne_nil_of_readValue {b l : Nat} {t : Text} {p : Json × Text}
    (h : readValue b l t = .ok p) : t ≠ [] := by
  rintro rfl
  cases b <;> exact nomatch h

/-! ### Arrays and objects step by step -/

section

variable {b l : Nat} {t r : Text}

/-- An array that is read is empty, or its items are read. -/
theorem cases_of_readArray {v : Json} (h : readArray b l t = .ok (v, r)) :
    ∃ l', l = l' + 1 ∧
      (skipSpace t = CodePoint.ofChar ']' :: r ∧ v = .array [] ∨
        ∃ c r' items, skipSpace t = c :: r' ∧ c.val ≠ 0x5D ∧
          readItems b l' (c :: r') = .ok (items, r) ∧ v = .array items) := by
  cases l with
  | zero => exact nomatch h
  | succ l =>
    refine ⟨l, rfl, ?_⟩
    rw [readArray] at h
    cases hskip : skipSpace t with
    | nil =>
      rw [hskip] at h
      exact nomatch h
    | cons c r' =>
      rw [hskip] at h
      dsimp only at h
      split_ifs at h with hclose
      · obtain ⟨rfl, rfl⟩ := Prod.mk.inj (Except.ok.inj h)
        obtain rfl : c = CodePoint.ofChar ']' := CodePoint.eq_iff.mpr hclose
        exact Or.inl ⟨rfl, rfl⟩
      · obtain ⟨⟨items, rest⟩, hitems, h⟩ := exists_of_map_eq_ok h
        obtain ⟨rfl, rfl⟩ := Prod.mk.inj h
        exact Or.inr ⟨c, r', items, rfl, hclose, hitems, rfl⟩

theorem readArray_of_bracket (h : skipSpace t = CodePoint.ofChar ']' :: r) :
    readArray b (l + 1) t = .ok (.array [], r) := by
  rw [readArray, h]
  exact if_pos rfl

theorem readArray_of_items {c : CodePoint} (h : skipSpace t = c :: r) (hc : c.val ≠ 0x5D) :
    readArray b (l + 1) t
      = (readItems b l (c :: r)).map fun (items, rest) => (.array items, rest) := by
  rw [readArray, h]
  exact if_neg hc

/-- An object that is read is empty, or its fields are read. -/
theorem cases_of_readObject {v : Json} (h : readObject b l t = .ok (v, r)) :
    ∃ l', l = l' + 1 ∧
      (skipSpace t = CodePoint.ofChar '\x7d' :: r ∧ v = .object [] ∨
        ∃ c r' fields, skipSpace t = c :: r' ∧ c.val ≠ 0x7D ∧
          readFields b l' [] (c :: r') = .ok (fields, r) ∧ v = .object fields) := by
  cases l with
  | zero => exact nomatch h
  | succ l =>
    refine ⟨l, rfl, ?_⟩
    rw [readObject] at h
    cases hskip : skipSpace t with
    | nil =>
      rw [hskip] at h
      exact nomatch h
    | cons c r' =>
      rw [hskip] at h
      dsimp only at h
      split_ifs at h with hclose
      · obtain ⟨rfl, rfl⟩ := Prod.mk.inj (Except.ok.inj h)
        obtain rfl : c = CodePoint.ofChar '\x7d' := CodePoint.eq_iff.mpr hclose
        exact Or.inl ⟨rfl, rfl⟩
      · obtain ⟨⟨fields, rest⟩, hfields, h⟩ := exists_of_map_eq_ok h
        obtain ⟨rfl, rfl⟩ := Prod.mk.inj h
        exact Or.inr ⟨c, r', fields, rfl, hclose, hfields, rfl⟩

theorem readObject_of_brace (h : skipSpace t = CodePoint.ofChar '\x7d' :: r) :
    readObject b (l + 1) t = .ok (.object [], r) := by
  rw [readObject, h]
  exact if_pos rfl

theorem readObject_of_fields {c : CodePoint} (h : skipSpace t = c :: r) (hc : c.val ≠ 0x7D) :
    readObject b (l + 1) t
      = (readFields b l [] (c :: r)).map fun (fields, rest) => (.object fields, rest) := by
  rw [readObject, h]
  exact if_neg hc

/-- Of items that are read the first one is a value, and a comma and items follow it, or the closing
bracket does. -/
theorem cases_of_readItems {vs : List Json} (h : readItems b l t = .ok (vs, r)) :
    ∃ b' v r₁, b = b' + 1 ∧ readValue b' l t = .ok (v, r₁) ∧
      ((∃ r₂ items, skipSpace r₁ = CodePoint.ofChar ',' :: r₂ ∧
          readItems b' l (skipSpace r₂) = .ok (items, r) ∧ vs = v :: items) ∨
        skipSpace r₁ = CodePoint.ofChar ']' :: r ∧ vs = [v]) := by
  cases b with
  | zero => exact nomatch h
  | succ b =>
    rw [readItems] at h
    cases hvalue : readValue b l t with
    | error e =>
      rw [hvalue] at h
      exact nomatch h
    | ok p =>
      obtain ⟨v, r₁⟩ := p
      refine ⟨b, v, r₁, rfl, hvalue, ?_⟩
      rw [hvalue] at h
      cases hskip : skipSpace r₁ with
      | nil =>
        simp only [hskip] at h
        exact nomatch h
      | cons c r₂ =>
        simp only [hskip] at h
        split_ifs at h with hcomma hclose
        · obtain ⟨⟨items, rest⟩, hitems, h⟩ := exists_of_map_eq_ok h
          obtain ⟨rfl, rfl⟩ := Prod.mk.inj h
          obtain rfl : c = CodePoint.ofChar ',' := CodePoint.eq_iff.mpr hcomma
          exact Or.inl ⟨r₂, items, rfl, hitems, rfl⟩
        · obtain ⟨rfl, rfl⟩ := Prod.mk.inj (Except.ok.inj h)
          obtain rfl : c = CodePoint.ofChar ']' := CodePoint.eq_iff.mpr hclose
          exact Or.inr ⟨rfl, rfl⟩

theorem readItems_of_comma {v : Json} {r₁ : Text} (hvalue : readValue b l t = .ok (v, r₁))
    (hskip : skipSpace r₁ = CodePoint.ofChar ',' :: r) :
    readItems (b + 1) l t
      = (readItems b l (skipSpace r)).map fun (items, rest) => (v :: items, rest) := by
  rw [readItems, hvalue]
  simp only [hskip]
  exact if_pos rfl

theorem readItems_of_bracket {v : Json} {r₁ : Text} (hvalue : readValue b l t = .ok (v, r₁))
    (hskip : skipSpace r₁ = CodePoint.ofChar ']' :: r) :
    readItems (b + 1) l t = .ok ([v], r) := by
  rw [readItems, hvalue]
  simp only [hskip]
  exact (if_neg (by decide)).trans (if_pos rfl)

/-- Of fields that are read the first one is a key, a colon and a value, and a comma and fields
follow it, or the closing brace does. -/
theorem cases_of_readFields {acc fields : List (Text × Json)}
    (h : readFields b l acc t = .ok (fields, r)) :
    ∃ b' t' key r₁ r₂ v r₃, b = b' + 1 ∧ t = CodePoint.ofChar '"' :: t' ∧
      readString t' = some (key, r₁) ∧ skipSpace r₁ = CodePoint.ofChar ':' :: r₂ ∧
      readValue b' l (skipSpace r₂) = .ok (v, r₃) ∧
      ((∃ r₄, skipSpace r₃ = CodePoint.ofChar ',' :: r₄ ∧
          readFields b' l (insertField key v acc) (skipSpace r₄) = .ok (fields, r)) ∨
        skipSpace r₃ = CodePoint.ofChar '\x7d' :: r ∧ fields = insertField key v acc) := by
  match b, t with
  | 0, _ => exact nomatch h
  | _ + 1, [] => exact nomatch h
  | b + 1, c :: t =>
    rw [readFields] at h
    split_ifs at h with hquote
    cases hstring : readString t with
    | none =>
      rw [hstring] at h
      exact nomatch h
    | some p =>
      obtain ⟨key, r₁⟩ := p
      simp only [hstring] at h
      cases hcolon : skipSpace r₁ with
      | nil =>
        simp only [hcolon] at h
        exact nomatch h
      | cons d r₂ =>
        simp only [hcolon] at h
        split_ifs at h with hd
        cases hvalue : readValue b l (skipSpace r₂) with
        | error e =>
          simp only [hvalue] at h
          exact nomatch h
        | ok p =>
          obtain ⟨v, r₃⟩ := p
          simp only [hvalue] at h
          obtain rfl : c = CodePoint.ofChar '"' := CodePoint.eq_iff.mpr hquote
          obtain rfl : d = CodePoint.ofChar ':' := CodePoint.eq_iff.mpr hd
          refine ⟨b, t, key, r₁, r₂, v, r₃, rfl, rfl, hstring, hcolon, hvalue, ?_⟩
          cases hskip : skipSpace r₃ with
          | nil =>
            simp only [hskip] at h
            exact nomatch h
          | cons e r₄ =>
            simp only [hskip] at h
            split_ifs at h with hcomma hclose
            · obtain rfl : e = CodePoint.ofChar ',' := CodePoint.eq_iff.mpr hcomma
              exact Or.inl ⟨r₄, rfl, h⟩
            · obtain ⟨rfl, rfl⟩ := Prod.mk.inj (Except.ok.inj h)
              obtain rfl : e = CodePoint.ofChar '\x7d' := CodePoint.eq_iff.mpr hclose
              exact Or.inr ⟨rfl, rfl⟩

section

variable {acc : List (Text × Json)} {key r₁ r₂ r₃ : Text} {v : Json}
  (hkey : readString t = some (key, r₁)) (hcolon : skipSpace r₁ = CodePoint.ofChar ':' :: r₂)
  (hvalue : readValue b l (skipSpace r₂) = .ok (v, r₃))

include hkey hcolon hvalue

theorem readFields_of_comma (hskip : skipSpace r₃ = CodePoint.ofChar ',' :: r) :
    readFields (b + 1) l acc (CodePoint.ofChar '"' :: t)
      = readFields b l (insertField key v acc) (skipSpace r) := by
  rw [readFields]
  refine (if_pos rfl).trans ?_
  simp only [hkey, hcolon]
  refine (if_pos rfl).trans ?_
  simp only [hvalue, hskip]
  exact if_pos rfl

theorem readFields_of_brace (hskip : skipSpace r₃ = CodePoint.ofChar '\x7d' :: r) :
    readFields (b + 1) l acc (CodePoint.ofChar '"' :: t) = .ok (insertField key v acc, r) := by
  rw [readFields]
  refine (if_pos rfl).trans ?_
  simp only [hkey, hcolon]
  refine (if_pos rfl).trans ?_
  simp only [hvalue, hskip]
  exact (if_neg (by decide)).trans (if_pos rfl)

end

theorem ne_nil_of_readItems {p : List Json × Text} (h : readItems b l t = .ok p) : t ≠ [] := by
  obtain ⟨b', v, r₁, -, hvalue, -⟩ := cases_of_readItems h
  exact ne_nil_of_readValue hvalue

theorem ne_nil_of_readFields {acc : List (Text × Json)} {p : List (Text × Json) × Text}
    (h : readFields b l acc t = .ok p) : t ≠ [] := by
  obtain ⟨b', t', key, r₁, r₂, v, r₃, -, rfl, -⟩ := cases_of_readFields h
  nofun

end

/-! ### Longer texts -/

mutual

/-- **A value is read alike in a longer text,** if what follows it ends it where it is a number. -/
theorem readValue_append {b b' l l' : Nat} {t u r : Text} {v : Json}
    (h : readValue b l t = .ok (v, r)) (hb : b ≤ b') (hl : l ≤ l')
    (hu : v.isName = true → isSettled (r ++ u) = true) :
    readValue b' l' (t ++ u) = .ok (v, r ++ u) := by
  match b, b', t with
  | 0, _, _ => exact nomatch h
  | _ + 1, _, [] => exact nomatch h
  | b + 1, b' + 1, c :: t =>
    have hb := Nat.le_of_succ_le_succ hb
    rw [readValue_cons] at h
    rw [List.cons_append, readValue_cons]
    split_ifs at h ⊢ with hquote hbracket hbrace
    · cases hstring : readString t with
      | none =>
        rw [hstring] at h
        exact nomatch h
      | some p =>
        obtain ⟨s, rest⟩ := p
        rw [hstring] at h
        obtain ⟨rfl, rfl⟩ := Prod.mk.inj (Except.ok.inj h)
        rw [readString_append hstring]
    · exact readArray_append h hb hl
    · exact readObject_append h hb hl
    · cases hword : readWord (c :: t) with
      | some found =>
        rw [hword] at h
        obtain rfl := Except.ok.inj h
        rw [← List.cons_append, readWord_append hword]
      | none =>
        rw [hword] at h
        -- the only case in which what is read could go on
        have hname : v.isName = true := isName_of_readNumber h
        rw [← List.cons_append, readNumber_append h (hu hname), List.cons_append,
          readWord_of_beginsNumber (beginsNumber_of_readNumber h)]

theorem readArray_append {b b' l l' : Nat} {t u r : Text} {v : Json}
    (h : readArray b l t = .ok (v, r)) (hb : b ≤ b') (hl : l ≤ l') :
    readArray b' l' (t ++ u) = .ok (v, r ++ u) := by
  obtain ⟨l, rfl, hcases⟩ := cases_of_readArray h
  match l', hl with
  | l' + 1, hl =>
    have hl := Nat.le_of_succ_le_succ hl
    obtain ⟨hskip, rfl⟩ | ⟨c, r', items, hskip, hc, hitems, rfl⟩ := hcases
    · exact readArray_of_bracket (skipSpace_cons_append hskip u)
    · rw [readArray_of_items (skipSpace_cons_append hskip u) hc, ← List.cons_append,
        readItems_append hitems hb hl]
      rfl

theorem readObject_append {b b' l l' : Nat} {t u r : Text} {v : Json}
    (h : readObject b l t = .ok (v, r)) (hb : b ≤ b') (hl : l ≤ l') :
    readObject b' l' (t ++ u) = .ok (v, r ++ u) := by
  obtain ⟨l, rfl, hcases⟩ := cases_of_readObject h
  match l', hl with
  | l' + 1, hl =>
    have hl := Nat.le_of_succ_le_succ hl
    obtain ⟨hskip, rfl⟩ | ⟨c, r', fields, hskip, hc, hfields, rfl⟩ := hcases
    · exact readObject_of_brace (skipSpace_cons_append hskip u)
    · rw [readObject_of_fields (skipSpace_cons_append hskip u) hc, ← List.cons_append,
        readFields_append hfields hb hl]
      rfl

theorem readItems_append {b b' l l' : Nat} {t u r : Text} {vs : List Json}
    (h : readItems b l t = .ok (vs, r)) (hb : b ≤ b') (hl : l ≤ l') :
    readItems b' l' (t ++ u) = .ok (vs, r ++ u) := by
  match b, b' with
  | 0, _ => exact nomatch h
  | b + 1, b' + 1 =>
    have hb := Nat.le_of_succ_le_succ hb
    obtain ⟨_, v, r₁, heq, hvalue, hnext⟩ := cases_of_readItems h
    obtain rfl := Nat.succ.inj heq
    obtain ⟨r₂, items, hskip, hitems, rfl⟩ | ⟨hskip, rfl⟩ := hnext
    · have hvalue' := readValue_append hvalue hb hl fun _ => isSettled_of_skipSpace hskip rfl u
      rw [readItems_of_comma hvalue' (skipSpace_cons_append hskip u),
        skipSpace_append (ne_nil_of_readItems hitems), readItems_append hitems hb hl]
      rfl
    · have hvalue' := readValue_append hvalue hb hl fun _ => isSettled_of_skipSpace hskip rfl u
      exact readItems_of_bracket hvalue' (skipSpace_cons_append hskip u)

theorem readFields_append {b b' l l' : Nat} {acc fields : List (Text × Json)} {t u r : Text}
    (h : readFields b l acc t = .ok (fields, r)) (hb : b ≤ b') (hl : l ≤ l') :
    readFields b' l' acc (t ++ u) = .ok (fields, r ++ u) := by
  match b, b' with
  | 0, _ => exact nomatch h
  | b + 1, b' + 1 =>
    have hb := Nat.le_of_succ_le_succ hb
    obtain ⟨_, t, key, r₁, r₂, v, r₃, heq, rfl, hkey, hcolon, hvalue, hnext⟩ :=
      cases_of_readFields h
    obtain rfl := Nat.succ.inj heq
    have hkey' := readString_append (u := u) hkey
    have hcolon' := skipSpace_cons_append hcolon u
    have hspace := skipSpace_append (ne_nil_of_readValue hvalue) u
    obtain ⟨r₄, hskip, hfields⟩ | ⟨hskip, rfl⟩ := hnext
    · have hvalue' := readValue_append hvalue hb hl fun _ => isSettled_of_skipSpace hskip rfl u
      rw [← hspace] at hvalue'
      rw [List.cons_append,
        readFields_of_comma hkey' hcolon' hvalue' (skipSpace_cons_append hskip u),
        skipSpace_append (ne_nil_of_readFields hfields), readFields_append hfields hb hl]
    · have hvalue' := readValue_append hvalue hb hl fun _ => isSettled_of_skipSpace hskip rfl u
      rw [← hspace] at hvalue'
      exact readFields_of_brace hkey' hcolon' hvalue' (skipSpace_cons_append hskip u)

end

end Json

end MarkupGrammar
