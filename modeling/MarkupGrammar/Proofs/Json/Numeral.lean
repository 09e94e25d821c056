import MarkupGrammar.Json.Printer
import MarkupGrammar.Proofs.Json.Object
import MarkupGrammar.Proofs.Json.Reader

/-!
# Words and numerals

Words and numbers are written bare: no quote, bracket, separator or space stands in them. Whatever
the reader takes for a word or a number is bare as well. So it does not take more than was written,
and when it takes less, what is left begins with a code point that nothing can follow a value with.
This is so for every double, and says nothing about which double is read.

An integer is read back as it was written, if it is not too long.

## Main results

* `Json.passes_of_readNumber`, `Json.passes_of_readWord` — what is taken is bare
* `Json.Passes.eq_or_not_isSettled` — how much of a bare text is taken
* `Json.isBare_of_mem_render` — the numeral of a double is bare
* `Json.readNumber_ofInt` — an integer is read back
-/

namespace MarkupGrammar

theorem Text.ofString_ofList (cs : List Char) :
    Text.ofString (String.ofList cs) = cs.map CodePoint.ofChar := by
  rw [Text.ofString, String.toList_ofList]

theorem CodePoint.isAsciiDigit_ofChar {c : Char} (h : c.isDigit = true) :
    (CodePoint.ofChar c).isAsciiDigit = true := by
  simp only [Char.isDigit, Bool.and_eq_true, decide_eq_true_eq] at h
  rw [CodePoint.isAsciiDigit, Bool.and_eq_true]
  exact ⟨decide_eq_true (UInt32.le_iff_toNat_le.mp h.1),
    decide_eq_true (UInt32.le_iff_toNat_le.mp h.2)⟩

theorem CodePoint.eq_zero_of_val {c : Char} (h : (CodePoint.ofChar c).val = 0x30) : c = '0' :=
  Char.toNat_inj.mp h

namespace Json

/-! ### Bare text -/

/-- Whether a code point can stand in a word or a number. -/
def isBare (c : CodePoint) : Bool :=
  !(endsNumber c || c.val = 0x22 || c.val = 0x5B || c.val = 0x7B)

theorem endsNumber_of_isBare {c : CodePoint} (h : isBare c = true) : endsNumber c = false := by
  rw [isBare, Bool.not_eq_true', Bool.or_eq_false_iff, Bool.or_eq_false_iff,
    Bool.or_eq_false_iff] at h
  exact h.1.1.1

theorem isBare_of_isAsciiDigit {c : CodePoint} (h : c.isAsciiDigit = true) : isBare c = true := by
  simp only [CodePoint.isAsciiDigit, Bool.and_eq_true, decide_eq_true_eq] at h
  simp only [isBare, endsNumber, isSpace, Bool.not_eq_true', Bool.or_eq_false_iff,
    decide_eq_false_iff_not]
  omega

theorem isBare_of_marksExponent {c : CodePoint} (h : marksExponent c = true) :
    isBare c = true := by
  simp only [marksExponent, Bool.or_eq_true, decide_eq_true_eq] at h
  simp only [isBare, endsNumber, isSpace, Bool.not_eq_true', Bool.or_eq_false_iff,
    decide_eq_false_iff_not]
  omega

/-- Whether one text is left of another when something bare is taken. -/
def Passes (t r : Text) : Prop := ∃ w, t = w ++ r ∧ ∀ c ∈ w, isBare c = true

theorem Passes.refl (t : Text) : Passes t t := ⟨[], rfl, nofun⟩

theorem passes_append {w : Text} (h : ∀ c ∈ w, isBare c = true) (r : Text) : Passes (w ++ r) r :=
  ⟨w, rfl, h⟩

theorem Passes.trans {t u r : Text} (htu : Passes t u) (hur : Passes u r) : Passes t r := by
  obtain ⟨w, rfl, hw⟩ := htu
  obtain ⟨w', rfl, hw'⟩ := hur
  exact ⟨w ++ w', by rw [List.append_assoc], List.forall_mem_append.mpr ⟨hw, hw'⟩⟩

theorem Passes.cons {c : CodePoint} {t r : Text} (hc : isBare c = true) (h : Passes t r) :
    Passes (c :: t) r :=
  (passes_append (List.forall_mem_singleton.mpr hc) t).trans h

/-- **How much of a bare text is taken.** If what follows it settles the matter, either all of it is
taken and no more, or nothing is settled yet. -/
theorem Passes.eq_or_not_isSettled {w rest r : Text} (h : Passes (w ++ rest) r)
    (hw : ∀ c ∈ w, isBare c = true) (hrest : isSettled rest = true) :
    r = rest ∨ isSettled r = false := by
  obtain ⟨taken, heq, htaken⟩ := h
  obtain ⟨left, rfl, rfl⟩ | ⟨more, rfl, rfl⟩ := List.append_eq_append_iff.mp heq
  · cases left with
    | nil => exact Or.inl rfl
    | cons c left =>
      rw [List.cons_append, isSettled_cons, endsNumber_of_isBare
        (htaken c (List.mem_append_right _ List.mem_cons_self))] at hrest
      cases hrest
  · cases more with
    | nil => exact Or.inl rfl
    | cons c more =>
      refine Or.inr ?_
      rw [List.cons_append, isSettled_cons]
      exact endsNumber_of_isBare (hw c (List.mem_append_right _ List.mem_cons_self))

/-! ### What the reader takes -/

theorem takeDigits_eq (t : Text) :
    (takeDigits t).1 ++ (takeDigits t).2 = t ∧ ∀ c ∈ (takeDigits t).1, c.isAsciiDigit = true :=
  ⟨List.takeWhile_append_dropWhile, fun _ hc => List.mem_takeWhile_imp hc⟩

theorem passes_takeDigits (t : Text) : Passes t (takeDigits t).2 := by
  obtain ⟨heq, hdigits⟩ := takeDigits_eq t
  exact ⟨_, heq.symm, fun c hc => isBare_of_isAsciiDigit (hdigits c hc)⟩

theorem passes_of_readWhole {t w r : Text} (h : readWhole t = some (w, r)) : Passes t r := by
  obtain ⟨heq, hdigits⟩ := takeDigits_eq t
  rw [readWhole] at h
  cases htaken : takeDigits t with
  | mk digits rest =>
    rw [htaken] at h heq hdigits
    cases digits with
    | nil => cases h
    | cons d ds =>
      have hd := isBare_of_isAsciiDigit (hdigits d List.mem_cons_self)
      simp only at h heq
      split at h
      · obtain ⟨-, rfl⟩ := Prod.mk.inj (Option.some.inj h)
        rw [← heq]
        exact (Passes.refl _).cons hd
      · obtain ⟨-, rfl⟩ := Prod.mk.inj (Option.some.inj h)
        rw [← heq]
        exact passes_append (fun c hc => isBare_of_isAsciiDigit (hdigits c hc)) _

theorem passes_of_readFraction {t f r : Text} (h : readFraction t = (f, r)) : Passes t r := by
  have hnone : t = r → Passes t r := by
    rintro rfl
    exact .refl t
  cases t with
  | nil => exact hnone (Prod.mk.inj h).2
  | cons c t =>
    rw [readFraction, after?_point] at h
    split at h
    · exact hnone (Prod.mk.inj h).2
    · next r' hpoint =>
      split at hpoint
      · next hc =>
        obtain rfl := Option.some.inj hpoint
        have hdigits := passes_takeDigits t
        split at h
        · exact hnone (Prod.mk.inj h).2
        · next digits rest _ htaken =>
          obtain ⟨-, rfl⟩ := Prod.mk.inj h
          rw [htaken] at hdigits
          exact hdigits.cons (by simp [isBare, endsNumber, isSpace, hc])
      · cases hpoint

theorem passes_readSign (t : Text) : Passes t (readSign t).2 := by
  cases t with
  | nil => exact .refl _
  | cons s t =>
    rw [readSign]
    split
    · next hs => exact (Passes.refl t).cons (by simp [isBare, endsNumber, isSpace, hs])
    · split
      · next hs => exact (Passes.refl t).cons (by simp [isBare, endsNumber, isSpace, hs])
      · exact .refl _

theorem passes_of_readExponent {t r : Text} {x : Option Int} (h : readExponent t = (x, r)) :
    Passes t r := by
  have hnone : t = r → Passes t r := by
    rintro rfl
    exact .refl t
  cases t with
  | nil => exact hnone (Prod.mk.inj h).2
  | cons c t =>
    cases hc : marksExponent c with
    | false =>
      rw [readExponent_of_not_marksExponent hc] at h
      exact hnone (Prod.mk.inj h).2
    | true =>
      rw [readExponent_of_marksExponent hc] at h
      have hdigits := passes_takeDigits (readSign t).2
      split at h
      · exact hnone (Prod.mk.inj h).2
      · next digits rest _ htaken =>
        obtain ⟨-, rfl⟩ := Prod.mk.inj h
        rw [htaken] at hdigits
        exact ((passes_readSign t).trans hdigits).cons (isBare_of_marksExponent hc)

theorem isBare_infinity : ∀ c ∈ Text.ofString "Infinity", isBare c = true := by decide

theorem passes_of_readUnsigned {negative : Bool} {t r : Text} {v : Json}
    (h : readUnsigned negative t = .ok (v, r)) : Passes t r := by
  cases hwhole : readWhole t with
  | none =>
    rw [readUnsigned_of_none hwhole] at h
    split at h
    · next rest hinfinity =>
      obtain rfl := (Prod.mk.inj (Except.ok.inj h)).2
      rw [Text.after?_eq_some_iff.mp hinfinity]
      exact passes_append isBare_infinity _
    · cases h
  | some p =>
    rw [readUnsigned_of_some hwhole] at h
    obtain ⟨w, -, heq⟩ := exists_of_map_eq_ok h
    rw [← (Prod.mk.inj heq).2]
    exact (passes_of_readWhole hwhole).trans
      ((passes_of_readFraction rfl).trans (passes_of_readExponent rfl))

/-- What is taken for a number is bare. -/
theorem passes_of_readNumber {t r : Text} {v : Json} (h : readNumber t = .ok (v, r)) :
    Passes t r := by
  cases t with
  | nil => exact nomatch h
  | cons c t =>
    rw [readNumber_cons] at h
    split at h
    · next hminus =>
      exact (passes_of_readUnsigned h).cons (by simp [isBare, endsNumber, isSpace, hminus])
    · exact passes_of_readUnsigned h

theorem isBare_of_mem_fixedWords :
    ∀ e ∈ fixedWords, ∀ c ∈ Text.ofString e.1, isBare c = true := by
  simp only [fixedWords, List.forall_mem_cons]
  decide

/-- What is taken for a word is bare. -/
theorem passes_of_readWord {t r : Text} {v : Json} (h : readWord t = some (v, r)) :
    Passes t r := by
  obtain ⟨word, hmem, rfl⟩ := exists_of_readWord h
  exact passes_append (isBare_of_mem_fixedWords _ hmem) r

/-! ### Doubles -/

theorem isBare_ofChar {c : Char} (h : c.isDigit = true) : isBare (CodePoint.ofChar c) = true :=
  isBare_of_isAsciiDigit (CodePoint.isAsciiDigit_ofChar h)

theorem isBare_of_mem_write (layout : Binary64.Layout) {digits : List Char}
    (h : ∀ c ∈ digits, c.isDigit = true) (top : Int) :
    ∀ c ∈ (layout.write digits top).toList, isBare (CodePoint.ofChar c) = true := by
  have hdigits : ∀ c ∈ digits, isBare (CodePoint.ofChar c) = true := fun c hc =>
    isBare_ofChar (h c hc)
  have hzeros : ∀ n, ∀ c ∈ List.replicate n '0', isBare (CodePoint.ofChar c) = true := by
    intro n c hc
    rw [List.eq_of_mem_replicate hc]
    rfl
  have hzero : ∀ c ∈ "0.".toList, isBare (CodePoint.ofChar c) = true := List.all_eq_true.mp rfl
  have hpoint : ∀ c ∈ ".".toList, isBare (CodePoint.ofChar c) = true := List.all_eq_true.mp rfl
  have hmark : ∀ c ∈ "e".toList, isBare (CodePoint.ofChar c) = true := List.all_eq_true.mp rfl
  unfold Binary64.Layout.write
  split
  · split
    · simp only [String.toList_append, String.toList_ofList, List.forall_mem_append]
      exact ⟨hzero, hzeros _, hdigits⟩
    · simp only [String.toList_append, String.toList_ofList, List.forall_mem_append]
      refine ⟨⟨⟨fun c hc => hdigits c (List.mem_of_mem_take hc), hzeros _⟩, hpoint⟩, ?_⟩
      split
      · exact List.all_eq_true.mp rfl
      · rw [String.toList_ofList]
        exact fun c hc => hdigits c (List.mem_of_mem_drop hc)
  · simp only [String.toList_append, String.toList_ofList, List.forall_mem_append]
    refine ⟨⟨⟨?_, hmark⟩, ?_⟩, hzeros _, fun c hc => isBare_ofChar
      (Nat.isDigit_of_mem_toDigits (by decide) (by decide) hc)⟩
    · split
      · exact List.all_eq_true.mp rfl
      · rwa [String.toList_ofList]
      · rw [List.forall_mem_cons] at hdigits
        simp only [String.toList_append, String.toList_ofList, List.forall_mem_append]
        exact ⟨⟨List.forall_mem_singleton.mpr hdigits.1, hpoint⟩, hdigits.2⟩
    · split <;> exact List.all_eq_true.mp rfl

theorem isDigit_of_mem_stripZeros {digits : List Char} (h : ∀ c ∈ digits, c.isDigit = true) :
    ∀ c ∈ Binary64.stripZeros digits, c.isDigit = true := by
  rw [Binary64.stripZeros]
  split
  · exact List.forall_mem_singleton.mpr rfl
  · intro c hc
    exact h c (List.mem_reverse.mp ((List.dropWhile_suffix _).subset (List.mem_reverse.mp hc)))

/-- **The numeral of a double is bare.** -/
theorem isBare_of_mem_render (x : Binary64) :
    ∀ c ∈ Binary64.jsonLayout.render x, isBare c = true := by
  have hsign : ∀ negative : Bool,
      ∀ c ∈ (if negative then "-" else "").toList, isBare (CodePoint.ofChar c) = true := by
    intro negative
    cases negative <;> exact List.all_eq_true.mp rfl
  cases x with
  | nan => decide
  | infinity negative => cases negative <;> decide
  | finite negative m e =>
    rw [Binary64.Layout.render]
    split
    · cases negative <;> decide
    · simp only [Text.ofString, List.forall_mem_map, String.toList_append, List.forall_mem_append]
      refine ⟨hsign negative, isBare_of_mem_write _ (isDigit_of_mem_stripZeros fun c hc => ?_) _⟩
      exact Nat.isDigit_of_mem_toDigits (by decide) (by decide) hc

theorem write_ne_empty (layout : Binary64.Layout) (digits : List Char) (top : Int) :
    layout.write digits top ≠ "" := by
  unfold Binary64.Layout.write
  split
  · split <;> simp
  · simp

theorem render_ne_nil (x : Binary64) : Binary64.jsonLayout.render x ≠ [] := by
  cases x with
  | nan => decide
  | infinity negative => cases negative <;> decide
  | finite negative m e =>
    rw [Binary64.Layout.render]
    split
    · cases negative <;> decide
    · simp [Text.ofString, write_ne_empty]

/-! ### Digits -/

/-- The digits of a number before the point: there is one, and a zero comes first only alone. -/
structure IsWhole (w : Text) : Prop where
  ne_nil : w ≠ []
  digits : ∀ c ∈ w, c.isAsciiDigit = true
  leading : ∀ c ∈ w.head?, c.val = 0x30 → w.length = 1

theorem takeDigits_of_digits {ds r : Text} (h : ∀ c ∈ ds, c.isAsciiDigit = true)
    (hr : beginsWith CodePoint.isAsciiDigit r = false) : takeDigits (ds ++ r) = (ds, r) := by
  have hds : takeDigits ds = (ds, []) := by
    rw [takeDigits, List.takeWhile_eq_self_iff.mpr h, List.dropWhile_eq_nil_iff.mpr h]
  have happend := takeDigits_append (t := ds) (u := r)
  rw [hds] at happend
  exact happend hr

theorem readWhole_of_isWhole {w r : Text} (h : IsWhole w)
    (hr : beginsWith CodePoint.isAsciiDigit r = false) : readWhole (w ++ r) = some (w, r) := by
  rw [readWhole, takeDigits_of_digits h.digits hr]
  cases w with
  | nil => exact absurd rfl h.ne_nil
  | cons d ds =>
    simp only
    split
    · next hzero =>
      have hlength := h.leading d rfl hzero
      obtain rfl : ds = [] := List.length_eq_zero_iff.mp (Nat.succ.inj hlength)
      rfl
    · rfl

theorem isAsciiDigit_of_mem_toDigits {n : Nat} :
    ∀ c ∈ (Nat.toDigits 10 n).map CodePoint.ofChar, c.isAsciiDigit = true := by
  intro c hc
  obtain ⟨d, hd, rfl⟩ := List.mem_map.mp hc
  exact CodePoint.isAsciiDigit_ofChar
    (Nat.isDigit_of_mem_toDigits (by decide) (by decide) hd)

/-- The numeral of a positive number does not begin with a zero. -/
theorem head_toDigits_ne {n : Nat} (h : n ≠ 0) : (Nat.toDigits 10 n).head? ≠ some '0' := by
  induction n using Nat.strong_induction_on with
  | _ n ih =>
    rw [Nat.toDigits_eq_if (by decide)]
    split
    · next hlt =>
      have hchar : ∀ k < 10, k ≠ 0 → k.digitChar ≠ '0' := by decide
      exact fun heq => hchar n hlt h (Option.some.inj heq)
    · next hle =>
      have hdiv : n / 10 ≠ 0 := by omega
      have hhead := ih (n / 10) (by omega) hdiv
      obtain ⟨d, ds, hds⟩ :=
        List.exists_cons_of_ne_nil (Nat.toDigits_ne_nil (n := n / 10) (b := 10))
      rw [hds] at hhead ⊢
      exact hhead

theorem isWhole_ofNat (n : Nat) : IsWhole (Text.ofNat n) where
  ne_nil := by simp [Text.ofNat]
  digits := isAsciiDigit_of_mem_toDigits
  leading := by
    intro c hc hzero
    by_cases hn : n = 0
    · rw [hn]
      rfl
    · rw [Text.ofNat, List.head?_map] at hc
      obtain ⟨d, hd, rfl⟩ := Option.map_eq_some_iff.mp hc
      rw [CodePoint.eq_zero_of_val hzero] at hd
      exact absurd hd (head_toDigits_ne hn)

theorem digitsValue_ofNat (n : Nat) : digitsValue (Text.ofNat n) = n := by
  rw [digitsValue, Text.ofNat, List.foldl_map]
  exact Nat.ofDigitChars_ten_toDigits

/-! ### Signs -/

theorem readNumber_minus (t : Text) :
    readNumber (Text.ofString "-" ++ t) = readUnsigned true t := by
  refine (readNumber_cons (CodePoint.ofChar '-') t).trans ?_
  exact if_pos rfl

theorem readNumber_of_isWhole {w : Text} (h : IsWhole w) (r : Text) :
    readNumber (w ++ r) = readUnsigned false (w ++ r) := by
  cases w with
  | nil => exact absurd rfl h.ne_nil
  | cons d ds =>
    have hd := h.digits d List.mem_cons_self
    rw [List.cons_append, readNumber_cons, if_neg]
    intro hminus
    rw [CodePoint.isAsciiDigit, hminus] at hd
    cases hd

/-! ### Integers -/

theorem readUnsigned_ofNat (negative : Bool) (n : Nat) {r : Text} (hr : isSettled r = true) :
    readUnsigned negative (Text.ofNat n ++ r) =
      (readInteger negative (Text.ofNat n)).map fun v => (v, r) := by
  have hnumeric := beginsWith_isNumeric_of_isSettled hr
  rw [readUnsigned_of_some (readWhole_of_isWhole (isWhole_ofNat n)
      (beginsWith_isAsciiDigit_of_isNumeric hnumeric)),
    readFraction_of_beginsWith hnumeric, readExponent_of_isSettled hr]
  rfl

/-- **An integer's numeral is read as the integer,** if it is not too long. -/
theorem readNumber_ofInt (i : Int) {r : Text} (hr : isSettled r = true) :
    readNumber (Text.ofInt i ++ r) =
      if Text.Numeral.longest < (Text.ofNat i.natAbs).length then
        .error (.longNumeral (Text.ofNat i.natAbs))
      else .ok (.int i, r) := by
  cases i with
  | ofNat n =>
    rw [Text.ofInt, readNumber_of_isWhole (isWhole_ofNat n), readUnsigned_ofNat false n hr,
      readInteger, digitsValue_ofNat, Int.natAbs_ofNat']
    split <;> rfl
  | negSucc n =>
    rw [Text.ofInt, List.append_assoc, readNumber_minus, readUnsigned_ofNat true (n + 1) hr,
      readInteger, digitsValue_ofNat, Int.natAbs_negSucc]
    split <;> rfl

end Json

end MarkupGrammar
