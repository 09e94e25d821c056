import MarkupGrammar.Proofs.Grammar.Table

/-!
# Sameness of names

A JSON value that is neither an array nor an object can be a name. Two names are the same when they
count as the same integer, or else when they are equal: `1`, `1.0` and `true` are one name. So
sameness is equality of what identifies a name, and with it an equivalence, which it is not on
objects that have a key twice.

A table whose keys are names is then a map from names up to sameness. Writing a name changes what is
found under the same names and nothing else.

## Main results

* `Json.beq_iff_of_isName` — names are the same when the same identifies them
* `Table.find?_insert_of_areNames` — what is found after an entry has been written
-/

namespace MarkupGrammar

/-! ### Names -/

theorem Binary64.same_iff {x y : Binary64} (hx : x.toInt? = none) : x.same y = true ↔ x = y := by
  cases x with
  | nan => cases y <;> simp [same]
  | infinity s => cases y <;> simp [same]
  | finite s m e =>
    have hm : m ≠ 0 := by
      rintro rfl
      have hzero : (quotient 0 e).1 = 0 := by
        rw [quotient]
        split
        · exact Nat.zero_mul _
        · rfl
      simp [toInt?, hzero] at hx
    cases y with
    | finite s' m' e' => simp [same, hm, and_assoc]
    | _ => simp [same]

namespace Json

/-- What identifies a name: the integer that it counts as, and else the name itself. -/
def identity (v : Json) : Int ⊕ Json :=
  match v.toInt? with
  | some i => .inl i
  | none => .inr v

theorem sameScalar_iff {a b : Json} (ha : a.isName = true) (hb : b.isName = true) :
    sameScalar a b = true ↔ a.identity = b.identity := by
  unfold sameScalar identity
  cases hi : a.toInt? with
  | some i => cases hj : b.toInt? <;> simp
  | none =>
    cases hj : b.toInt? with
    | some j => simp
    | none =>
      simp only [Sum.inr.injEq]
      cases a with
      | null => cases b <;> simp_all [toInt?, isName]
      | text s => cases b <;> simp_all [toInt?, isName]
      | float x => cases b <;> simp_all [toInt?, isName, Binary64.same_iff]
      | bool _ | int _ => cases hi
      | array _ | object _ => cases ha

/-- A name is compared as a scalar, whatever the other value is. -/
theorem same_eq_sameScalar {a : Json} (ha : a.isName = true) (b : Json) :
    same a b = sameScalar a b := by
  cases a with
  | array _ => exact nomatch ha
  | object _ => exact nomatch ha
  | _ => rw [same] <;> simp

/-- **Names are the same when the same identifies them.** -/
theorem beq_iff_of_isName {a b : Json} (ha : a.isName = true) (hb : b.isName = true) :
    (a == b) = true ↔ a.identity = b.identity := by
  rw [← sameScalar_iff ha hb, ← same_eq_sameScalar ha b]
  rfl

/-- What is the same as a name is a name. -/
theorem isName_of_beq {a b : Json} (hb : b.isName = true) (h : (a == b) = true) :
    a.isName = true := by
  replace h : same a b = true := h
  cases a with
  | array items => cases b <;> simp_all [same, isName]
  | object fields => cases b <;> simp_all [same, isName]
  | _ => rfl

theorem beq_self_of_isName {a : Json} (ha : a.isName = true) : (a == a) = true :=
  (beq_iff_of_isName ha ha).mpr rfl

/-- The same names are the same as the same names. -/
theorem beq_congr_of_isName {a b c : Json} (ha : a.isName = true) (hb : b.isName = true)
    (hc : c.isName = true) (h : (a == b) = true) : (a == c) = (b == c) := by
  rw [Bool.eq_iff_iff, beq_iff_of_isName ha hc, beq_iff_of_isName hb hc,
    (beq_iff_of_isName ha hb).mp h]

theorem beq_comm_of_isName {a b : Json} (ha : a.isName = true) (hb : b.isName = true) :
    (a == b) = (b == a) := by
  rw [Bool.eq_iff_iff, beq_iff_of_isName ha hb, beq_iff_of_isName hb ha, eq_comm]

/-- What a name is the same as is a name. -/
theorem isName_of_beq_right {a b : Json} (ha : a.isName = true) (h : (a == b) = true) :
    b.isName = true := by
  replace h : sameScalar a b = true := (same_eq_sameScalar ha b).symm.trans h
  unfold sameScalar at h
  cases b with
  | array _ | object _ => cases hi : a.toInt? <;> cases a <;> simp_all [toInt?]
  | _ => rfl

/-- The same names are among the same values. -/
theorem elem_congr_of_isName {a b : Json} (hb : b.isName = true) (h : (a == b) = true)
    (vs : List Json) : vs.elem a = vs.elem b := by
  have ha := isName_of_beq hb h
  induction vs with
  | nil => rfl
  | cons v vs ih =>
    have hv : (a == v) = (b == v) := by
      cases hname : v.isName with
      | true => exact beq_congr_of_isName ha hb hname h
      | false =>
        have hne {c : Json} (hc : c.isName = true) : (c == v) = false :=
          Bool.eq_false_iff.mpr fun hbeq =>
            Bool.eq_false_iff.mp hname (isName_of_beq_right hc hbeq)
        rw [hne ha, hne hb]
    rw [List.elem_cons, List.elem_cons, hv, ih]

/-- Removing repetitions keeps every name, or one that is the same. -/
theorem exists_beq_mem_eraseDups {n : Json} : ∀ {names : List Json},
    (∀ m ∈ names, m.isName = true) → n ∈ names → ∃ m ∈ names.eraseDups, (m == n) = true
  | [], _, hn => nomatch hn
  | m :: names, hnames, hn => by
    have : (names.filter fun k => !k == m).length < names.length + 1 :=
      Nat.lt_succ_of_le (List.length_filter_le _ _)
    obtain ⟨hm, hnames⟩ := List.forall_mem_cons.mp hnames
    rw [List.eraseDups_cons]
    by_cases hbeq : (m == n) = true
    · exact ⟨m, List.mem_cons_self, hbeq⟩
    · have hmem : n ∈ names := by
        refine (List.mem_cons.mp hn).resolve_left ?_
        rintro rfl
        exact hbeq (beq_self_of_isName hm)
      rw [beq_comm_of_isName hm (hnames n hmem)] at hbeq
      have hkept : n ∈ names.filter fun k => !k == m :=
        List.mem_filter.mpr ⟨hmem, by simpa using hbeq⟩
      obtain ⟨k, hk, hkn⟩ := exists_beq_mem_eraseDups
        (fun k hk => hnames k (List.mem_filter.mp hk).1) hkept
      exact ⟨k, List.mem_cons_of_mem m hk, hkn⟩
termination_by names => names.length

end Json

/-! ### Tables -/

namespace Table

variable {Key Value : Type} [BEq Key]

/-- What holds of all entries holds of them after one has been written, if it holds of the new value
under its own key and under the key that was there for it. -/
theorem forall_mem_insert {p : Key × Value → Prop} {t : Table Key Value} {key : Key} {value : Value}
    (h : ∀ e ∈ t, p e) (hkey : p (key, value))
    (hthere : ∀ e ∈ t, (e.1 == key) = true → p (e.1, value)) : ∀ e ∈ t.insert key value, p e := by
  induction t with
  | nil => exact fun e he => List.mem_singleton.mp he ▸ hkey
  | cons f t ih =>
    obtain ⟨hf, ht⟩ := List.forall_mem_cons.mp h
    obtain ⟨hfthere, htthere⟩ := List.forall_mem_cons.mp hthere
    rw [insert]
    split
    · next hbeq => exact List.forall_mem_cons.mpr ⟨hfthere hbeq, ht⟩
    · exact List.forall_mem_cons.mpr ⟨hf, ih ht htthere⟩

/-- What holds of all entries holds of the table that results when they are written. -/
theorem forall_mem_ofEntries {p : Key × Value → Prop} {entries : List (Key × Value)}
    (h : ∀ e ∈ entries, p e)
    (hover : ∀ e ∈ entries, ∀ f, p f → (f.1 == e.1) = true → p (f.1, e.2)) :
    ∀ e ∈ ofEntries entries, p e := by
  have hkeeps : ∀ (left : List (Key × Value)) (written : Table Key Value),
      (∀ e ∈ left, e ∈ entries) → (∀ e ∈ written, p e) →
      ∀ e ∈ left.foldl (fun t (f : Key × Value) => t.insert f.1 f.2) written, p e := by
    intro left
    induction left with
    | nil => exact fun written _ hwritten => hwritten
    | cons f left ih =>
      intro written hleft hwritten
      obtain ⟨hf, hleft⟩ := List.forall_mem_cons.mp hleft
      exact ih _ hleft <| forall_mem_insert hwritten (h f hf) fun e he =>
        hover f hf e (hwritten e he)
  exact hkeeps entries [] (fun e he => he) fun e he => nomatch he

/-- What is found among the entries that a filter on keys keeps, if it treats the same keys
alike. -/
theorem find?_filter_of_congr (t : Table Key Value) {keep : Key → Bool} {key : Key}
    (hkeep : ∀ k, (k == key) = true → keep k = keep key) :
    find? key (t.filter fun e => keep e.1) = if keep key then find? key t else none := by
  induction t with
  | nil => simp [find?]
  | cons e t ih =>
    obtain ⟨k, v⟩ := e
    rw [List.filter_cons]
    by_cases hk : (k == key) = true
    · by_cases hkept : keep key = true
      · simp [find?, hk, hkeep k hk, hkept]
      · simp [hkeep k hk, hkept, ih]
    · by_cases hkept : keep k = true <;> simp [find?, hk, hkept, ih]

/-- What is found after an entry has been written, where the test of keys is as good as equality for
the two keys in question. -/
theorem find?_insert {t : Table Key Value} {key other : Key} (value : Value)
    (hsame : ∀ e ∈ t, (e.1 == key) = true → (e.1 == other) = (key == other))
    (hfound : ∀ e ∈ t, (key == other) = true → (e.1 == other) = true → (e.1 == key) = true) :
    (t.insert key value).find? other = if key == other then some value else t.find? other := by
  induction t with
  | nil => rfl
  | cons e t ih =>
    obtain ⟨k, w⟩ := e
    obtain ⟨hk, hsame⟩ := List.forall_mem_cons.mp hsame
    obtain ⟨hk', hfound⟩ := List.forall_mem_cons.mp hfound
    rw [insert]
    by_cases hkey : (k == key) = true
    · rw [if_pos hkey, find?, find?, hk hkey]
      split <;> rfl
    · rw [if_neg hkey, find?, find?, ih hsame hfound]
      by_cases hother : (k == other) = true
      · have hne : ¬ (key == other) = true := fun h => hkey (hk' h hother)
        rw [if_pos hother, if_pos hother, if_neg hne]
      · rw [if_neg hother, if_neg hother]

theorem find?_insert_of_lawful [LawfulBEq Key] (t : Table Key Value) (key other : Key)
    (value : Value) :
    (t.insert key value).find? other = if key == other then some value else t.find? other :=
  find?_insert value (fun _ _ h => by rw [eq_of_beq h])
    fun _ _ hkey hother => by rw [eq_of_beq hkey, hother]

/-- **Taking a name out of a dictionary.** The value is the one that is looked up, and what is left
are the entries under other names. -/
theorem take?_of_isName {t : Table Json Value} (ht : t.Distinct) {key : Json}
    (hkey : key.isName = true) :
    t.take? key = (t.find? key).map fun v => (v, t.filter fun e => !(e.1 == key)) := by
  induction t with
  | nil => rfl
  | cons e t ih =>
    obtain ⟨k, v⟩ := e
    obtain ⟨hhead, htail⟩ := List.pairwise_cons.mp ht
    by_cases hk : (k == key) = true
    · have hrest : t.filter (fun e => !(e.1 == key)) = t := by
        refine List.filter_eq_self.mpr fun e he => ?_
        rw [Bool.not_eq_true', Bool.eq_false_iff]
        intro hbeq
        have hname := Json.isName_of_beq hkey hbeq
        have hsame := Json.beq_congr_of_isName (Json.isName_of_beq hkey hk) hkey hname hk
        rw [hhead e he, Json.beq_comm_of_isName hkey hname, hbeq] at hsame
        exact Bool.false_ne_true hsame
      rw [take?, find?, List.filter_cons]
      simp [hk, hrest]
    · rw [take?, find?, List.filter_cons, ih htail]
      cases find? key t <;> simp [hk]

section Names

variable {t : Table Json Value} (ht : ∀ e ∈ t, e.1.isName = true)

include ht

/-- The same names have the same entry. -/
theorem find?_congr_of_areNames {a b : Json} (ha : a.isName = true) (hb : b.isName = true)
    (h : (a == b) = true) : t.find? a = t.find? b := by
  induction t with
  | nil => rfl
  | cons e t ih =>
    obtain ⟨k, w⟩ := e
    obtain ⟨hk, ht⟩ := List.forall_mem_cons.mp ht
    have hkeys : (k == a) = (k == b) := by
      rw [Json.beq_comm_of_isName hk ha, Json.beq_comm_of_isName hk hb,
        Json.beq_congr_of_isName ha hb hk h]
    rw [find?, find?, hkeys, ih ht]

/-- An entry of a dictionary is found under its name. -/
theorem find?_of_mem_of_areNames (hdistinct : t.Distinct) {e : Json × Value} (he : e ∈ t) :
    t.find? e.1 = some e.2 := by
  induction t with
  | nil => exact nomatch he
  | cons f t ih =>
    obtain ⟨k, w⟩ := f
    obtain ⟨hk, ht⟩ := List.forall_mem_cons.mp ht
    obtain ⟨hfirst, hrest⟩ := List.pairwise_cons.mp hdistinct
    rw [find?]
    rcases List.mem_cons.mp he with rfl | he
    · rw [Json.beq_self_of_isName hk, if_pos rfl]
    · rw [hfirst e he, if_neg Bool.false_ne_true]
      exact ih ht hrest he

/-- **What is found after a name has been written.** -/
theorem find?_insert_of_areNames {key other : Json} (hkey : key.isName = true)
    (hother : other.isName = true) (value : Value) :
    (t.insert key value).find? other = if key == other then some value else t.find? other := by
  refine find?_insert value (fun e he h => ?_) fun e he h hfound => ?_
  · exact Json.beq_congr_of_isName (ht e he) hkey hother h
  · rw [Json.beq_comm_of_isName hkey hother] at h
    rw [Json.beq_comm_of_isName (ht e he) hkey, ← Json.beq_congr_of_isName hother hkey (ht e he) h,
      Json.beq_comm_of_isName hother (ht e he), hfound]

end Names

end Table

end MarkupGrammar
