import MarkupGrammar.Grammar.Label
import Mathlib.Tactic.Common

/-!
# Texts as names, and tables as dictionaries

Equality of names is a test, and on arbitrary JSON values it is not equality: `1` and `true` are the
same name. On texts it is, on either side of the test, and that is all that a law about a grammar
whose names are texts needs. `LawfulLabel` says so, of `Text` and of `Json` alike.

A table is a list of entries. It is a dictionary when no key is in it twice, which is what writing
entries with `Table.insert` keeps. Only then does taking an entry out leave a table without its key.

## Main results

* `Distinct.insert` — writing an entry keeps a dictionary
* `Table.take?_eq` — taking an entry out of a dictionary is looking it up and filtering it away
* `Label.ofText_mem_eraseDups` — a text survives the removal of repetitions
-/

namespace MarkupGrammar

/-- A type of names in which the test against a text is equality, and every text can be looked
up. -/
class LawfulLabel (Name : Type) [Label Name] : Prop where
  beq_ofText_iff (n : Name) (t : Text) : (n == Label.ofText t) = true ↔ n = Label.ofText t
  ofText_beq_iff (n : Name) (t : Text) : (Label.ofText t == n) = true ↔ Label.ofText t = n
  isName_ofText (t : Text) : Label.isName (Label.ofText t : Name) = true

instance : LawfulLabel Text where
  beq_ofText_iff _ _ := beq_iff_eq
  ofText_beq_iff _ _ := beq_iff_eq
  isName_ofText _ := rfl

theorem Json.sameScalar_text_iff (v : Json) (t : Text) :
    Json.sameScalar v (.text t) = true ↔ v = .text t := by
  cases v with
  | text s => simp [Json.sameScalar, Json.toInt?]
  | float x => cases h : x.toInt? <;> simp [Json.sameScalar, Json.toInt?, h]
  | _ => simp [Json.sameScalar, Json.toInt?]

theorem Json.text_sameScalar_iff (v : Json) (t : Text) :
    Json.sameScalar (.text t) v = true ↔ Json.text t = v := by
  cases v with
  | text s => simp [Json.sameScalar, Json.toInt?]
  | float x => cases h : x.toInt? <;> simp [Json.sameScalar, Json.toInt?, h]
  | _ => simp [Json.sameScalar, Json.toInt?]

instance : LawfulLabel Json where
  beq_ofText_iff v t := by
    change Json.same v (.text t) = true ↔ v = .text t
    cases v with
    | array xs => simp [Json.same]
    | object fs => simp [Json.same]
    | _ => rw [Json.same] <;> simp [Json.sameScalar_text_iff]
  ofText_beq_iff v t := by
    change Json.same (.text t) v = true ↔ Json.text t = v
    rw [Json.same] <;> simp [Json.text_sameScalar_iff]
  isName_ofText _ := rfl

variable {Name : Type} [Label Name]

namespace Label

/-- A name that is a text. -/
def IsText (n : Name) : Prop := ∃ t : Text, n = Label.ofText t

variable [LawfulLabel Name]

theorem IsText.isName {n : Name} (h : IsText n) : Label.isName n = true := by
  obtain ⟨t, rfl⟩ := h
  exact LawfulLabel.isName_ofText t

theorem IsText.beq_iff {n : Name} (h : IsText n) (m : Name) : (m == n) = true ↔ m = n := by
  obtain ⟨t, rfl⟩ := h
  exact LawfulLabel.beq_ofText_iff m t

theorem IsText.beq_iff' {n : Name} (h : IsText n) (m : Name) : (n == m) = true ↔ n = m := by
  obtain ⟨t, rfl⟩ := h
  exact LawfulLabel.ofText_beq_iff m t

theorem IsText.elem_iff {n : Name} (h : IsText n) (ns : List Name) :
    ns.elem n = true ↔ n ∈ ns := by
  induction ns with
  | nil => simp
  | cons m ns ih =>
    rw [List.mem_cons, ← ih, ← h.beq_iff', List.elem_cons]
    cases n == m <;> simp

omit [LawfulLabel Name] in
/-- Removing repetitions adds nothing. -/
theorem mem_of_mem_eraseDups {n : Name} : ∀ {ns : List Name}, n ∈ ns.eraseDups → n ∈ ns
  | [], h => h
  | m :: ns, h => by
    have : (ns.filter fun k => !k == m).length < ns.length + 1 :=
      Nat.lt_succ_of_le (List.length_filter_le _ _)
    rw [List.eraseDups_cons] at h
    rcases List.mem_cons.mp h with rfl | h
    · exact List.mem_cons_self
    · exact List.mem_cons_of_mem m (List.mem_filter.mp (mem_of_mem_eraseDups h)).1
termination_by ns => ns.length

/-- Removing repetitions keeps every text: what is removed for it is the text itself. -/
theorem ofText_mem_eraseDups (t : Text) :
    ∀ ns : List Name, Label.ofText t ∈ ns.eraseDups ↔ Label.ofText t ∈ ns
  | [] => by simp
  | n :: ns => by
    have : (ns.filter fun m => !m == n).length < ns.length + 1 :=
      Nat.lt_succ_of_le (List.length_filter_le _ _)
    rw [List.eraseDups_cons, List.mem_cons, List.mem_cons, ofText_mem_eraseDups, List.mem_filter]
    by_cases h : Label.ofText t = n
    · simp [h]
    · simp [h, mt (LawfulLabel.ofText_beq_iff n t).mp h]
termination_by ns => ns.length

end Label

/-- Removing repetitions leaves no two names that are the same. -/
theorem pairwise_eraseDups : ∀ names : List Name,
    names.eraseDups.Pairwise fun a b => (b == a) = false
  | [] => by simp
  | name :: names => by
    have : (names.filter fun n => !n == name).length < names.length + 1 :=
      Nat.lt_succ_of_le (List.length_filter_le _ _)
    rw [List.eraseDups_cons, List.pairwise_cons]
    refine ⟨fun n hn => ?_, pairwise_eraseDups _⟩
    have hkept := (List.mem_filter.mp (Label.mem_of_mem_eraseDups hn)).2
    simpa using hkept
termination_by names => names.length

/-- Of texts none is left twice. -/
theorem Label.nodup_eraseDups [LawfulLabel Name] {names : List Name}
    (h : ∀ n ∈ names, Label.IsText n) : names.eraseDups.Nodup :=
  (pairwise_eraseDups names).imp_of_mem fun {a _} _ hb hne heq =>
    Bool.eq_false_iff.mp hne (((h _ (Label.mem_of_mem_eraseDups hb)).beq_iff' a).mpr heq.symm)

/-- Names of which no two are the same are all kept. -/
theorem eraseDups_eq_self {names : List Name} (h : names.Pairwise fun a b => (b == a) = false) :
    names.eraseDups = names := by
  induction names with
  | nil => rfl
  | cons name names ih =>
    obtain ⟨hname, hnames⟩ := List.pairwise_cons.mp h
    rw [List.eraseDups_cons, List.filter_eq_self.mpr fun n hn => by rw [hname n hn]; rfl, ih hnames]

namespace Table

section Without

variable {Key Value : Type} [BEq Key]

/-- The entries that are left when some keys have been visited. -/
def without (t : Table Key Value) (visited : List Key) : Table Key Value :=
  t.filter fun (key, _) => !visited.elem key

theorem without_nil (t : Table Key Value) : t.without [] = t :=
  List.filter_eq_self.mpr fun _ _ => rfl

theorem without_cons (t : Table Key Value) (key : Key) (visited : List Key) :
    t.without (key :: visited) = (t.without visited).filter fun e => !(e.1 == key) := by
  rw [without, without, List.filter_filter]
  refine List.filter_congr fun e _ => ?_
  change (!List.elem e.1 (key :: visited)) = (!(e.1 == key) && !List.elem e.1 visited)
  rw [List.elem_cons]
  cases e.1 == key <;> simp

end Without

variable {Value : Type}

/-- No key is in the table twice. -/
def Distinct (t : Table Name Value) : Prop := t.Pairwise fun a b => (a.1 == b.1) = false

theorem Distinct.filter {t : Table Name Value} (h : t.Distinct) (p : Name × Value → Bool) :
    Distinct (List.filter p t) :=
  List.Pairwise.filter p h

/-- A key that is not found is that of no entry. -/
theorem beq_eq_false_of_find?_eq_none {t : Table Name Value} {key : Name}
    (h : t.find? key = none) : ∀ e ∈ t, (e.1 == key) = false := by
  induction t with
  | nil => exact fun e he => nomatch he
  | cons f t ih =>
    obtain ⟨k, w⟩ := f
    rw [find?] at h
    split at h
    · exact nomatch h
    · next hk =>
      intro e he
      rcases List.mem_cons.mp he with rfl | he
      · exact Bool.eq_false_iff.mpr hk
      · exact ih h e he

/-- The entries after writing one: those before, and the one written, under its own key or under
the one that was there for it. -/
theorem mem_insert {t : Table Name Value} {key : Name} {value : Value} {e : Name × Value}
    (he : e ∈ t.insert key value) :
    e ∈ t ∨ e.2 = value ∧ (e.1 = key ∨ ∃ v, (e.1, v) ∈ t) := by
  induction t with
  | nil =>
    obtain rfl := List.mem_singleton.mp he
    exact Or.inr ⟨rfl, Or.inl rfl⟩
  | cons f t ih =>
    obtain ⟨k, w⟩ := f
    rw [insert] at he
    split at he
    · rcases List.mem_cons.mp he with rfl | he
      · exact Or.inr ⟨rfl, Or.inr ⟨w, List.mem_cons_self⟩⟩
      · exact Or.inl (List.mem_cons_of_mem _ he)
    · rcases List.mem_cons.mp he with rfl | he
      · exact Or.inl List.mem_cons_self
      · rcases ih he with he | ⟨hvalue, hkey | ⟨v, hv⟩⟩
        · exact Or.inl (List.mem_cons_of_mem _ he)
        · exact Or.inr ⟨hvalue, Or.inl hkey⟩
        · exact Or.inr ⟨hvalue, Or.inr ⟨v, List.mem_cons_of_mem _ hv⟩⟩

/-- The keys after writing an entry: those before, and the one written. -/
theorem key_of_mem_insert {t : Table Name Value} {key : Name} {value : Value} {e : Name × Value}
    (he : e ∈ t.insert key value) : e.1 = key ∨ ∃ v, (e.1, v) ∈ t := by
  rcases mem_insert he with he | ⟨-, hkey⟩
  · exact Or.inr ⟨e.2, he⟩
  · exact hkey

/-- **Writing keeps a dictionary.** An entry is written over the one under its key, if there is
one. -/
theorem Distinct.insert {t : Table Name Value} (h : t.Distinct) (key : Name) (value : Value) :
    (t.insert key value).Distinct := by
  induction t with
  | nil => exact List.pairwise_singleton _ _
  | cons e t ih =>
    obtain ⟨k, v⟩ := e
    obtain ⟨hhead, htail⟩ := List.pairwise_cons.mp h
    rw [Table.insert]
    split
    · exact List.pairwise_cons.mpr ⟨hhead, htail⟩
    · next hk =>
      refine List.pairwise_cons.mpr ⟨fun e he => ?_, ih htail⟩
      rcases key_of_mem_insert he with hkey | ⟨w, hw⟩
      · rw [hkey]
        exact Bool.eq_false_iff.mpr hk
      · exact hhead (e.1, w) hw

/-- What is written under a key of its own comes last. -/
theorem insert_of_new {t : Table Name Value} {key : Name} {value : Value} (h : ∀ e ∈ t, (e.1 == key) = false) :
    t.insert key value = t ++ [(key, value)] := by
  induction t with
  | nil => rfl
  | cons e t ih =>
    obtain ⟨k, v⟩ := e
    rw [insert, if_neg (Bool.eq_false_iff.mp (h (k, v) List.mem_cons_self)),
      ih fun e he => h e (List.mem_cons_of_mem _ he)]
    rfl

/-- A key that is not found is not found either when something is written under another. -/
theorem find?_insert_eq_none {t : Table Name Value} {key other : Name} {value : Value}
    (h : t.find? other = none) (hne : (key == other) = false) :
    (t.insert key value).find? other = none := by
  induction t with
  | nil => rw [insert, find?, if_neg (Bool.eq_false_iff.mp hne), find?]
  | cons e t ih =>
    obtain ⟨k, v⟩ := e
    rw [find?] at h
    split at h
    · exact nomatch h
    · next hk =>
      rw [insert]
      split
      · rw [find?, if_neg hk, h]
      · rw [find?, if_neg hk, ih h]

/-- Writing the entries of a dictionary one after the other writes the dictionary. -/
theorem ofEntries_eq {t : Table Name Value} (h : t.Distinct) : ofEntries t = t := by
  have hkeeps : ∀ (written left : Table Name Value), (written ++ left).Distinct →
      left.foldl (fun t (e : Name × Value) => t.insert e.1 e.2) written = written ++ left := by
    intro written left
    induction left generalizing written with
    | nil => exact fun _ => (List.append_nil written).symm
    | cons e left ih =>
      intro hdistinct
      have hnew : ∀ f ∈ written, (f.1 == e.1) = false := fun f hf =>
        (List.pairwise_append.mp hdistinct).2.2 f hf e List.mem_cons_self
      rw [List.foldl_cons, insert_of_new hnew, ih _ (by simpa using hdistinct)]
      simp
  exact hkeeps [] t h

/-- Entries written one after the other make a dictionary. -/
theorem distinct_ofEntries (entries : List (Name × Value)) : (ofEntries entries).Distinct := by
  have hkeeps : ∀ (left : List (Name × Value)) (written : Table Name Value), written.Distinct →
      Distinct (left.foldl (fun t (e : Name × Value) => t.insert e.1 e.2) written) := by
    intro left
    induction left with
    | nil => exact fun written h => h
    | cons e left ih => exact fun written h => ih _ (h.insert e.1 e.2)
  exact hkeeps entries [] List.Pairwise.nil

/-- What is found in a table whose values are replaced is what was found, replaced. -/
theorem find?_map {Other : Type} (f : Value → Other) (t : Table Name Value) (key : Name) :
    find? key (t.map fun e => (e.1, f e.2)) = (t.find? key).map f := by
  induction t with
  | nil => rfl
  | cons e t ih =>
    obtain ⟨k, v⟩ := e
    rw [List.map_cons, find?, find?, ih]
    split <;> rfl

theorem exists_mem_beq_of_find? {t : Table Name Value} {key : Name} {v : Value}
    (h : t.find? key = some v) : ∃ k, (k, v) ∈ t ∧ (k == key) = true := by
  induction t with
  | nil => exact nomatch h
  | cons e t ih =>
    obtain ⟨k, w⟩ := e
    rw [find?] at h
    split at h
    · next hk =>
      obtain rfl := Option.some.inj h
      exact ⟨k, List.mem_cons_self, hk⟩
    · obtain ⟨k', hmem, hk'⟩ := ih h
      exact ⟨k', List.mem_cons_of_mem _ hmem, hk'⟩

theorem exists_mem_of_find? {t : Table Name Value} {key : Name} {v : Value}
    (h : t.find? key = some v) : ∃ k, (k, v) ∈ t :=
  (exists_mem_beq_of_find? h).imp fun _ hk => hk.1

variable [LawfulLabel Name]

/-- An entry that is written under a text has it for its key, also when it is written over
another. -/
theorem mem_insert_of_isText {t : Table Name Value} {key : Name} (hkey : Label.IsText key)
    {value : Value} {e : Name × Value} (he : e ∈ t.insert key value) : e ∈ t ∨ e = (key, value) := by
  induction t with
  | nil => exact Or.inr (List.mem_singleton.mp he)
  | cons f t ih =>
    obtain ⟨k, w⟩ := f
    rw [insert] at he
    split at he
    · next hk =>
      rcases List.mem_cons.mp he with rfl | he
      · exact Or.inr (by rw [(hkey.beq_iff k).mp hk])
      · exact Or.inl (List.mem_cons_of_mem _ he)
    · rcases List.mem_cons.mp he with rfl | he
      · exact Or.inl List.mem_cons_self
      · exact (ih he).imp_left (List.mem_cons_of_mem _)

/-- Entries under texts are written as they are, each unless another is written over it. -/
theorem mem_of_mem_ofEntries {entries : List (Name × Value)}
    (hkeys : ∀ e ∈ entries, Label.IsText e.1) {e : Name × Value} (he : e ∈ ofEntries entries) :
    e ∈ entries := by
  have hkeeps : ∀ (left : List (Name × Value)) (written : Table Name Value),
      (∀ f ∈ left, Label.IsText f.1) →
      e ∈ left.foldl (fun t (f : Name × Value) => t.insert f.1 f.2) written →
      e ∈ written ∨ e ∈ left := by
    intro left
    induction left with
    | nil => exact fun written _ h => Or.inl h
    | cons f left ih =>
      intro written hleft h
      obtain ⟨hf, hleft⟩ := List.forall_mem_cons.mp hleft
      rcases ih _ hleft h with h | h
      · refine (mem_insert_of_isText hf h).imp_right ?_
        rintro rfl
        exact List.mem_cons_self
      · exact Or.inr (List.mem_cons_of_mem f h)
  exact (hkeeps entries [] hkeys he).resolve_left List.not_mem_nil

/-- An entry of a dictionary is found under its key. -/
theorem find?_of_mem {t : Table Name Value} (ht : t.Distinct) {e : Name × Value}
    (hkey : Label.IsText e.1) (he : e ∈ t) : t.find? e.1 = some e.2 := by
  induction t with
  | nil => exact nomatch he
  | cons f t ih =>
    obtain ⟨k, v⟩ := f
    obtain ⟨hhead, htail⟩ := List.pairwise_cons.mp ht
    rw [find?]
    rcases List.mem_cons.mp he with rfl | he
    · rw [if_pos ((hkey.beq_iff k).mpr rfl)]
    · rw [if_neg (Bool.eq_false_iff.mp (hhead e he)), ih htail he]

/-- **Taking an entry out of a dictionary.** The value is the one that is looked up, and what is
left are the entries under other keys. -/
theorem take?_eq {t : Table Name Value} (ht : t.Distinct) {key : Name} (hkey : Label.IsText key) :
    t.take? key = (t.find? key).map fun v => (v, t.filter fun e => !(e.1 == key)) := by
  induction t with
  | nil => rfl
  | cons e t ih =>
    obtain ⟨k, v⟩ := e
    obtain ⟨hhead, htail⟩ := List.pairwise_cons.mp ht
    by_cases hk : (k == key) = true
    · have hkk : k = key := (hkey.beq_iff k).mp hk
      subst hkk
      have hrest : t.filter (fun e => !(e.1 == k)) = t := by
        refine List.filter_eq_self.mpr fun e he => ?_
        have hne : ¬ (k == e.1) = true := by simp [hhead e he]
        rw [hkey.beq_iff'] at hne
        simpa [← hkey.beq_iff] using Ne.symm hne
      rw [take?, find?, List.filter_cons]
      simp [hk, hrest]
    · rw [take?, find?, List.filter_cons, ih htail]
      cases find? key t <;> simp [hk]

/-- An entry that a filter on keys keeps is found as before. -/
theorem find?_filter (t : Table Name Value) (keep : Name → Bool) {key : Name}
    (hkey : Label.IsText key) :
    find? key (t.filter fun e => keep e.1) = if keep key then find? key t else none := by
  induction t with
  | nil => simp [find?]
  | cons e t ih =>
    obtain ⟨k, v⟩ := e
    rw [List.filter_cons]
    by_cases hk : (k == key) = true
    · have hkk : k = key := (hkey.beq_iff k).mp hk
      subst hkk
      by_cases hkeep : keep k = true
      · simp [find?, hk, hkeep]
      · simp [hkeep, ih]
    · by_cases hkeep : keep k = true <;> simp [find?, hk, hkeep, ih]

end Table

end MarkupGrammar
