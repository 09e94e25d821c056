import MarkupGrammar.Proofs.Json.Name
import MarkupGrammar.Proofs.Reading
import MarkupGrammar.Storage.FileTree

/-!
# What a tree of files keeps

A tree changes in two ways. Directories are made, which leaves every file alone. A file is put at a
location that is no directory, which leaves all other locations alone. A path that leads to that
location still leads to it, because on its way it only passes through directories.

## Main results

* `FileTree.files_of_makeDirectories` — making directories leaves every file alone
* `FileTree.exists_of_write` — writing a file is putting it where its path leads
* `FileTree.read_put` — the file is then read under that path
-/

namespace MarkupGrammar

namespace Table

variable {Key Value : Type} [BEq Key] [LawfulBEq Key]

/-- Of two values written under a key the last one stays. -/
theorem insert_insert (t : Table Key Value) (key : Key) (v w : Value) :
    (t.insert key v).insert key w = t.insert key w := by
  induction t with
  | nil => simp [insert]
  | cons e t ih =>
    obtain ⟨k, u⟩ := e
    by_cases hk : (k == key) = true
    · simp [insert, hk]
    · simp [insert, hk, ih]

omit [LawfulBEq Key] in
/-- Writing the value that is there changes nothing. -/
theorem insert_of_find? {t : Table Key Value} {key : Key} {v : Value} (h : t.find? key = some v) :
    t.insert key v = t := by
  induction t with
  | nil => exact nomatch h
  | cons e t ih =>
    obtain ⟨k, u⟩ := e
    rw [find?] at h
    rw [insert]
    by_cases hk : (k == key) = true
    · rw [if_pos hk] at h ⊢
      rw [Option.some.inj h]
    · rw [if_neg hk] at h ⊢
      rw [ih h]

end Table

namespace FileTree

variable {t t' : FileTree}

/-! ### A file at a location -/

/-- The tree with a file at a location. -/
def put (t : FileTree) (location : Location) (content : Text) : FileTree :=
  { t with files := t.files.insert location content }

theorem find?_put (t : FileTree) (location other : Location) (content : Text) :
    (t.put location content).files.find? other
      = if location == other then some content else t.files.find? other :=
  Table.find?_insert_of_lawful _ _ _ _

theorem node?_put_self (t : FileTree) (location : Location) (content : Text) :
    (t.put location content).node? location = some (.file content) := by
  rw [node?, find?_put, if_pos (beq_self_eq_true location)]

theorem node?_put_of_ne (t : FileTree) {location other : Location} (h : location ≠ other)
    (content : Text) : (t.put location content).node? other = t.node? other := by
  rw [node?, find?_put, if_neg (mt eq_of_beq h)]
  rfl

theorem put_put (t : FileTree) (location : Location) (before after : Text) :
    (t.put location before).put location after = t.put location after := by
  rw [put, put, put, Table.insert_insert]

/-- A way through directories is not changed by a file. -/
theorem follow_put {location : Location} (hlocation : t.node? location ≠ some .directory)
    (content : Text) (start : Location) (parts : List Text) {goal : Location}
    (h : t.follow start parts = .ok goal) :
    (t.put location content).follow start parts = .ok goal := by
  induction parts generalizing start with
  | nil => exact h
  | cons part parts ih =>
    rw [follow] at h ⊢
    cases hnode : t.node? start with
    | none => simp [hnode] at h
    | some node =>
      cases node with
      | file content => simp [hnode] at h
      | directory =>
        have hne : location ≠ start := fun heq => hlocation (heq ▸ hnode)
        rw [node?_put_of_ne t hne, hnode]
        rw [hnode] at h
        simp only at h ⊢
        split at h
        · exact nomatch h
        · next hshort => rw [if_neg hshort, ih _ h]

/-- A path that leads to a location leads to the file that is put there. -/
theorem locate_put {p : Path} {location : Location} (h : t.locate p = .ok location)
    (hlocation : t.node? location ≠ some .directory) (content : Text) :
    (t.put location content).locate p = .ok location := by
  rw [locate] at h ⊢
  split at h
  · exact nomatch h
  · next hproblem => exact follow_put hlocation content _ _ h

/-- Where a path leads to a location that is no directory. -/
structure LeadsTo (t : FileTree) (p : Path) (location : Location) : Prop where
  locate_eq : t.locate p = .ok location
  node_ne : t.node? location ≠ some .directory

variable {p : Path} {location : Location}

theorem LeadsTo.put (h : t.LeadsTo p location) (content : Text) :
    (t.put location content).LeadsTo p location where
  locate_eq := locate_put h.locate_eq h.node_ne content
  node_ne := by simp [node?_put_self]

/-! ### Reading and writing -/

/-- **A file is read** where its path leads. -/
theorem read_put (h : t.LeadsTo p location) (content : Text) :
    (t.put location content).read p = .ok content := by
  rw [read, (h.put content).locate_eq, ok_bind, node?_put_self]
  rfl

theorem has_put (h : t.LeadsTo p location) (content : Text) :
    (t.put location content).has p = .ok true := by
  rw [has, (h.put content).locate_eq]
  simp [node?_put_self]

theorem write_of_leadsTo (h : t.LeadsTo p location) (content : Text) :
    t.write p content = .ok (t.put location content) := by
  rw [write, h.locate_eq, ok_bind]
  split
  · next hnode => exact absurd hnode h.node_ne
  · rfl

/-- **Writing a file is putting it where its path leads.** -/
theorem exists_of_write {content : Text} (h : t.write p content = .ok t') :
    ∃ location, t.LeadsTo p location ∧ t' = t.put location content := by
  rw [write] at h
  cases hlocate : t.locate p with
  | error problem =>
    rw [hlocate] at h
    cases h
  | ok location =>
    rw [hlocate, ok_bind] at h
    split at h
    · cases h
    · next hnode => exact ⟨location, ⟨hlocate, hnode⟩, (Except.ok.inj h).symm⟩

/-- Whether a file can be written does not depend on its content. -/
theorem write_eq_error {content : Text} {problem : FileProblem}
    (h : t.write p content = .error problem) (other : Text) : t.write p other = .error problem := by
  rw [write] at h ⊢
  cases hlocate : t.locate p with
  | error e =>
    rw [hlocate] at h
    exact h
  | ok location =>
    rw [hlocate, ok_bind] at h
    rw [ok_bind]
    cases hnode : t.node? location with
    | none =>
      rw [hnode] at h
      exact nomatch h
    | some node =>
      rw [hnode] at h
      cases node with
      | file content => exact nomatch h
      | directory => exact h

/-- The content that a file has is the answer to whether it is there. -/
theorem has_of_read {content : Text} (h : t.read p = .ok content) : t.has p = .ok true := by
  rw [read] at h
  rw [has]
  cases hlocate : t.locate p with
  | error problem =>
    rw [hlocate] at h
    exact nomatch h
  | ok location =>
    rw [hlocate, ok_bind] at h
    simp only
    cases hnode : t.node? location with
    | none =>
      rw [hnode] at h
      exact nomatch h
    | some node => rfl

/-! ### Directories -/

theorem files_of_makeDirectory (h : t.makeDirectory p = .ok t') : t'.files = t.files := by
  rw [makeDirectory] at h
  cases hlocate : t.locate p with
  | error problem =>
    rw [hlocate] at h
    cases h
  | ok location =>
    rw [hlocate, ok_bind] at h
    split at h
    · rw [← Except.ok.inj h]
    · rw [← Except.ok.inj h]
    · cases h

theorem files_of_makeDirectoriesFrom {root : Text} {parts : List Text}
    (h : t.makeDirectoriesFrom root parts = .ok t') : t'.files = t.files := by
  induction parts generalizing t' with
  | nil => rw [Except.ok.inj h]
  | cons part parts ih =>
    rw [makeDirectoriesFrom] at h
    split at h
    · next hmade =>
      obtain rfl := Except.ok.inj h
      exact files_of_makeDirectory hmade
    · cases houter : t.makeDirectoriesFrom root parts with
      | error e =>
        rw [houter] at h
        exact nomatch h
      | ok outer =>
        rw [houter] at h
        replace h : ((outer.makeDirectory ⟨root, (part :: parts).reverse⟩).mapError fun problem =>
          (problem, (⟨root, (part :: parts).reverse⟩ : Path))) = .ok t' := h
        cases hmade : outer.makeDirectory ⟨root, (part :: parts).reverse⟩ with
        | error problem =>
          rw [hmade] at h
          exact nomatch h
        | ok made =>
          rw [hmade] at h
          obtain rfl := Except.ok.inj h
          rw [files_of_makeDirectory hmade, ih houter]
    · exact nomatch h

/-- **Making directories leaves every file alone.** -/
theorem files_of_makeDirectories (h : t.makeDirectories p = .ok t') : t'.files = t.files :=
  files_of_makeDirectoriesFrom h

end FileTree

end MarkupGrammar
