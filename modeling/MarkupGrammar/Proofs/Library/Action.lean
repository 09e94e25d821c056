import MarkupGrammar.Library.Access

/-!
# Actions step by step

An action is performed in a world and leaves a world behind, also when it fails. A chain of steps is
performed step by step, and what a step does to the files is what the operation of that name does to
them. Everything that is said of longer actions is put together from the equations below.

## Main results

* `Action.perform_bind_of_ok`, `Action.perform_bind_of_error` — a chain is performed step by step
* `Action.cases_of_perform_bind` — a chain has failed in its first step, or ended as the rest has
-/

namespace MarkupGrammar

section

variable {Error State Value Other : Type} {a : ExceptT Error (StateM State) Value}
  {s s' : State}

/-- After a step that has succeeded the rest of a chain is run in the state that it has left. -/
theorem run_bind_of_ok {v : Value} (h : (ExceptT.run a).run s = (.ok v, s'))
    (f : Value → ExceptT Error (StateM State) Other) :
    (ExceptT.run (a >>= f)).run s = (ExceptT.run (f v)).run s' := by
  change (ExceptT.bindCont f ((ExceptT.run a).run s).1) ((ExceptT.run a).run s).2 = _
  rw [h]
  rfl

/-- After a step that has failed nothing is run, and what it has done stays. -/
theorem run_bind_of_error {e : Error} (h : (ExceptT.run a).run s = (.error e, s'))
    (f : Value → ExceptT Error (StateM State) Other) :
    (ExceptT.run (a >>= f)).run s = (.error e, s') := by
  change (ExceptT.bindCont f ((ExceptT.run a).run s).1) ((ExceptT.run a).run s).2 = _
  rw [h]
  rfl

end

namespace Action

variable {Value Other : Type}

/-! ### Chains -/

@[simp] theorem perform_get (w : World) : (get : Action World).perform w = (.ok w, w) :=
  rfl

theorem perform_bind_of_ok {a : Action Value} {v : Value} {w w' : World}
    (h : a.perform w = (.ok v, w')) (f : Value → Action Other) :
    (a >>= f).perform w = (f v).perform w' :=
  run_bind_of_ok h f

theorem perform_bind_of_error {a : Action Value} {e : AccessError} {w w' : World}
    (h : a.perform w = (.error e, w')) (f : Value → Action Other) :
    (a >>= f).perform w = (.error e, w') :=
  run_bind_of_error h f

/-- A chain has failed in its first step, or it has ended as the rest of it has. -/
theorem cases_of_perform_bind {a : Action Value} {f : Value → Action Other} {w w' : World}
    {r : Except AccessError Other} (h : (a >>= f).perform w = (r, w')) :
    (∃ e, a.perform w = (.error e, w') ∧ r = .error e) ∨
      ∃ v w₁, a.perform w = (.ok v, w₁) ∧ (f v).perform w₁ = (r, w') := by
  cases ha : a.perform w with
  | mk result w₁ =>
    cases result with
    | ok v =>
      rw [perform_bind_of_ok ha] at h
      exact Or.inr ⟨v, w₁, rfl, h⟩
    | error e =>
      rw [perform_bind_of_error ha] at h
      obtain ⟨rfl, rfl⟩ := Prod.mk.inj h
      exact Or.inl ⟨e, rfl, rfl⟩

/-! ### Steps -/

@[simp] theorem perform_inform (t : Text) (w : World) :
    (inform t).perform w = (.ok (), { w with log := w.log ++ [.sentence .info t] }) :=
  rfl

theorem perform_ofLogged (x : Logged ReadError Value) (w : World) :
    (ofLogged x).perform w = (x.result.mapError .read, { w with log := w.log ++ x.log }) := by
  obtain ⟨log, result⟩ := x
  cases result <;> rfl

theorem perform_ofFault (x : Except Fault Value) (w : World) :
    (ofFault x).perform w = (x.mapError .ofFault, w) := by
  cases x <;> rfl

theorem perform_readFile (path : Path) (w : World) :
    (readFile path).perform w = ((w.files.read path).mapError (.file · path), w) := by
  rw [readFile, perform_bind_of_ok (perform_get w)]
  cases w.files.read path <;> rfl

theorem perform_has (path : Path) (w : World) :
    (has path).perform w = ((w.files.has path).mapError (.file · path), w) := by
  rw [has, perform_bind_of_ok (perform_get w)]
  cases w.files.has path <;> rfl

theorem perform_makeDirectories (path : Path) (w : World) :
    (makeDirectories path).perform w =
      match w.files.makeDirectories path with
      | .ok files => (.ok (), { w with files })
      | .error (problem, failed) => (.error (.file problem failed), w) := by
  rw [makeDirectories, perform_bind_of_ok (perform_get w)]
  cases w.files.makeDirectories path <;> rfl

theorem perform_writeFile (path : Path) (content : Text) (w : World) :
    (writeFile path content).perform w =
      match w.files.write path content with
      | .ok files => (.ok (), { w with files })
      | .error problem => (.error (.file problem path), w) := by
  rw [writeFile, perform_bind_of_ok (perform_get w)]
  cases w.files.write path content <;> rfl

theorem perform_download (url : Text) (w : World) :
    (download url).perform w =
      (match w.pages.find? url with
      | none => .error .unreachable
      | some page =>
        if 400 ≤ page.status && page.status < 600 then
          .error (.refused page.status page.reason url)
        else .ok page.body, w) := by
  rw [download, perform_bind_of_ok (perform_get w)]
  cases w.pages.find? url with
  | none => rfl
  | some page =>
    simp only
    split <;> rfl

end Action

end MarkupGrammar
