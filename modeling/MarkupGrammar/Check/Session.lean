import MarkupGrammar.Check.Report

/-!
# Sessions

A session checks the structure of one document after the other and keeps all that it has reported.
After a document its elements are closed again, so the next one starts afresh. Only a document whose
check breaks off, because a message would have to list something that is no text, leaves its
elements open for the next.
-/

namespace MarkupGrammar

variable {Name : Type} [Label Name]

/-- What a session has reported so far, and the elements that are open. -/
structure Session (Name : Type) where
  stack : OpenTags Name
  reported : List Report

namespace Session

/-- A session that has not seen a document. -/
def start : Session Name := ⟨[], []⟩

/-- The reports of diagnostics up to the first that cannot be worded, and that one. -/
def reportAll (limits : PreviewLimits) :
    List (Diagnostic Name) → List Report × Option (Diagnostic Name)
  | [] => ([], none)
  | d :: ds =>
    match d.report limits with
    | .error _ => ([], some d)
    | .ok r =>
      let (reports, stuck) := reportAll limits ds
      (r :: reports, stuck)

/-- The open elements when the check of a tag breaks off: a tag that closes itself has become a
child before its own children are asked for, any other has changed nothing. -/
def stackAfter (stuck : Diagnostic Name) (before after : OpenTags Name) : OpenTags Name :=
  match stuck.finding with
  | .selfClosing .. => after
  | _ => before

/-- Checks the tags of a document. -/
def run (limits : PreviewLimits) (s : Schema Name) (session : Session Name) :
    List Tag → Session Name × Except Fault (List Report)
  | [] =>
    let unclosed := session.stack.reverse.map fun frame =>
      (⟨.unclosed frame.name, frame.position⟩ : Diagnostic Name)
    let reported := session.reported ++ (reportAll limits unclosed).1
    (⟨[], reported⟩, .ok reported)
  | tag :: tags =>
    let (stack, found) := s.step session.stack tag
    let (reports, stuck) := reportAll limits found
    let reported := session.reported ++ reports
    match stuck with
    | none => run limits s ⟨stack, reported⟩ tags
    | some d => (⟨stackAfter d session.stack stack, reported⟩, .error .wrongKind)

/-- Checks one document after the other; the answer to each is all that has been reported by
then. -/
def runAll (limits : PreviewLimits) (s : Schema Name) (session : Session Name) :
    List Text → List (Except Fault (List Report))
  | [] => []
  | document :: documents =>
    let (next, answer) := session.run limits s (Tag.ofText document)
    answer :: runAll limits s next documents

end Session

end MarkupGrammar
