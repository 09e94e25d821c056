import MarkupGrammar.Check.Document
import MarkupGrammar.Grammar.Failure

/-!
# Reports

A report is a diagnostic in words: what an editor shows. Everything in it follows from the finding
and its position, but for a document that is not well formed. There the wording belongs to whoever
reads XML, so a report has a message of its own only when the tags show the mistake.
-/

namespace MarkupGrammar

/-- A diagnostic as it is shown. -/
structure Report (Place : Type := Position) where
  message : Option Text
  position : Option Place
  severity : Severity
  code : String

namespace Report

/-- A report as a JSON value, its place by a line and a column. -/
def toJsonAt {Place : Type} (line column : Place → Json) (r : Report Place) : Json :=
  Json.ofFields
    [("message", (r.message.map Json.text).getD .null),
     ("line", (r.position.map line).getD .null),
     ("column", (r.position.map column).getD .null),
     ("severity", .string r.severity.word), ("code", .string r.code)]

/-- A report on a document as a JSON value. -/
def toJson (r : Report) : Json := r.toJsonAt (fun p => .nat p.line) fun p => .int p.column

end Report

namespace Diagnostic

variable {Name Place : Type} [Label Name]

/-- The report of a diagnostic; a fault when its message would have to list something that is no
text, or up to a limit that is no integer. -/
def report (limits : PreviewLimits) (d : Diagnostic Name Place) : Except Fault (Report Place) :=
  match d.finding.message? limits with
  | none => .error .wrongKind
  | some message => .ok ⟨some message, some d.position, d.finding.severity, d.finding.code⟩

end Diagnostic

namespace MalformedPlace

/-- The report of a document that is not well formed. -/
def report (place : MalformedPlace) : Report :=
  let code := "malformed_document"
  match place with
  | .stray position => ⟨none, some position, .error, code⟩
  | .unbalanced problem position => ⟨some problem.message, some position, .error, code⟩
  | .elsewhere => ⟨none, none, .error, code⟩

end MalformedPlace

namespace Validation

variable {Name : Type} [Label Name]

/-- The reports of a validation. -/
def reports (limits : PreviewLimits) : Validation Name → Except Fault (List Report)
  | .malformed place => .ok [place.report]
  | .checked diagnostics => diagnostics.mapM (Diagnostic.report limits)

end Validation

end MarkupGrammar
