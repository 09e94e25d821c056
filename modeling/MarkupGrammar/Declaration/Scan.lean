import MarkupGrammar.Declaration.Basic
import MarkupGrammar.Text.Blank
import MarkupGrammar.Text.Percent
import MarkupGrammar.Text.Word

/-!
# Finding schema declarations

Declarations are looked for in the text of a document and not in its structure, so one inside a
comment counts too. Each form is fixed but for blanks and the case of its letters:

* `<?xml-model href="…" …?>`, where `href` is the first pseudo-attribute and no question mark stands
  before the end;
* `<!DOCTYPE name SYSTEM "…">` without an internal subset. Its reference is percent-decoded.

A reference is not empty, and either kind of quote ends it.
-/

namespace MarkupGrammar

namespace CodePoint

/-- Whether two code points are the same letter without regard to case. The long s counts as s. -/
def sameLetter (a b : CodePoint) : Bool :=
  let fold (c : CodePoint) : CodePoint :=
    if c.val = 0x17F then ofChar 's' else shiftBy lowerRuns c
  fold a = fold b

end CodePoint

namespace Text

/-- What follows a word in a text that begins with it in any case. -/
def afterWord? : Text → Text → Option Text
  | [], t => some t
  | _ :: _, [] => none
  | w :: ws, c :: r => if c.sameLetter w then afterWord? ws r else none

/-- What follows one or more code points of a class. -/
def afterSome? (p : CodePoint → Bool) (t : Text) : Option (Text × Text) :=
  match t.takeWhile p with
  | [] => none
  | run => some (run, t.dropWhile p)

/-- What follows blanks, of which there has to be one. -/
def afterBlanks? (t : Text) : Option Text := (afterSome? CodePoint.isBlank t).map (·.2)

end Text

namespace SchemaDeclaration

/-- Whether a code point is a quote. -/
def isReferenceQuote (c : CodePoint) : Bool :=
  c = CodePoint.ofChar '"' || c = CodePoint.ofChar '\''

/-- The quoted reference at the beginning of a text and what follows it. -/
def readReference? (t : Text) : Option (Text × Text) :=
  match t with
  | [] => none
  | c :: r =>
    if isReferenceQuote c then
      match Text.afterSome? (fun c => !isReferenceQuote c) r with
      | some (href, _ :: rest) => some (href, rest)
      | _ => none
    else none

/-- The reference of an instruction at the beginning of a text, and what follows the instruction. -/
def readXmlModel? (t : Text) : Option (Text × Text) := do
  let t ← Text.afterWord? (Text.ofString "<?xml-model") t
  let t ← Text.afterBlanks? t
  let t ← Text.afterWord? (Text.ofString "href=") t
  let (href, t) ← readReference? t
  let rest ← Text.after? (Text.ofString "?>") (t.dropWhile fun c => c != CodePoint.ofChar '?')
  return (href, rest)

/-- Whether a code point belongs to the name of a document type. -/
def isTypeNamePoint (c : CodePoint) : Bool :=
  c.isWord || c = CodePoint.ofChar ':' || c = CodePoint.ofChar '.' || c = CodePoint.ofChar '-'

/-- The reference of a document type at the beginning of a text, and what follows the
declaration. -/
def readDocType? (t : Text) : Option (Text × Text) := do
  let t ← Text.afterWord? (Text.ofString "<!DOCTYPE") t
  let t ← Text.afterBlanks? t
  let (_, t) ← Text.afterSome? isTypeNamePoint t
  let t ← Text.afterBlanks? t
  let t ← Text.afterWord? (Text.ofString "SYSTEM") t
  let t ← Text.afterBlanks? t
  let (href, t) ← readReference? t
  let rest ← Text.after? (Text.ofString ">") (Text.trimStart t)
  return (href.percentDecode, rest)

/-- The declarations that a reader finds from left to right, none inside another. The count says how
many code points still belong to the declaration found last. -/
def findAll (kind : DeclarationKind) (read? : Text → Option (Text × Text)) :
    Nat → Text → List SchemaDeclaration
  | _, [] => []
  | n + 1, _ :: r => findAll kind read? n r
  | 0, c :: r =>
    match read? (c :: r) with
    | none => findAll kind read? 0 r
    | some (href, rest) =>
      let length := (c :: r).length - rest.length
      ⟨kind, href, (c :: r).take length⟩ :: findAll kind read? (length - 1) r

/-- The declarations of a document: those of instructions, then those of document types. -/
def ofDocument (document : Text) : List SchemaDeclaration :=
  findAll .xmlModel readXmlModel? 0 document ++ findAll .docType readDocType? 0 document

end SchemaDeclaration

end MarkupGrammar
