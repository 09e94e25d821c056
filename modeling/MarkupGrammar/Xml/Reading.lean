import MarkupGrammar.Text.Utf8
import MarkupGrammar.Xml.Complaint
import MarkupGrammar.Xml.DocType

/-!
# Reading a document

A document is read from its beginning to its end, and what is found decides what comes next. A
reader keeps the text that is still to be read, the document type, the complaints so far and the
identifiers in use. When it fails, the document is not well formed, whatever follows.

The text of an entity is read in the place of a reference to it, so the text at hand is not always
the document. Entities may multiply what there is to read; `XmlReader.spend` sets a limit to that.
-/

namespace MarkupGrammar

/-- What is known while a document is read. `text` is what is still to be read of the text at hand,
`size` the number of octets of all of it, and `expansion` what references have added so far. -/
structure Reading where
  text : Text
  size : Nat
  complaints : ComplaintLog
  docType : DocType
  expansion : Nat
  identifiers : List Text

/-- Reads something of a document, or fails. -/
abbrev XmlReader := StateT Reading Option

namespace Reading

/-- The beginning of a document. -/
def start (document : Text) : Reading :=
  ⟨document, Utf8.size document, .empty, .absent false, 0, []⟩

/-- How many octets of the text at hand have been read. -/
def consumed (r : Reading) : Nat := r.size - Utf8.size r.text

end Reading

namespace XmlReader

/-- How many texts may be open inside one another besides the document. -/
def greatestNesting : Nat := 19

/-- What every reference costs besides the text it adds. -/
def referenceCost : Nat := 20

/-- What references may add to a document of any size. -/
def freeExpansion : Nat := 1000000

/-- How many times larger than what has been read the expansion may be beyond that. -/
def greatestAmplification : Nat := 5

/-- Takes something from the front of the text at hand. -/
def scan {α : Type} (s : Scanner α) : XmlReader α := fun r =>
  match s.run r.text with
  | none => none
  | some (a, rest) => some (a, { r with text := rest })

/-- Records a complaint. -/
def complain (c : XmlComplaint) : XmlReader Unit :=
  modify fun r => { r with complaints := r.complaints.add c }

/-- Records an error unless the condition holds. -/
def require (condition : Bool) : XmlReader Unit :=
  if condition then pure () else complain .error

/-- The document type so far. -/
def docType : XmlReader DocType := return (← get).docType

/-- Changes the document type. -/
def modifyDocType (change : DocType → DocType) : XmlReader Unit :=
  modify fun r => { r with docType := change r.docType }

/-- Counts a reference that adds `n` octets. -/
def spend (n : Nat) : XmlReader Unit := do
  let r ← get
  let expansion := r.expansion + n + referenceCost
  guard (expansion ≤ freeExpansion || expansion / greatestAmplification ≤ r.consumed)
  set { r with expansion }

/-- What references add while something is read, counted apart from everything else. -/
def measure {α : Type} (reader : XmlReader α) : XmlReader (α × Nat) := do
  let before := (← get).expansion
  modify fun r => { r with expansion := 0 }
  let a ← reader
  let added := (← get).expansion
  modify fun r => { r with expansion := before }
  return (a, added)

/-- Reads a text in the place of the text at hand. All of it has to be read. -/
def inside {α : Type} (t : Text) (reader : XmlReader α) : XmlReader α := do
  let outer ← get
  set { outer with text := t, size := Utf8.size t }
  let a ← reader
  let inner ← get
  guard inner.text.isEmpty
  set { inner with text := outer.text, size := outer.size }
  return a

/-- A reference to an entity that is not declared. Where declarations may stand outside it is worth
a warning. -/
def undeclared : XmlReader Unit := do
  guard !(← docType).isStrict
  complain .warning

/-- The complaints about the target of an instruction: one that begins like the reserved target is
worth a warning, and a colon is an error. Two well-known targets are above suspicion. -/
def checkTarget (target : Text) : XmlReader Unit := do
  let looksReserved :=
    match target with
    | x :: m :: l :: _ =>
      (x.val = 0x78 || x.val = 0x58) && (m.val = 0x6D || m.val = 0x4D)
        && (l.val = 0x6C || l.val = 0x4C)
    | _ => false
  let isKnown := target = Text.ofString "xml-stylesheet" || target = Text.ofString "xml-model"
  if looksReserved && !isKnown then complain .warning
  require !(target.contains (CodePoint.ofChar ':'))

/-- Reads an instruction whose opening has been passed. -/
def instruction : XmlReader Unit := do
  checkTarget (← scan Scanner.instructionBody)

end XmlReader

end MarkupGrammar
