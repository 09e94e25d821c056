import MarkupGrammar.Xml.Reading

/-!
# References in values

In the value of an attribute a reference stands for the text of its entity, which must not bring in
a `<`, stand outside the document or contain the entity itself. The text is checked when an entity
is first referred to; only the name of a namespace is expanded at once, each time anew.

`room` is how many texts may still be opened inside the text at hand. An entity that contains itself
uses up any room.
-/

namespace MarkupGrammar

namespace XmlReader

/-- The replacement text of a declared entity that may be used in a value. -/
def valueEntity (e : Entity) : XmlReader Text :=
  match e.content with
  | .replacement t => do
    guard !(t.contains (CodePoint.ofChar '<'))
    return t
  | _ => failure

/-- Checks that an entity is fit for values, with all entities in it, and measures it. While
declarations are still being read (`isDeclaring`) not all entities may be known, so what is measured
then does not count. -/
def checkEntity ( isDeclaring : Bool) : Nat → Text → Entity → XmlReader Unit
  | 0, _, _ => failure
  | room + 1, name, e => do
    let t ← valueEntity e
    let parts ← liftM (LiteralPart.ofText? t)
    let size ← parts.foldlM (fun size part => do
      match part with
      | .written _ => return size
      | .numbered _ => return size
      | .reference inner =>
        if (Scanner.predefined? inner).isSome then return size
        match (← docType).entity? inner with
        | none =>
          undeclared
          return size
        | some known =>
          if !(known.isSound && (isDeclaring || known.isMeasured)) then
            checkEntity isDeclaring room inner known
          let innerSize := (((← docType).entity? inner).map (·.size)).getD 0
          return size + innerSize + referenceCost) (Utf8.size t)
    modifyDocType fun d => d.updateEntity name fun e =>
      if isDeclaring then { e with isSound := true }
      else { e with isSound := true, isMeasured := true, size }

/-- The value of a literal. A reference that is not declared leaves nothing. -/
def readValue ( isDeclaring : Bool) (room : Nat) (literal : Text) :
    XmlReader (List ValuePiece) := do
  let parts ← liftM (LiteralPart.ofText? literal)
  let reversed ← parts.foldlM (fun found part => do
    match part with
    | .written c => return ValuePiece.ofWritten c :: found
    | .numbered c => return .point c :: found
    | .reference name =>
      match Scanner.predefined? name with
      | some c => return .point c :: found
      | none =>
        match (← docType).entity? name with
        | none =>
          undeclared
          return found
        | some e =>
          if !(e.isSound && (isDeclaring || e.isMeasured)) then checkEntity isDeclaring room name e
          spend ((((← docType).entity? name).map (·.size)).getD 0)
          return .reference name :: found) []
  return reversed.reverse

/-- The text of literal parts, when `enter` gives the text of an entity's replacement text. -/
def expandParts (enter : Text → XmlReader Text) (parts : List LiteralPart) : XmlReader Text := do
  let pieces ← parts.mapM fun part => do
    match part with
    | .written c => return (ValuePiece.ofWritten c).written
    | .numbered c => return [c]
    | .reference name =>
      match Scanner.predefined? name with
      | some c => return [c]
      | none =>
        match (← docType).entity? name with
        | none =>
          undeclared
          return []
        | some e =>
          let t ← valueEntity e
          spend (Utf8.size t)
          enter t
  return pieces.flatten

/-- The text that a literal stands for when all entities in it are expanded at once. -/
def expandLiteral : Nat → Text → XmlReader Text
  | 0, literal => do
    expandParts (fun _ => failure) (← liftM (LiteralPart.ofText? literal))
  | room + 1, literal => do
    expandParts (expandLiteral room) (← liftM (LiteralPart.ofText? literal))

/-- Takes the entities of a value into the tree, and all that they refer to. From then on their text
is no longer looked at as content. -/
def readInValue : Nat → List Text → XmlReader Unit
  | 0, _ => pure ()
  | budget + 1, names =>
    names.forM fun name => do
      match (← docType).entity? name with
      | some ⟨.replacement t, _, _, none, _⟩ =>
        modifyDocType fun d => d.updateEntity name fun e => e.read t
        readInValue budget (((LiteralPart.ofText? t).getD []).filterMap fun part =>
          match part with
          | .reference inner => some inner
          | _ => none)
      | _ => pure ()

end XmlReader

end MarkupGrammar
