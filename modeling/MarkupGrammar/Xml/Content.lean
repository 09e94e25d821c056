import MarkupGrammar.Xml.Event
import MarkupGrammar.Xml.StartTag

/-!
# Content

The constructs of a document become a tree when every end tag meets the start tag it belongs to. The
tree is built on a stack of what is open: the document, elements, and the texts of entities, each
with the children it has so far.

A reference leaves a node of its own in the tree. The text of its entity is read as content at the
first reference: it has to be balanced in itself, and it does not see the namespaces that are bound
around the reference.
-/

namespace MarkupGrammar

/-- What opens a node whose end is still to come. -/
inductive Opening where
  | document
  | entity
  | tag (name : Text)
deriving DecidableEq

/-- A node whose end is still to come, with its children so far. -/
structure OpenNode where
  opening : Opening
  name : ExpandedName
  attributes : List XmlAttribute
  scope : Scope
  reversedChildren : List XmlNode

namespace OpenNode

/-- A node that is no element. Nothing is bound in it. -/
def root (opening : Opening) : OpenNode := ⟨opening, ⟨[], []⟩, [], [], []⟩

/-- The node of a start tag. -/
def ofTag (name : Text) (tag : StartTag) : OpenNode :=
  ⟨.tag name, tag.name, tag.attributes, tag.scope, []⟩

/-- Puts a finished node in its place. -/
def place (e : OpenNode) (node : XmlNode) : OpenNode :=
  { e with reversedChildren := node :: e.reversedChildren }

/-- The element that is finished. -/
def toElement (e : OpenNode) : XmlNode := .element e.name e.attributes e.reversedChildren.reverse

end OpenNode

namespace XmlReader

/-- How many elements and texts of entities may stand inside one another. -/
def greatestDepth : Nat := 256

/-- Opens a node inside those that are open. The document itself takes up no depth. -/
def openNode (node : OpenNode) (parent : OpenNode) (ancestors : List OpenNode) :
    XmlReader (List OpenNode) := do
  guard (ancestors.length < greatestDepth)
  return node :: parent :: ancestors

/-- Reads a start tag, and closes its element at once if it is empty. -/
def readStartTag (room : Nat) ( isEntity : Bool) (parent : OpenNode) (ancestors : List OpenNode)
    (name : Text) (attributes : List (Text × Text)) ( isEmpty : Bool) :
    XmlReader (List OpenNode) := do
  let tag ← StartTag.read room parent.scope isEntity name attributes
  let node := OpenNode.ofTag name tag
  let opened ← openNode node parent ancestors
  return if isEmpty then parent.place node.toElement :: ancestors else opened

/-- Reads content into the innermost of the open nodes, up to the end of the document's root or of
the text at hand, where an entity has to be innermost again. Each construct takes at least one code
point, so the length of the text is budget enough. `readInside` reads the content of an entity's
text. -/
def readContentWith (room : Nat) (readInside : Nat → List OpenNode → XmlReader (List OpenNode)) :
    Nat → Bool → List OpenNode → XmlReader (List OpenNode)
  | _, _, [] => failure
  | 0, _, _ => failure
  | budget + 1, isEntity, node :: ancestors => do
    if node.opening = .document then return node :: ancestors
    if (← get).text.isEmpty then
      if node.opening = .entity then return node :: ancestors else failure
    match ← scan (XmlEvent.scanOne (budget + 1)) with
    | .startTag name attributes isEmpty =>
      let opened ← readStartTag room isEntity node ancestors name attributes isEmpty
      readContentWith room readInside budget isEntity opened
    | .endTag name =>
      match ancestors with
      | [] => failure
      | parent :: outer =>
        if node.opening = .tag name then
          readContentWith room readInside budget isEntity (parent.place node.toElement :: outer)
        else failure
    | .characters t =>
      readContentWith room readInside budget isEntity (node.place (.text t) :: ancestors)
    | .literal t =>
      readContentWith room readInside budget isEntity (node.place (.text t) :: ancestors)
    | .comment => readContentWith room readInside budget isEntity (node.place .aside :: ancestors)
    | .instruction target =>
      checkTarget target
      readContentWith room readInside budget isEntity (node.place .aside :: ancestors)
    | .reference name =>
      match (← docType).entity? name with
      | none => undeclared
      | some e =>
        match e.content with
        | .unparsed => failure
        | .external => pure ()
        | .replacement t =>
          if e.reading.isNone || t.isEmpty then
            let opened ← openNode (OpenNode.root .entity) node ancestors
            let (_, added) ← measure (inside t (readInside (t.length + 1) opened))
            modifyDocType fun d => d.updateEntity name fun e =>
              { e.read (Text.unifyLineEnds t) with
                isMeasured := true
                size := if e.isMeasured then e.size else added + Utf8.size t }
          spend ((((← docType).entity? name).map (·.size)).getD 0)
      readContentWith room readInside budget isEntity (node.place (.reference name) :: ancestors)

/-- Reads content with room for so many texts of entities inside one another. -/
def readContent : Nat → Nat → Bool → List OpenNode → XmlReader (List OpenNode)
  | 0 => readContentWith 0 fun _ _ => failure
  | room + 1 => readContentWith (room + 1) fun budget => readContent room budget true

end XmlReader

end MarkupGrammar
