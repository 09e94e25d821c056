import MarkupGrammar.Check.Conformance
import MarkupGrammar.Grammar.Schema
import MarkupGrammar.Markup.Tag

/-!
# Structure of a document

One pass over the tags of a document, with a stack of the elements that are open. An opening tag is
checked at once, against the element it stands in and for its attributes; the children of an element
are checked when it closes.

A document under the author's hands is often badly nested. A closing tag closes the nearest open
element of its name, and the elements opened since are abandoned without a word; a closing tag whose
name is not open is passed over. Elements open at the end are reported, the outermost first.
-/

namespace MarkupGrammar

variable {Name : Type} [Label Name]

/-- An element that is open: its tag, its definition if it has one, and its children so far, the
last first. -/
structure OpenTag (Name : Type) where
  name : Text
  position : Position
  spec : Option (ElementSpec Name)
  reversedChildren : List (Child Name)

namespace Schema

/-- The defect of an element's place: an element whose definition admits children admits no
others. -/
def checkNesting (parent : Option (OpenTag Name)) (tag : Tag) : List (Diagnostic Name) :=
  match parent with
  | none => []
  | some frame =>
    match frame.spec with
    | none => []
    | some spec =>
      if spec.children.isEmpty || spec.children.elem (Label.ofText tag.name) then []
      else [⟨.invalidNesting tag.name frame.name, tag.position⟩]

/-- Whether an attribute declares a namespace, which any element may do. -/
def isNamespaceDeclaration (name : Text) : Bool :=
  name = Text.ofString "xmlns" || Text.startsWith (Text.ofString "xmlns:") name

/-- The defect of one attribute of a tag. -/
def checkAttribute (declared : List (AttributeSpec Name)) (tag : Tag) (attr : Attribute) :
    List (Diagnostic Name) :=
  if isNamespaceDeclaration attr.name then []
  else
    match declared.find? fun a => a.name == Label.ofText attr.name with
    | none => [⟨.unknownAttribute attr.name tag.name, attr.position⟩]
    | some spec =>
      match spec.values, attr.value with
      | some (v :: vs), some (c :: value) =>
        if (v :: vs).elem (Label.ofText (c :: value)) then []
        else [⟨.invalidValue (c :: value) attr.name (v :: vs), attr.position⟩]
      | _, _ => []

/-- The defects of a tag's attributes: first of each that is there, then each that is missing. -/
def checkAttributes (s : Schema Name) (tag : Tag) : List (Diagnostic Name) :=
  let declared := s.attributesOf (Label.ofText tag.name)
  let missing := declared.filter fun a =>
    a.isRequired && !tag.attributes.any fun b => a.name == Label.ofText b.name
  tag.attributes.flatMap (checkAttribute declared tag)
    ++ missing.map fun a => ⟨.missingAttribute a.name tag.name, tag.position⟩

/-- The defects of an opening or self-closing tag inside `parent`. -/
def checkOpening (s : Schema Name) (parent : Option (OpenTag Name)) (tag : Tag) :
    List (Diagnostic Name) :=
  match s.element? (Label.ofText tag.name) with
  | none => [⟨.unknownElement tag.name, tag.position⟩]
  | some _ => checkNesting parent tag ++ s.checkAttributes tag

/-- The defect of a tag that closes itself: its element may require children. -/
def checkSelfClosing (spec : Option (ElementSpec Name)) (tag : Tag) : List (Diagnostic Name) :=
  match spec.bind ElementSpec.model? with
  | none => []
  | some m =>
    if m.arrangement = .empty then []
    else
      match m.requiredChildren with
      | [] => []
      | c :: cs => [⟨.selfClosing tag.name (c :: cs), tag.position⟩]

/-- The defects of an element's children, which are all there when it closes. -/
def checkClosing (frame : OpenTag Name) : List (Diagnostic Name) :=
  match frame.spec.bind ElementSpec.model? with
  | none => []
  | some m =>
    let children := frame.reversedChildren.reverse
    let missing := m.requiredChildren.filter fun name => !children.any fun c => c.name == name
    m.check frame.name children
      ++ missing.map fun name => ⟨.missingChild frame.name name, frame.position⟩

end Schema

/-- The elements that are open, the innermost first. -/
abbrev OpenTags (Name : Type) := List (OpenTag Name)

namespace OpenTags

/-- Records a child of the innermost element. -/
def addChild (tag : Tag) : OpenTags Name → OpenTags Name
  | [] => []
  | frame :: frames =>
    { frame with
      reversedChildren := ⟨Label.ofText tag.name, tag.position⟩ :: frame.reversedChildren } :: frames

/-- The nearest open element of a name, and the elements that it stands in. -/
def closeTo (name : Text) : OpenTags Name → Option (OpenTag Name × OpenTags Name)
  | [] => none
  | frame :: frames => if frame.name = name then some (frame, frames) else closeTo name frames

end OpenTags

namespace Schema

/-- The open elements and the defects after one more tag. -/
def step (s : Schema Name) (stack : OpenTags Name) (tag : Tag) :
    OpenTags Name × List (Diagnostic Name) :=
  match tag.kind with
  | .closing =>
    match stack.closeTo tag.name with
    | none => (stack, [])
    | some (frame, rest) => (rest, checkClosing frame)
  | .opening =>
    let spec := s.element? (Label.ofText tag.name)
    (⟨tag.name, tag.position, spec, []⟩ :: stack.addChild tag, s.checkOpening stack.head? tag)
  | .selfClosing =>
    let spec := s.element? (Label.ofText tag.name)
    (stack.addChild tag, s.checkOpening stack.head? tag ++ checkSelfClosing spec tag)

/-- The defects of a run of tags that begins inside the elements of `stack`. -/
def walk (s : Schema Name) : OpenTags Name → List Tag → List (Diagnostic Name)
  | stack, [] => stack.reverse.map fun frame => ⟨.unclosed frame.name, frame.position⟩
  | stack, tag :: tags => (s.step stack tag).2 ++ walk s (s.step stack tag).1 tags

/-- The defects of a document's tags. -/
def checkTags (s : Schema Name) (tags : List Tag) : List (Diagnostic Name) := s.walk [] tags

/-- The defects of a document's structure. -/
def checkStructure (s : Schema Name) (document : Text) : List (Diagnostic Name) :=
  s.checkTags (Tag.ofText document)

end Schema

end MarkupGrammar
