import MarkupGrammar.RelaxNg.Pattern
import MarkupGrammar.Text.Blank
import MarkupGrammar.Xml.Document

/-!
# RELAX NG in XML syntax

A grammar is read from an XML document. Elements and definitions count wherever they stand in it,
and only elements of the RELAX NG namespace are patterns. Descriptions may be in any namespace.
-/

namespace MarkupGrammar

namespace RelaxNg

/-- The namespace of RELAX NG. -/
def space : Text := Text.ofString "http://relaxng.org/ns/structure/1.0"

/-- The name of a node in the namespace of RELAX NG. -/
def patternName? : XmlNode → Option Text
  | .element name _ _ => if name.space = space then some name.stem else none
  | _ => none

/-- Whether a node is the RELAX NG element with a name. -/
def isNamed (name : String) (node : XmlNode) : Bool :=
  patternName? node = some (Text.ofString name)

mutual

/-- A node and all nodes inside it, in the order of the document. -/
def nodes : XmlNode → List XmlNode
  | .element name attributes children =>
    .element name attributes children :: nodesOfAll children
  | node => [node]

/-- The nodes of a list and all nodes inside them. -/
def nodesOfAll : List XmlNode → List XmlNode
  | [] => []
  | node :: rest => nodes node ++ nodesOfAll rest

end

mutual

/-- The text inside a node. A reference to an entity stands for itself. -/
def innerText : XmlNode → Text
  | .element _ _ children => innerTextOfAll children
  | .text t => t
  | .reference entity => Text.ofString "&" ++ entity ++ Text.ofString ";"
  | .aside => []

/-- The text inside the nodes of a list. -/
def innerTextOfAll : List XmlNode → Text
  | [] => []
  | node :: rest => innerText node ++ innerTextOfAll rest

end

/-- The text at the beginning of an element, up to its first child of another kind. -/
def leadingText : List XmlNode → Text
  | .text t :: rest => t ++ leadingText rest
  | _ => []

/-- A text that is not empty. -/
def unlessEmpty (t : Text) : Option Text := if t.isEmpty then none else some t

/-- The name of a node that cannot be named, because a colon is left in its name. -/
def misnamed? : XmlNode → Option Text
  | .element name _ _ => if name.stem.contains (CodePoint.ofChar ':') then some name.stem else none
  | _ => none

/-- Whether a node describes the node it stands in. -/
def isDescription : XmlNode → Bool
  | .element name _ _ =>
    name.stem = Text.ofString "documentation" || name.stem = Text.ofString "desc"
  | _ => false

/-- The description of a node: what its first child of that kind says. -/
def documentation (node : XmlNode) : Option Text :=
  (node.children.find? isDescription).bind fun d => unlessEmpty (Text.trim (innerText d))

/-- The name of a child that cannot be named and stands before the description. -/
def obstacle (node : XmlNode) : Option Text :=
  (node.children.takeWhile fun child => !isDescription child).findSome? misnamed?

/-- The value of a `name` attribute; the empty name is none. -/
def nameOf (node : XmlNode) : Text := (node.attribute? "name").getD []

/-- What the node of an attribute pattern says. -/
def attributePattern (node : XmlNode) : AttributePattern :=
  let inside := nodes node
  { name := nameOf node
    values := (inside.filter (isNamed "value")).filterMap fun v =>
      unlessEmpty (Text.trim (leadingText v.children))
    datatype := (inside.find? (isNamed "data")).bind fun d => d.attribute? "type"
    documentation := documentation node
    obstacle := obstacle node }

mutual

/-- The pattern of a node, if it is one or cannot be named. -/
def pattern? : XmlNode → Option Pattern
  | .element name attributes children =>
    let node := XmlNode.element name attributes children
    let is (word : String) : Bool := name.stem = Text.ofString word
    if let some name := misnamed? node then some (.misnamed name)
    else if name.space != space then none
    else if is "element" then some (.element (nameOf node))
    else if is "attribute" then some (.attr (attributePattern node))
    else if is "documentation" || is "desc" then some .commentary
    else if is "text" then some .text
    else if is "data" || is "value" || is "list" then some .data
    else if is "empty" then some .empty
    else if is "choice" then some (.combine .choice (patterns children))
    else if is "interleave" then some (.combine .interleave (patterns children))
    else if is "group" then some (.combine .group (patterns children))
    else if is "mixed" then some (.combine .mixed (patterns children))
    else if is "optional" then some (.occurs .optional (patterns children))
    else if is "zeroOrMore" then some (.occurs .zeroOrMore (patterns children))
    else if is "oneOrMore" then some (.occurs .oneOrMore (patterns children))
    else if is "ref" then some (.ref (nameOf node))
    else some .other
  | _ => none

/-- The patterns among nodes. -/
def patterns : List XmlNode → List Pattern
  | [] => []
  | node :: rest =>
    match pattern? node with
    | none => patterns rest
    | some p => p :: patterns rest

end

/-- Adds a definition unless its name is empty or taken. -/
def addDefine (defines : Table Text (List Pattern)) (node : XmlNode) : Table Text (List Pattern) :=
  let name := nameOf node
  if name.isEmpty || (defines.find? name).isSome then defines
  else defines ++ [(name, patterns node.children)]

/-- The grammar of a document. -/
def ofXml (root : XmlNode) : RngGrammar :=
  let all := nodes root
  { elements := (all.filter (isNamed "element")).map fun node =>
      ⟨nameOf node, documentation node, obstacle node, patterns node.children⟩
    defines := (all.filter (isNamed "define")).foldl addDefine [] }

end RelaxNg

end MarkupGrammar
