import MarkupGrammar.Text.Basic

/-!
# Trees of XML documents

A tree has elements with attributes, and text. Comments and instructions are kept, because they part
the text beside them; so are references to entities. A name whose prefix is bound to no namespace
is kept as it is written, colon and all, and is in no namespace.
-/

namespace MarkupGrammar

/-- A name with the namespace it is bound to. -/
structure ExpandedName where
  space : Text
  stem : Text
deriving DecidableEq

/-- An attribute of an element of a tree. -/
structure XmlAttribute where
  name : ExpandedName
  value : Text
deriving DecidableEq

/-- A node of a document's tree. -/
inductive XmlNode where
  | element (name : ExpandedName) (attributes : List XmlAttribute) (children : List XmlNode)
  | text (t : Text)
  | reference (entity : Text)
  | aside

namespace XmlNode

/-- The value of an attribute that is in no namespace. -/
def attribute? (key : String) : XmlNode → Option Text
  | .element _ attributes _ =>
    (attributes.find? fun a => a.name = ⟨[], Text.ofString key⟩).map (·.value)
  | _ => none

/-- The children of an element. -/
def children : XmlNode → List XmlNode
  | .element _ _ children => children
  | _ => []

end XmlNode

end MarkupGrammar
