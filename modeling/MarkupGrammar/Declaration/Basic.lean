import MarkupGrammar.Json.Basic
import MarkupGrammar.Text.Case

/-!
# Schema declarations

A document may say which schema it follows, in a processing instruction or in its document type.
What follows from such a declaration is read off its reference alone: the format by the file's
extension, and whether the schema lies beside the document or on the web.
-/

namespace MarkupGrammar

/-- Where a document declares a schema. -/
inductive DeclarationKind where
  | xmlModel
  | docType
deriving DecidableEq

namespace DeclarationKind

def word : DeclarationKind → String
  | .xmlModel => "xml-model"
  | .docType => "doctype"

end DeclarationKind

/-- The languages that schemas are written in. -/
inductive SchemaFormat where
  | rng
  | dtd
  | xsd
  | rnc
  | unknown
deriving DecidableEq

namespace SchemaFormat

def word : SchemaFormat → String
  | .rng => "rng"
  | .dtd => "dtd"
  | .xsd => "xsd"
  | .rnc => "rnc"
  | .unknown => "unknown"

/-- The format of a file, by its extension in any case. -/
def ofReference (href : Text) : SchemaFormat :=
  let known := [rng, dtd, xsd, rnc]
  (known.find? fun f => Text.endsWith (Text.ofString ("." ++ f.word)) href.lower).getD .unknown

/-- Why schemas of a format cannot be imported, if they cannot. Nothing is held against a format
that is not known. -/
def objection? : SchemaFormat → Option String
  | .dtd => some "DTD schemas are not supported"
  | .xsd => some "XSD schemas are not supported"
  | .rnc => some "Compact RELAX NG (RNC) is not supported"
  | .rng => none
  | .unknown => none

end SchemaFormat

/-- A declaration: what it refers to, and its own text. -/
structure SchemaDeclaration where
  kind : DeclarationKind
  href : Text
  declaration : Text
deriving DecidableEq

namespace SchemaDeclaration

/-- The format of the schema. -/
def format (d : SchemaDeclaration) : SchemaFormat := SchemaFormat.ofReference d.href

/-- Whether the schema is not on the web. -/
def isLocal (d : SchemaDeclaration) : Bool :=
  !Text.startsWith (Text.ofString "http://") d.href
    && !Text.startsWith (Text.ofString "https://") d.href

/-- The warning about a declaration whose format cannot be imported. -/
def warning? (d : SchemaDeclaration) : Option Text :=
  d.format.objection?.map fun objection => Text.ofString (objection ++ ": ") ++ d.href

/-- A declaration as a JSON value. -/
def toJson (d : SchemaDeclaration) : Json :=
  Json.ofFields
    [("type", .string d.kind.word), ("href", .text d.href), ("format", .string d.format.word),
     ("isLocal", .bool d.isLocal), ("declaration", .text d.declaration)]

end SchemaDeclaration

/-- What the declarations of a document mean for loading its grammar. -/
structure DeclarationAnalysis where
  warnings : List Text
  localSchemas : List SchemaDeclaration

namespace DeclarationAnalysis

/-- Analyses the declarations of a document. -/
def ofDeclarations (declarations : List SchemaDeclaration) : DeclarationAnalysis where
  warnings := declarations.filterMap SchemaDeclaration.warning?
  localSchemas := declarations.filter SchemaDeclaration.isLocal

/-- Whether some schema is in a format that cannot be imported. -/
def hasUnsupportedFormat (a : DeclarationAnalysis) : Bool := !a.warnings.isEmpty

/-- Whether some schema is not on the web. -/
def hasLocalSchema (a : DeclarationAnalysis) : Bool := !a.localSchemas.isEmpty

end DeclarationAnalysis

end MarkupGrammar
