import MarkupGrammar.Corpus.Description
import MarkupGrammar.Corpus.Particle

/-!
# The index of a corpus

A corpus lists the elements of a grammar, its macros, its classes of elements and of attributes, and
its datatypes. The index is what compilation needs of it, each collection by name. Reading stops at
the first entry that cannot be used.

A model class has as members the elements that name it, in the order of the corpus; an element that
names a class twice is in it twice, and a class that is not declared has no members.
-/

namespace MarkupGrammar

/-- The record of an element. -/
structure ElementDef (Name : Type) where
  name : Name
  documentation : Option Text
  attributeClasses : List Name
  modelClasses : List Name
  attributes : List (AttributeSpec Name)
  content : Option (List (Particle Name))

/-- A named piece of content. -/
structure MacroDef (Name : Type) where
  name : Name
  documentation : Option Text
  content : Option (List (Particle Name))

/-- A named bundle of attributes, with the classes it takes others from. -/
structure AttributeClass (Name : Type) where
  name : Name
  inherits : List Name
  attributes : List (AttributeSpec Name)
  documentation : Option Text

/-- The records of a corpus by name. -/
structure CorpusIndex (Name : Type) where
  title : Option Name
  edition : Option Name
  elements : Table Name (ElementDef Name)
  macros : Table Name (MacroDef Name)
  modelClasses : Table Name (List Name)
  attributeClasses : Table Name (AttributeClass Name)
  datatypes : Table Name (Option Text)

namespace CorpusIndex

variable {Name : Type} [BEq Name]

/-- The members of a model class; none when the class is not declared. -/
def membersOf (index : CorpusIndex Name) (modelClass : Name) : List Name :=
  (index.modelClasses.find? modelClass).getD []

/-- Adds an element to a model class that is declared. -/
def addMember (name modelClass : Name) (classes : Table Name (List Name)) :
    Table Name (List Name) :=
  classes.map fun (k, members) => (k, if k == modelClass then members ++ [name] else members)

end CorpusIndex

/-! ### Reading a corpus -/

namespace Corpus

/-- A fault met while a corpus is read. -/
def lift {α : Type} (r : Except Fault α) : Except ReadError α :=
  match r with
  | .ok a => .ok a
  | .error f => .error (.fault f)

/-- The items of a field that may be void; what a value consists of counts as its items. -/
def itemsOf (v : Json) : Except Fault (List Json) :=
  if v.isVoid then .ok [] else v.elements

/-- The entries of a collection. Each has to be an object with an identifier. -/
def checkEntries (label : String) : List Json → Except ReadError (List Json)
  | [] => .ok []
  | .object fields :: entries =>
    if ((Json.lookup (Text.ofString "ident") fields).getD .null).isVoid then
      .error (.of (.entryUnnamed label) (Text.ofString label))
    else (checkEntries label entries).map (.object fields :: ·)
  | entry :: _ => .error (.of (.entryNotAnObject label entry) (Text.ofString label))

/-- The entries of the collection under a path of keys; none when the path leads nowhere. -/
def entriesAt (corpus : Json) (path : List String) : Except ReadError (List Json) :=
  let label := ".".intercalate path
  let found := path.foldl (fun v key => (v.field? key).getD .null) corpus
  match found with
  | .null => .ok []
  | .array entries => checkEntries label entries
  | _ => .error (.of (.notAList label) (Text.ofString label))

/-- The values that an attribute's definition lists: the identifiers of the items that have one. -/
def listedValues (items : List Json) : List Json :=
  items.filterMap fun item => (item.field? "ident").bind Json.unlessVoid

/-- The datatype that an attribute's definition refers to, by key or else by name. -/
def datatypeOf (definition : Json) : Except Fault (Option Json) := do
  let datatype ← definition.get "datatype"
  if datatype.isVoid then return none
  let reference ← datatype.get "dataRef"
  if reference.isVoid then return none
  let key ← reference.get "key"
  if !key.isVoid then return some key
  let name ← reference.get "name"
  return name.unlessVoid

/-- The attribute of a definition. -/
def readAttribute (context : Text) (definition : Json) :
    Except ReadError (AttributeSpec Json) := do
  let name ← lift (definition.get "ident")
  if name.isVoid then throw (.of .attributeUnnamed context)
  let valueList ← lift (definition.get "valList")
  let (listed, isClosed) ← lift (do
    if valueList.isVoid then return ([], true)
    let items ← itemsOf (← valueList.get "valItem")
    let type := (valueList.field? "type").getD (Json.string "closed")
    return (listedValues items, type == Json.string "closed"))
  let datatype ← lift (datatypeOf definition)
  let usage ← lift (definition.get "usage")
  let fallback ← lift (definition.get "defaultVal")
  let documentation ← lift (definition.collapsedField "shortDesc")
  return {
    name
    isRequired := usage == Json.string "req"
    values := if isClosed && !listed.isEmpty then some listed else none
    defaultValue := fallback.unlessVoid
    datatype
    documentation := documentation.map Json.text
    suggested := if !isClosed && !listed.isEmpty then some listed else none }

/-- The classes of one kind that an entry names. -/
def classRefs (entry : Json) (key : String) : Except Fault (List Json) := do
  let classes ← entry.get "classes"
  if classes.isVoid then return []
  itemsOf (← classes.get key)

/-- The attributes that an entry defines. -/
def readAttributes (context : Text) (entry : Json) :
    Except ReadError (List (AttributeSpec Json)) := do
  let definitions ← lift (do itemsOf (← entry.get "attributes"))
  definitions.mapM (readAttribute context)

/-- A value that has to be usable as a name. -/
def nameKey (v : Json) : Except ReadError Json :=
  if v.isName then .ok v else .error (.fault .wrongKind)

/-- The identifier of an entry. -/
def identOf (entry : Json) : Json := (entry.field? "ident").getD .null

/-- The context of an entry in a message: what kind of entry, and its name. -/
def contextOf (kind : String) (name : Json) : Text := Text.ofString (kind ++ " ") ++ name.plain

/-- Adds the macro of an entry. -/
def addMacro (index : CorpusIndex Json) (entry : Json) : Except ReadError (CorpusIndex Json) := do
  let name := identOf entry
  let documentation ← lift entry.description
  let raw ← lift (entry.get "content")
  let content ← Particle.read (contextOf "macro" name) raw
  let key ← nameKey name
  return { index with macros := index.macros.insert key ⟨name, documentation, content⟩ }

/-- Declares the model class of an entry. -/
def addModelClass (index : CorpusIndex Json) (entry : Json) :
    Except ReadError (CorpusIndex Json) := do
  let key ← nameKey (identOf entry)
  match index.modelClasses.find? key with
  | some _ => return index
  | none => return { index with modelClasses := index.modelClasses ++ [(key, [])] }

/-- Adds the attribute class of an entry. -/
def addAttributeClass (index : CorpusIndex Json) (entry : Json) :
    Except ReadError (CorpusIndex Json) := do
  let name := identOf entry
  let inherits ← lift (classRefs entry "atts")
  let attributes ← readAttributes (contextOf "class" name) entry
  let documentation ← lift entry.description
  let key ← nameKey name
  let record : AttributeClass Json := ⟨name, inherits, attributes, documentation⟩
  return { index with attributeClasses := index.attributeClasses.insert key record }

/-- Adds the datatype of an entry. -/
def addDatatype (index : CorpusIndex Json) (entry : Json) :
    Except ReadError (CorpusIndex Json) := do
  let documentation ← lift entry.description
  let key ← nameKey (identOf entry)
  return { index with datatypes := index.datatypes.insert key documentation }

/-- Adds the element of an entry, and makes it a member of the model classes it names. -/
def addElement (index : CorpusIndex Json) (entry : Json) :
    Except ReadError (CorpusIndex Json) := do
  let name ← nameKey (identOf entry)
  if (index.elements.find? name).isSome then
    throw (.of (.duplicateElement name) (Text.ofString "elements"))
  let context := contextOf "element" name
  let modelClasses ← lift (classRefs entry "model")
  let members ← modelClasses.foldlM
    (fun members c => do return CorpusIndex.addMember name (← nameKey c) members) index.modelClasses
  let documentation ← lift entry.description
  let attributeClasses ← lift (classRefs entry "atts")
  let attributes ← readAttributes context entry
  let raw ← lift (entry.get "content")
  let content ← Particle.read context raw
  let record : ElementDef Json :=
    ⟨name, documentation, attributeClasses, modelClasses, attributes, content⟩
  return { index with
    modelClasses := members
    elements := index.elements.insert name record }

/-- Reads a corpus. The shape of every collection is checked before any entry is read. -/
def ingest (corpus : Json) : Except ReadError (CorpusIndex Json) := do
  match corpus with
  | .object _ =>
    let elements ← entriesAt corpus ["elements"]
    let modelClasses ← entriesAt corpus ["classes", "models"]
    let attributeClasses ← entriesAt corpus ["classes", "attributes"]
    let macros ← entriesAt corpus ["macros"]
    let datatypes ← entriesAt corpus ["datatypes"]
    let start : CorpusIndex Json := {
      title := (corpus.field? "title").bind Json.nameOrNone
      edition := (corpus.field? "edition").bind Json.nameOrNone
      elements := [], macros := [], modelClasses := [], attributeClasses := [], datatypes := [] }
    let index ← macros.foldlM addMacro start
    let index ← modelClasses.foldlM addModelClass index
    let index ← attributeClasses.foldlM addAttributeClass index
    let index ← datatypes.foldlM addDatatype index
    elements.foldlM addElement index
  | _ => throw (.of .notAnObject (Text.ofString "corpus"))

end Corpus

end MarkupGrammar
