import MarkupGrammar.Yaml.Tag
import MarkupGrammar.Yaml.Token

/-!
# Nodes of YAML

The tokens of a text make one document at most, and a document is a tree of scalars, sequences and
mappings, each with its tag. An alias stands for the whole node that its anchor names; so it cannot
stand inside of it, and an anchor names one node only.

Each rule of the grammar looks at one token. Its budget bounds the depth of the recursion: each
token is taken by one rule, and between two tokens the rules call each other a few times at most.
-/

namespace MarkupGrammar

namespace Yaml

/-- A node of a document. -/
inductive Node where
  | scalar (tag : Tag) (t : Text)
  | sequence (tag : Tag) (items : List Node)
  | mapping (tag : Tag) (entries : List (Node × Node))

namespace Node

instance : Inhabited Node := ⟨.scalar .null []⟩

/-- The node that stands where nothing is written. -/
def empty : Node := .scalar .null []

/-- The tag of a node. -/
def tag : Node → Tag
  | .scalar tag _ => tag
  | .sequence tag _ => tag
  | .mapping tag _ => tag

end Node

/-- How far a document has been read. An anchor whose node is not whole yet names nothing. -/
structure Progress where
  tokens : List Token
  anchors : List (Text × Option Node)

/-- Takes something from the front of the tokens, or fails. -/
abbrev Parsing := StateT Progress (Except YamlError)

namespace Parsing

/-- Fails at the next token. What is wrong with the text there counts first. -/
def fail {α : Type} : Parsing α := do
  match (← get).tokens with
  | .flaw e :: _ => throw e
  | _ => throw .malformed

/-- Whether one of some marks comes next. -/
def sees (marks : List Mark) : Parsing Bool := do
  match (← get).tokens with
  | .mark m :: _ => return marks.contains m
  | _ => return false

/-- Passes over a mark if it comes next; says whether it did. -/
def accept (m : Mark) : Parsing Bool := do
  let p ← get
  match p.tokens with
  | .mark m' :: rest =>
    if m = m' then set { p with tokens := rest }
    return m = m'
  | _ => return false

/-- Takes the next token if something is made of it. -/
def take? {α : Type} (f : Token → Option α) : Parsing (Option α) := do
  let p ← get
  match p.tokens with
  | [] => return none
  | t :: rest =>
    match f t with
    | none => return none
    | some x =>
      set { p with tokens := rest }
      return some x

/-- The name of an anchor. -/
def anchor? : Parsing (Option Text) :=
  take? fun t =>
    match t with
    | .anchor name => some name
    | _ => none

/-- A tag, as it is written. -/
def tag? : Parsing (Option (Option Text × Text)) :=
  take? fun t =>
    match t with
    | .tag handle rest => some (handle, rest)
    | _ => none

/-- An anchor and a tag, in any order, where there are such. -/
def properties : Parsing (Option Text × Option (Option Text × Text)) := do
  match ← anchor? with
  | some name => return (some name, ← tag?)
  | none =>
    match ← tag? with
    | none => return (none, none)
    | some tag => return (← anchor?, some tag)

/-! ### Anchors and tags -/

/-- The node of an alias. -/
def nodeOf (name : Text) : Parsing Node := do
  match (← get).anchors.lookup name with
  | some (some n) => return n
  | _ => throw .malformed

/-- Keeps an anchor for a node that begins. -/
def openAnchor (name : Text) : Parsing Unit := do
  let p ← get
  if (p.anchors.lookup name).isSome then throw .malformed
  set { p with anchors := (name, none) :: p.anchors }

/-- Lets an anchor name its node, which is whole now. -/
def closeAnchor (name : Text) (n : Node) : Parsing Unit :=
  modify fun p => { p with anchors := (name, some n) :: p.anchors }

/-- What handles stand for. -/
abbrev Handles := List (Text × Text)

/-- The handles of every document. -/
def Handles.standard : Handles :=
  [(Text.ofString "!", Text.ofString "!"), (Text.ofString "!!", Text.ofString "tag:yaml.org,2002:")]

/-- The address of a tag; nothing for the tag that leaves the choice to the form. -/
def addressOf (handles : Handles) (tag : Option Text × Text) : Parsing (Option Text) := do
  let (handle, rest) := tag
  let whole ←
    match handle with
    | none => pure rest
    | some handle =>
      match handles.lookup handle with
      | some beginning => pure (beginning ++ rest)
      | none => throw .malformed
  return if whole = Text.ofString "!" then none else some whole

/-- What is said of a node before it. -/
structure Said where
  /-- Whether there is a tag. -/
  hasTag : Bool
  /-- The address of the tag, unless it leaves the choice to the form. -/
  address : Option Text

/-- The tag of a collection. -/
def Said.collection (said : Said) (default : Tag) : Tag :=
  (said.address.map Tag.ofAddress).getD default

/-- The node of a scalar. Its form decides on its tag when it is plain, and when the tag says so. -/
def Said.scalar (said : Said) (isPlain : Bool) (t : Text) : Node :=
  match said.address with
  | some address => .scalar (Tag.ofAddress address) t
  | none => .scalar (if isPlain || said.hasTag then Tag.ofPlain t else .text) t

/-! ### The grammar -/

/-- Where a node stands. -/
inductive Position where
  /-- Within brackets. -/
  | flow
  /-- In a block. -/
  | block
  /-- As a key or a value in a block, where a sequence may begin without being indented. -/
  | entry
deriving DecidableEq

/-- The greatest number of collections that a node stands in. -/
def deepest : Nat := 487

mutual

/-- Reads a node, with some levels left for collections. -/
def node (handles : Handles) : Nat → Nat → Position → Parsing Node
  | 0, _, _ => fail
  | budget + 1, levels, position => do
    match ← take? fun t => match t with | .alias name => some name | _ => none with
    | some name => nodeOf name
    | none =>
      let (anchor, tag) ← properties
      let address ←
        match tag with
        | some tag => addressOf handles tag
        | none => pure none
      match anchor with
      | none => content handles budget levels position false ⟨tag.isSome, address⟩
      | some name =>
        openAnchor name
        let n ← content handles budget levels position true ⟨tag.isSome, address⟩
        closeAnchor name n
        return n

/-- Reads what a node consists of. It may be nothing when something is said of the node. -/
def content (handles : Handles) : Nat → Nat → Position → Bool → Said → Parsing Node
  | 0, _, _, _, _ => fail
  | budget + 1, levels, position, hasAnchor, said => do
    let found ← take? fun t => match t with | .scalar isPlain t => some (isPlain, t) | _ => none
    if let some (isPlain, t) := found then return said.scalar isPlain t
    let isItems := position = .entry && (← sees [.item])
    let isBlock := position != .flow && (← sees [.blockSequence, .blockMapping])
    let isFlow ← sees [.flowSequence, .flowMapping]
    if !(isItems || isBlock || isFlow) then
      if hasAnchor || said.hasTag then return said.scalar true []
      fail
    match levels with
    | 0 => throw .tooDeep
    | levels + 1 =>
      if isItems then
        return .sequence (said.collection .sequence) (← items handles budget levels true)
      else if ← accept .blockSequence then
        return .sequence (said.collection .sequence) (← items handles budget levels false)
      else if ← accept .blockMapping then
        return .mapping (said.collection .mapping) (← entries handles budget levels)
      else if ← accept .flowSequence then
        return .sequence (said.collection .sequence) (← flowItems handles budget levels true)
      else if ← accept .flowMapping then
        return .mapping (said.collection .mapping) (← flowEntries handles budget levels true)
      else fail

/-- Reads a node that is empty if one of some marks comes next. -/
def nodeUnless (handles : Handles) : Nat → Nat → Position → List Mark → Parsing Node
  | 0, _, _, _ => fail
  | budget + 1, levels, position, marks => do
    if ← sees marks then return Node.empty
    node handles budget levels position

/-- Reads the items of a sequence in a block. One that is not indented ends without a mark. -/
def items (handles : Handles) : Nat → Nat → Bool → Parsing (List Node)
  | 0, _, _ => fail
  | budget + 1, levels, isOpen => do
    if ← accept .item then
      let n ← nodeUnless handles budget levels .block
        (if isOpen then [.item, .key, .value, .blockEnd] else [.item, .blockEnd])
      return n :: (← items handles budget levels isOpen)
    if isOpen then return []
    if ← accept .blockEnd then return []
    fail

/-- Reads the entries of a mapping in a block. -/
def entries (handles : Handles) : Nat → Nat → Parsing (List (Node × Node))
  | 0, _ => fail
  | budget + 1, levels => do
    let ends := [Mark.key, .value, .blockEnd]
    if ← accept .key then
      let k ← nodeUnless handles budget levels .entry ends
      let v ←
        if ← accept .value then nodeUnless handles budget levels .entry ends
        else pure Node.empty
      return (k, v) :: (← entries handles budget levels)
    if ← accept .blockEnd then return []
    fail

/-- Reads a key within brackets, whose mark has been passed, and its value. -/
def flowEntry (handles : Handles) : Nat → Nat → Mark → Parsing (Node × Node)
  | 0, _, _ => fail
  | budget + 1, levels, close => do
    let k ← nodeUnless handles budget levels .flow [.value, .comma, close]
    let v ←
      if ← accept .value then nodeUnless handles budget levels .flow [.comma, close]
      else pure Node.empty
    return (k, v)

/-- Reads the items of a sequence within brackets. A single entry among them is a mapping. -/
def flowItems (handles : Handles) : Nat → Nat → Bool → Parsing (List Node)
  | 0, _, _ => fail
  | budget + 1, levels, isFirst => do
    if ← accept .flowSequenceEnd then return []
    if !isFirst then
      if !(← accept .comma) then fail
    if ← accept .key then
      match levels with
      | 0 => throw .tooDeep
      | inner + 1 =>
        let entry ← flowEntry handles budget inner .flowSequenceEnd
        return .mapping .mapping [entry] :: (← flowItems handles budget levels false)
    if ← accept .flowSequenceEnd then return []
    let n ← node handles budget levels .flow
    return n :: (← flowItems handles budget levels false)

/-- Reads the entries of a mapping within braces. A node without a colon is a key. -/
def flowEntries (handles : Handles) : Nat → Nat → Bool → Parsing (List (Node × Node))
  | 0, _, _ => fail
  | budget + 1, levels, isFirst => do
    if ← accept .flowMappingEnd then return []
    if !isFirst then
      if !(← accept .comma) then fail
    if ← accept .key then
      let entry ← flowEntry handles budget levels .flowMappingEnd
      return entry :: (← flowEntries handles budget levels false)
    if ← accept .flowMappingEnd then return []
    let k ← node handles budget levels .flow
    return (k, Node.empty) :: (← flowEntries handles budget levels false)

end

/-! ### Documents -/

/-- The directives before a document. -/
def directives : List Token → List Directive × List Token
  | .directive d :: rest =>
    let (ds, rest) := directives rest
    (d :: ds, rest)
  | tokens => ([], tokens)

/-- The handles that directives declare. Each is declared once, and so is the version, which has to
begin with one. -/
def handlesOf (ds : List Directive) : Option Handles :=
  let versions := ds.filterMap fun d => match d with | .version n => some n | _ => none
  let handles := ds.filterMap fun d => match d with | .handle h start => some (h, start) | _ => none
  let isUnique := (handles.map fun (h, _) => h).eraseDups.length = handles.length
  if (versions = [] || versions = [1]) && isUnique then some (handles ++ Handles.standard) else none

/-- Passes over the marks of a document's end. -/
def documentEnds : List Token → List Token
  | .mark .documentEnd :: rest => documentEnds rest
  | tokens => tokens

/-- Reads the node of the only document; nothing when there is none. -/
def document : Parsing (Option Node) := do
  let budget := 4 * (← get).tokens.length + 8
  if ← sees [.textEnd] then return none
  let (ds, rest) := directives (← get).tokens
  modify fun p => { p with tokens := rest }
  let root ←
    if ← accept .documentStart then
      let some handles := handlesOf ds | throw .malformed
      nodeUnless handles budget deepest .block [.documentStart, .documentEnd, .textEnd]
    else if ds.isEmpty then node Handles.standard budget deepest .block
    else fail
  modify fun p => { p with tokens := documentEnds p.tokens }
  if ← accept .textEnd then return some root
  fail

end Parsing

/-- The node that the tokens of a text make; nothing when there is no document. -/
def Node.ofTokens (tokens : List Token) : Except YamlError (Option Node) :=
  (Parsing.document.run ⟨tokens, []⟩).map fun (root, _) => root

end Yaml

end MarkupGrammar
