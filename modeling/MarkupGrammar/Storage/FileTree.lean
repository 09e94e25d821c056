import MarkupGrammar.Grammar.Label
import MarkupGrammar.Storage.Path
import MarkupGrammar.Text.Utf8

/-!
# Files

A tree of text files and directories around a working directory. Every operation is a function on
the tree, so what a program did to its files is a value. A location is a list of components, the
innermost first, in which two points stand only at the far end: the working directory is the empty
list, and a location outside of it begins with two points or with a slash.

A path leads to a location only through directories that exist. What two points mean is decided on
the way, and so is whether a component is too long to be looked up. A path that cannot be handed
over at all leads nowhere, whatever files there are.
-/

namespace MarkupGrammar

/-- Why a path cannot be used. -/
inductive FileProblem where
  | missing
  | alreadyThere
  | notADirectory
  | isADirectory
  | nameTooLong
  /-- The path holds a null character, which would end it. -/
  | nullInPath
  /-- The path holds a lone surrogate, which has no encoding. -/
  | unencodable
deriving DecidableEq

namespace FileProblem

/-- The number that the files give a problem; one with the path itself never reaches them. -/
def number? : FileProblem → Option Nat
  | .missing => some 2
  | .alreadyThere => some 17
  | .notADirectory => some 20
  | .isADirectory => some 21
  | .nameTooLong => some 36
  | .nullInPath => none
  | .unencodable => none

/-- The wording of a problem. -/
def wording : FileProblem → String
  | .missing => "No such file or directory"
  | .alreadyThere => "File exists"
  | .notADirectory => "Not a directory"
  | .isADirectory => "Is a directory"
  | .nameTooLong => "File name too long"
  | .nullInPath => "embedded null byte"
  | .unencodable => "surrogates not allowed"

end FileProblem

/-- Where something is, the innermost component first. -/
abbrev Location := List Text

/-- What a location holds. -/
inductive FileNode where
  | file (content : Text)
  | directory

/-- Files by location, and the directories that have been made. -/
structure FileTree where
  files : Table Location Text
  directories : List Location

namespace FileTree

/-- No files in an empty working directory. -/
def empty : FileTree := ⟨[], []⟩

/-- Whether a location is outside the working directory and the files of the program. -/
def isBase : Location → Bool
  | [] => true
  | [part] => part = [Path.slash] || part = Path.up
  | part :: rest => part = Path.up && isBase rest

/-- What is at a location. -/
def node? (t : FileTree) (location : Location) : Option FileNode :=
  match t.files.find? location with
  | some content => some (.file content)
  | none => if isBase location || t.directories.elem location then some .directory else none

/-- The location that one more component leads to. -/
def step (location : Location) (part : Text) : Location :=
  if part = Path.up then
    match location with
    | [] => [Path.up]
    | last :: rest =>
      if last = Path.up then Path.up :: location
      else if last = [Path.slash] then location
      else rest
  else part :: location

/-- The greatest number of octets in a component that can be looked up. -/
def longestName : Nat := 255

/-- The greatest number of octets in a path. -/
def longestPath : Nat := 4095

/-- The location that components lead to from a location. Whatever a component is looked up in has
to be a directory. -/
def follow (t : FileTree) (location : Location) : List Text → Except FileProblem Location
  | [] => .ok location
  | part :: parts =>
    match t.node? location with
    | none => .error .missing
    | some (.file _) => .error .notADirectory
    | some .directory =>
      if longestName < Utf8.size part then .error .nameTooLong
      else follow t (step location part) parts

/-- The location that a path begins at. -/
def baseOf (p : Path) : Location := if p.root.isEmpty then [] else [[Path.slash]]

/-- Whether a code point has no encoding in a path. The surrogates from DC80 to DCFF have one: they
stand for octets that begin no code point. -/
def isUnencodable (c : CodePoint) : Bool := c.isSurrogate && !c.within [(0xDC80, 0xDCFF)]

/-- What is wrong with a path by itself. -/
def problem? (p : Path) : Option FileProblem :=
  let t := p.toText
  if t.any isUnencodable then some .unencodable
  else if t.any fun c => c.val = 0 then some .nullInPath
  else if longestPath < Utf8.size t then some .nameTooLong
  else none

/-- The location that a path leads to. -/
def locate (t : FileTree) (p : Path) : Except FileProblem Location :=
  match problem? p with
  | some problem => .error problem
  | none => t.follow (baseOf p) p.parts

/-- Whether there is a file or directory under a path. A name that is too long is no answer. -/
def has (t : FileTree) (p : Path) : Except FileProblem Bool :=
  match t.locate p with
  | .error .nameTooLong => .error .nameTooLong
  | .error _ => .ok false
  | .ok location => .ok (t.node? location).isSome

/-- The content of a file. -/
def read (t : FileTree) (p : Path) : Except FileProblem Text := do
  match t.node? (← t.locate p) with
  | none => throw .missing
  | some .directory => throw .isADirectory
  | some (.file content) => return content

/-- Writes a file, in place of the one that is there. -/
def write (t : FileTree) (p : Path) (content : Text) : Except FileProblem FileTree := do
  let location ← t.locate p
  match t.node? location with
  | some .directory => throw .isADirectory
  | _ => return { t with files := t.files.insert location content }

/-- Removes a file. -/
def delete (t : FileTree) (p : Path) : Except FileProblem FileTree := do
  let location ← t.locate p
  match t.node? location with
  | none => throw .missing
  | some .directory => throw .isADirectory
  | some (.file _) => return { t with files := t.files.filter fun (key, _) => key != location }

/-- Makes one directory in a directory that exists, unless it is there already. -/
def makeDirectory (t : FileTree) (p : Path) : Except FileProblem FileTree := do
  let location ← t.locate p
  match t.node? location with
  | none => return { t with directories := t.directories ++ [location] }
  | some .directory => return t
  | some (.file _) => throw .alreadyThere

/-- Makes a directory, given by its components from last to first, and those that it lies in. A
problem comes with the path of the directory that could not be made. -/
def makeDirectoriesFrom (t : FileTree) (root : Text) :
    List Text → Except (FileProblem × Path) FileTree
  | [] => .ok t
  | part :: parts =>
    let p : Path := ⟨root, (part :: parts).reverse⟩
    match t.makeDirectory p with
    | .ok t => .ok t
    | .error .missing => do
      let t ← makeDirectoriesFrom t root parts
      (t.makeDirectory p).mapError fun problem => (problem, p)
    | .error problem => .error (problem, p)

/-- Makes a directory and those that it lies in, as far as they are not there. -/
def makeDirectories (t : FileTree) (p : Path) : Except (FileProblem × Path) FileTree :=
  t.makeDirectoriesFrom p.root p.parts.reverse

/-- Writes a file and makes the directories it lies in. -/
def place (t : FileTree) (p : Path) (content : Text) : Except (FileProblem × Path) FileTree := do
  let t ← t.makeDirectories p.parent
  (t.write p content).mapError fun problem => (problem, p)

/-- The path of a location in the working directory. -/
def pathInside? (location : Location) : Option Text :=
  match location.getLast? with
  | none => none
  | some last =>
    if last = Path.up || last = [Path.slash] then none
    else some (Text.join [Path.slash] location.reverse)

/-- The files of the working directory, each with its path. -/
def entries (t : FileTree) : List (Text × Text) :=
  t.files.filterMap fun (location, content) =>
    (pathInside? location).map fun path => (path, content)

end FileTree

end MarkupGrammar
