import MarkupGrammar.Grammar.Failure
import MarkupGrammar.Grammar.Label
import MarkupGrammar.Grammar.Schema

/-!
# Content particles

A corpus describes the content of elements and macros by trees of particles. A particle groups
others, or refers to an element, a class or a macro by its key. An unknown type of particle is kept
as a particle that stands for nothing, whatever its bounds and content may be.
-/

namespace MarkupGrammar

/-- The kinds of particles. -/
inductive ParticleKind where
  | sequence
  | alternate
  | interleave
  | elementRef
  | classRef
  | macroRef
  | textNode
  | empty
  | unsupported
deriving DecidableEq

namespace ParticleKind

/-- The word for a kind in a corpus. -/
def word : ParticleKind → String
  | .sequence => "sequence"
  | .alternate => "alternate"
  | .interleave => "interleave"
  | .elementRef => "elementRef"
  | .classRef => "classRef"
  | .macroRef => "macroRef"
  | .textNode => "textNode"
  | .empty => "empty"
  | .unsupported => "unsupported"

/-- The kinds, in the order in which they are declared. -/
def all : List ParticleKind :=
  [.sequence, .alternate, .interleave, .elementRef, .classRef, .macroRef, .textNode, .empty,
   .unsupported]

/-- The kind with a word. -/
def ofWord? (v : Json) : Option ParticleKind :=
  v.text?.bind fun t => all.find? fun k => Text.ofString k.word = t

/-- The shape that a particle of this kind gives an element's content, if it tells. -/
def shape? : ParticleKind → Option ContentShape
  | .sequence => some .sequence
  | .alternate => some .choice
  | .interleave => some .interleave
  | .textNode => some .mixed
  | .empty => some .empty
  | _ => none

end ParticleKind

/-- A content particle. -/
structure Particle (Name : Type) where
  kind : ParticleKind
  key : Option Name
  bounds : Bounds
  content : List (Particle Name)

namespace Particle

variable {Name : Type}

/-- The particle that stands for one of an unknown type. -/
def opaqueOf (type : Option Name) : Particle Name := ⟨.unsupported, type, Bounds.once, []⟩

/-! ### Shape -/

/-- The shape that the first telling particle of a list gives. -/
def tellingShape? (particles : List (Particle Name)) : Option ContentShape :=
  particles.findSome? fun p => p.kind.shape?

mutual

/-- The shape of content: what the first telling particle says, else what the first particle with
telling content says. Content without particles is empty, but an empty nested particle tells
nothing. -/
def shape? : List (Particle Name) → Option ContentShape
  | [] => some .empty
  | p :: ps =>
    match tellingShape? (p :: ps) with
    | some shape => some shape
    | none => nestedShape? (p :: ps)

/-- The shape that the content of one of the particles tells. -/
def nestedShape? : List (Particle Name) → Option ContentShape
  | [] => none
  | ⟨_, _, _, content⟩ :: ps =>
    match shape? content with
    | none => nestedShape? ps
    | some .empty => nestedShape? ps
    | some shape => some shape

end

end Particle

/-! ### Reading particles -/

/-- The name under a key; null names nothing. -/
def Json.nameOrNone (v : Json) : Option Json :=
  match v with
  | .null => none
  | v => some v

/-- An occurrence bound as a corpus writes it. Where it is missing it is one; only an upper bound
may be unlimited. -/
def readOccurs (context field : Text) (allowUnbounded : Bool) (raw : Json) :
    Except ReadError Limit :=
  let invalid : ReadError := .of (.invalidOccurs field raw) context
  match raw with
  | .null => .ok (.finite 1)
  | .text [] => .ok (.finite 1)
  | .bool _ => .error invalid
  | raw =>
    if allowUnbounded && raw == Json.string "unbounded" then .ok .unbounded
    else
      match raw.integer with
      | .ok (.ofNat n) => .ok (.finite n)
      | .ok (.negSucc _) => .error (.of (.negativeOccurs field raw) context)
      | .error .infinite => .error (.fault .infinite)
      | .error _ => .error invalid

/-- The bounds of a particle. -/
def readBounds (context : Text) (least most : Json) : Except ReadError Bounds := do
  let least ← readOccurs context (Text.ofString "minOccurs") false least
  let most ← readOccurs context (Text.ofString "maxOccurs") true most
  match least with
  | .unbounded => throw (.fault .wrongKind)
  | .finite n =>
    match Bounds.ofLimits n most with
    | .ok bounds => return bounds
    | .error e => throw (.of (.badBounds e) context)

mutual

/-- The particles of a content list that is there. -/
def Particle.readContent (context : Text) : Json → Except ReadError (List (Particle Json))
  | .array entries => Particle.readAll context entries
  | _ => .error (.of .contentNotAList context)

/-- The particles of the entries of a content list. -/
def Particle.readAll (context : Text) : List Json → Except ReadError (List (Particle Json))
  | [] => .ok []
  | entry :: entries => do
    let p ← Particle.readOne context entry
    let ps ← Particle.readAll context entries
    return p :: ps

/-- The particle of an entry. -/
def Particle.readOne (context : Text) : Json → Except ReadError (Particle Json)
  | .object fields =>
    let field (key : String) : Json := (Json.lookup (Text.ofString key) fields).getD .null
    match ParticleKind.ofWord? (field "type") with
    | none => .ok (Particle.opaqueOf (field "type").nameOrNone)
    | some kind => do
      let bounds ← readBounds context (field "minOccurs") (field "maxOccurs")
      let content ← Particle.readField context fields
      return ⟨kind, (field "key").nameOrNone, bounds, content⟩
  | entry => .error (.of (.particleNotAnObject entry) context)

/-- The particles of the `content` field among the fields of an entry; none when it is not there. -/
def Particle.readField (context : Text) :
    List (Text × Json) → Except ReadError (List (Particle Json))
  | [] => .ok []
  | (key, value) :: fields =>
    if key = Text.ofString "content" then
      match value with
      | .null => .ok []
      | value => Particle.readContent context value
    else Particle.readField context fields

end

/-- The particles of a content value; nothing when no content is declared. -/
def Particle.read (context : Text) (raw : Json) :
    Except ReadError (Option (List (Particle Json))) :=
  match raw with
  | .null => .ok none
  | raw => (Particle.readContent context raw).map some

end MarkupGrammar
