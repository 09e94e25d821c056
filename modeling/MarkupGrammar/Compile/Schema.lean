import MarkupGrammar.Compile.Model
import MarkupGrammar.Log

/-!
# Compilation of a corpus

A corpus is compiled in two phases. The first reads it into an index, and all defects of the corpus
are found there. The second makes a schema of the index: it can fail only when a name is a value
that cannot be looked up, and not at all when all names are texts.
-/

namespace MarkupGrammar

variable {Name : Type} [Label Name]

/-- The compiled definition of an element. -/
def CorpusIndex.compileElement (index : CorpusIndex Name) (d : ElementDef Name) :
    ElementSpec Name where
  name := d.name
  documentation := d.documentation.map Label.ofText
  attributeClasses := d.attributeClasses
  modelClasses := d.modelClasses
  attributes := d.attributes
  shape := Particle.shape? (d.content.getD [])
  content :=
    match index.compileContent [] d.content with
    | some m => .model m
    | none => .children []

/-- The schema of an index. -/
def CorpusIndex.toSchema (index : CorpusIndex Name) (id name : Name) : Schema Name where
  id := id
  name := name
  elements := index.elements.map fun (key, d) => (key, index.compileElement d)
  attributeClasses := index.attributeClasses.map fun (key, c) => (key, c.attributes)
  inheritance := index.attributeClasses.map fun (key, c) => (key, c.inherits)
  elementClasses := index.elements.map fun (key, d) => (key, d.attributeClasses)

namespace Schema

/-- Whether the attributes of an element can be found: the classes that they come from and their own
names have to be looked up. -/
def canResolve (s : Schema Name) (e : ElementSpec Name) : Bool :=
  (s.classesOf e).all Label.isName && (s.candidates e).all fun a => Label.isName a.name

/-- Whether every name that has to be looked up can be, also the children of each element. -/
def isUsable (s : Schema Name) : Bool :=
  s.elements.all fun (_, e) => e.children.all Label.isName && s.canResolve e

end Schema

/-- Whether all references in an index are by names that can be looked up. -/
def CorpusIndex.isUsable (index : CorpusIndex Name) : Bool :=
  index.elements.all fun (_, d) => Expansion.areUsable (index.expandContent [] d.content)

/-- The schema of an index, if the names in it can be looked up. -/
def CorpusIndex.build (index : CorpusIndex Name) (id name : Name) :
    Except ReadError (Schema Name) :=
  let s := index.toSchema id name
  if index.isUsable && s.isUsable then .ok s else .error (.fault .wrongKind)

/-- The counters that are logged when a schema is built. -/
def CorpusIndex.counters (index : CorpusIndex Name) (s : Schema Name) : LogRecord :=
  let count (key : String) (n : Nat) : Text × Text := (Text.ofString key, Text.ofNat n)
  LogRecord.counters (Text.ofString "Compiled " ++ Label.plain s.name)
    [count "Elements" s.elements.length,
     count "With children" (s.elements.countP fun (_, e) => !e.children.isEmpty),
     count "Macros" index.macros.length,
     count "Model classes" index.modelClasses.length,
     count "Attribute classes" index.attributeClasses.length]

/-- Compiles a corpus. -/
def compileCorpus (corpus id name : Json) : Logged ReadError (Schema Json) :=
  (Logged.phase .ingestion id ⟨[], Corpus.ingest corpus⟩).andThen fun index =>
    Logged.phase .compilation id
      (match index.build id name with
      | .ok s => ⟨[index.counters s], .ok s⟩
      | .error e => ⟨[], .error e⟩)

end MarkupGrammar
