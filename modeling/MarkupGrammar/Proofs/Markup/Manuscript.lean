import MarkupGrammar.Markup.Tag
import MarkupGrammar.Proofs.Markup.Position
import MarkupGrammar.Xml.Name

/-!
# Manuscripts

A manuscript is a document before it is text: elements with their attributes, prose, comments,
character-data sections and processing instructions, each with the white space that its author
chose. `Passage.renderAll` writes it down, and `Passage.tagsOfAll` says which tags the text then
has and where they stand.

The constructs hold each other's delimiters: a comment may hold tags, a quoted value anything but
its own quote. What a construct may not hold is in its type, as XML has it, so that every
manuscript can be written down.

## Implementation notes

Places are carried along by counting (`Position.past`), not computed from offsets, so the tags of a
manuscript are stated without a scanner, an index or the text as a whole.
-/

namespace MarkupGrammar

/-- Whether a text is a name in XML, colons included. -/
def Text.isXmlName : Text → Bool
  | [] => false
  | c :: r =>
    (c.beginsXmlName || c.val = 0x3A) && r.all fun d => d.continuesXmlName || d.val = 0x3A

/-- A name in XML. -/
structure XmlName where
  text : Text
  isName : text.isXmlName = true

/-- White space between the parts of a tag, or none. -/
structure Spacing where
  text : Text
  isSpace : ∀ c ∈ text, c.isMarkupSpace = true

/-- An attribute as its author writes it: after some white space, with a value between two quotes
that may hold anything but this quote. -/
structure WrittenAttribute where
  gap : Spacing
  gap_ne_nil : gap.text ≠ []
  name : XmlName
  beforeEquals : Spacing
  afterEquals : Spacing
  quote : CodePoint
  isQuote : quote.isQuote = true
  value : Text
  isFree : quote ∉ value

/-- What stands in an opening tag between its `<` and its end. -/
structure WrittenTag where
  name : XmlName
  attributes : List WrittenAttribute
  trailing : Spacing

/-- A part of a manuscript. White space may stand on either side of the slash of an empty
element. -/
inductive Passage where
  | element (tag : WrittenTag) (content : List Passage) (closing : Spacing)
  | emptyElement (tag : WrittenTag) (afterSlash : Spacing)
  | prose (t : Text) (noTag : CodePoint.ofChar '<' ∉ t)
  | comment (body : Text) (noHyphens : ¬ Text.ofString "--" <:+: body)
      (noLastHyphen : body.getLast? ≠ some (CodePoint.ofChar '-'))
  | cdata (body : Text) (noEnd : ¬ Text.ofString "]]>" <:+: body)
  | instruction (body : Text) (noEnd : ¬ Text.ofString "?>" <:+: body)

/-! ### Writing down -/

namespace WrittenAttribute

/-- What stands between the gap and the value: the name and the equals sign. -/
def lead (a : WrittenAttribute) : Text :=
  a.name.text ++ (a.beforeEquals.text ++ CodePoint.ofChar '=' :: a.afterEquals.text)

/-- The text of an attribute. -/
def render (a : WrittenAttribute) : Text :=
  a.gap.text ++ (a.lead ++ a.quote :: (a.value ++ [a.quote]))

/-- The text of attributes, one after the other. -/
def renderAll (as : List WrittenAttribute) : Text := as.flatMap render

end WrittenAttribute

namespace WrittenTag

/-- What stands between the name of a tag and its slash or its end. -/
def body (tag : WrittenTag) : Text := WrittenAttribute.renderAll tag.attributes ++ tag.trailing.text

/-- What stands before the `>` of a tag that closes its element at once; nothing in other tags. -/
def slash : Option Spacing → Text
  | none => []
  | some afterSlash => CodePoint.ofChar '/' :: afterSlash.text

/-- The text of a tag that opens an element, and closes it at once when a slash is given. -/
def render (tag : WrittenTag) (closed : Option Spacing) : Text :=
  CodePoint.ofChar '<' :: (tag.name.text
    ++ (tag.body ++ slash closed ++ [CodePoint.ofChar '>']))

/-- The text of the tag that closes an element. -/
def renderClosing (tag : WrittenTag) (closing : Spacing) : Text :=
  CodePoint.ofChar '<' :: CodePoint.ofChar '/' :: (tag.name.text
    ++ (closing.text ++ [CodePoint.ofChar '>']))

end WrittenTag

namespace Passage

mutual

/-- The text of a passage. -/
def render : Passage → Text
  | element tag content closing =>
    tag.render none ++ (renderAll content ++ tag.renderClosing closing)
  | emptyElement tag afterSlash => tag.render (some afterSlash)
  | prose t _ => t
  | comment body _ _ => Text.ofString "<!--" ++ (body ++ Text.ofString "-->")
  | cdata body _ => Text.ofString "<![CDATA[" ++ (body ++ Text.ofString "]]>")
  | instruction body _ => Text.ofString "<?" ++ (body ++ Text.ofString "?>")

/-- The text of passages, one after the other. -/
def renderAll : List Passage → Text
  | [] => []
  | w :: ws => w.render ++ renderAll ws

end

end Passage

/-! ### The tags of a manuscript -/

namespace WrittenAttribute

/-- The attributes when the text of the first begins at a place: each with its value, at its name.
-/
def attributesFrom (p : Position) : List WrittenAttribute → List Attribute
  | [] => []
  | a :: as => ⟨a.name.text, some a.value, p.past a.gap.text⟩ :: attributesFrom (p.past a.render) as

end WrittenAttribute

namespace WrittenTag

/-- The tag when its text begins at a place. -/
def tag (kind : TagKind) (p : Position) (tag : WrittenTag) : Tag :=
  ⟨kind, tag.name.text, p,
    WrittenAttribute.attributesFrom (p.past (CodePoint.ofChar '<' :: tag.name.text)) tag.attributes⟩

end WrittenTag

namespace Passage

mutual

/-- The tags of a passage whose text begins at a place, in order. -/
def tags (p : Position) : Passage → List Tag
  | element tag content _ =>
    tag.tag .opening p :: (tagsOfAll (p.past (tag.render none)) content
      ++ [⟨.closing, tag.name.text, (p.past (tag.render none)).past (renderAll content), []⟩])
  | emptyElement tag _ => [tag.tag .selfClosing p]
  | prose _ _ => []
  | comment _ _ _ => []
  | cdata _ _ => []
  | instruction _ _ => []

/-- The tags of passages whose text begins at a place, in order. -/
def tagsOfAll (p : Position) : List Passage → List Tag
  | [] => []
  | w :: ws => w.tags p ++ tagsOfAll (p.past w.render) ws

end

end Passage

end MarkupGrammar
