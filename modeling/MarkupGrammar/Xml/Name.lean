import MarkupGrammar.Text.Basic

/-!
# XML characters and names

The characters that may stand in an XML document and those that may begin or continue a name, as the
fifth edition of XML 1.0 lists them. With namespaces a name has at most one colon, with a name
without colons on each side of it.

A name that is not of that form is kept whole. In declarations, where nothing is said of colons, a
name is cut at its first colon instead.
-/

namespace MarkupGrammar

namespace CodePoint

/-- Whether the code point may stand in an XML document. -/
def isXml (c : CodePoint) : Bool :=
  c.within [(0x20, 0xD7FF), (0x09, 0x0A), (0x0D, 0x0D), (0xE000, 0xFFFD), (0x10000, 0x10FFFF)]

/-- Whether the code point may begin an XML name that has no colon. -/
def beginsXmlName (c : CodePoint) : Bool :=
  c.isAsciiLetter || c.val = 0x5F
    || c.within
      [(0xC0, 0xD6), (0xD8, 0xF6), (0xF8, 0x2FF), (0x370, 0x37D), (0x37F, 0x1FFF),
       (0x200C, 0x200D), (0x2070, 0x218F), (0x2C00, 0x2FEF), (0x3001, 0xD7FF), (0xF900, 0xFDCF),
       (0xFDF0, 0xFFFD), (0x10000, 0xEFFFF)]

/-- Whether the code point may continue an XML name that has no colon. -/
def continuesXmlName (c : CodePoint) : Bool :=
  c.beginsXmlName || c.isAsciiDigit || c.val = 0x2D || c.val = 0x2E || c.val = 0xB7
    || c.within [(0x300, 0x36F), (0x203F, 0x2040)]

end CodePoint

/-- A name in a namespace-aware document: what stands before the colon, if there is one, and what
stands after it. -/
structure QName where
  space : Option Text
  stem : Text
deriving DecidableEq

namespace QName

/-- Whether the text is a name without a colon. -/
def isNcName : Text → Bool
  | [] => false
  | c :: r => c.beginsXmlName && r.all CodePoint.continuesXmlName

/-- Splits a name at its colon. Both halves have to be names, and there is at most one colon. -/
def ofText? (t : Text) : Option QName :=
  match Text.splitOn (CodePoint.ofChar ':') t with
  | [stem] => if isNcName stem then some ⟨none, stem⟩ else none
  | [space, stem] => if isNcName space && isNcName stem then some ⟨some space, stem⟩ else none
  | _ => none

/-- The name as it is written. -/
def written (q : QName) : Text :=
  match q.space with
  | none => q.stem
  | some p => p ++ CodePoint.ofChar ':' :: q.stem

/-- A name of a tag: split at its colon, or whole if it cannot be split. -/
def ofText (t : Text) : QName := (ofText? t).getD ⟨none, t⟩

/-- A name of a declaration: cut at its first colon, unless that comes first or last. -/
def ofDeclared (t : Text) : QName :=
  match t.dropWhile fun c => c.val != 0x3A with
  | _ :: d :: stem =>
    if t.head?.any fun c => c.val = 0x3A then ⟨none, t⟩
    else ⟨some (t.takeWhile fun c => c.val != 0x3A), d :: stem⟩
  | _ => ⟨none, t⟩

end QName

end MarkupGrammar
