import MarkupGrammar.Xml.Reading
import MarkupGrammar.Xml.Uri

/-!
# Namespaces in scope

Attributes called `xmlns`, or with that prefix, bind namespaces to prefixes. Two namespaces and two
prefixes are reserved: a binding that touches them is an error and binds nothing.
-/

namespace MarkupGrammar

/-- The namespaces that prefixes are bound to, the innermost binding first. -/
abbrev Scope := List (Option Text × Text)

namespace Scope

/-- The prefix that is always bound. -/
def xmlPrefix : Text := Text.ofString "xml"

/-- The namespace that this prefix is bound to. -/
def xmlSpace : Text := Text.ofString "http://www.w3.org/XML/1998/namespace"

/-- The prefix of bindings. -/
def bindingPrefix : Text := Text.ofString "xmlns"

/-- The namespace of bindings. -/
def bindingSpace : Text := Text.ofString "http://www.w3.org/2000/xmlns/"

/-- The namespace of a prefix, or of no prefix. -/
def find? (scope : Scope) (space : Option Text) : Option Text :=
  if space = some xmlPrefix then some xmlSpace
  else (List.find? (fun (other, _) => other = space) scope).map (·.2)

/-- Whether an attribute's name binds a namespace, and the prefix it binds. -/
def boundBy? (name : QName) : Option (Option Text) :=
  if name = ⟨none, bindingPrefix⟩ then some none
  else if name.space = some bindingPrefix then some (some name.stem)
  else none

/-- The namespace that attributes without a prefix are in is none, whatever is bound; a prefix has
to be bound. -/
def ofAttribute? (scope : Scope) (name : QName) : Option (Option Text) :=
  match name.space with
  | none => some none
  | some _ => (scope.find? name.space).map some

/-- Adds a binding of a start tag to those it has already. No prefix is bound twice. -/
def push (own : Scope) (space : Option Text) (uri : Text) : XmlReader Scope := do
  guard !(own.any fun (other, _) => other = space)
  return own ++ [(space, uri)]

/-- Adds the binding that an attribute of a start tag makes, if it makes one. Without a prefix the
empty namespace may be bound, and a namespace should have a scheme. -/
def bind (own : Scope) (space : Option Text) (uri : Text) : XmlReader Scope := do
  match space with
  | none =>
    if !uri.isEmpty then
      match UriForm.ofText? uri with
      | none => XmlReader.complain .error
      | some .relative => XmlReader.complain .warning
      | some .absolute => pure ()
    if uri = xmlSpace || uri = bindingSpace then
      XmlReader.complain .error
      return own
    push own space uri
  | some p =>
    if p = xmlPrefix then
      XmlReader.require (uri = xmlSpace)
      return own
    if uri = xmlSpace || p = bindingPrefix || uri = bindingSpace || uri.isEmpty then
      XmlReader.complain .error
      return own
    XmlReader.require (UriForm.ofText? uri).isSome
    push own space uri

/-- Adds the binding that a default makes, unless the start tag makes it itself. Nothing is asked
about its namespace. -/
def bindFallback (own : Scope) (space : Option Text) (uri : Text) : Scope :=
  if space = some xmlPrefix || own.any fun (other, _) => other = space then own
  else own ++ [(space, uri)]

end Scope

end MarkupGrammar
