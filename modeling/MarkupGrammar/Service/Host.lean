import MarkupGrammar.Grammar.Failure
import MarkupGrammar.Text.Case
import MarkupGrammar.Text.Utf8

/-!
# Hosts

Where a target names a host, it does so in its authority: perhaps a user, then the host, perhaps the
number of one of its services. It is not asked which host is meant, but one that cannot exist is
refused.

A host is an address in brackets or a name, and a name is a sequence of labels with dots between
them. Of names beyond ASCII only the code points are looked at, not how long they get when they are
encoded.
-/

namespace MarkupGrammar

namespace Host

/-- What stands before the first occurrence of a character, and what follows it. -/
def partition (mark : Char) (t : Text) : Text × Text :=
  (Text.cutAt? [CodePoint.ofChar mark] t).getD (t, [])

/-! ### Addresses -/

/-- Whether a text is a number of an address with dots: at most three digits and no needless
zero. -/
def isOctet (t : Text) : Bool :=
  match t with
  | [] => false
  | [c] => c.isAsciiDigit
  | c :: r =>
    c.isAsciiDigit && c.val != 0x30 && r.all CodePoint.isAsciiDigit && r.length ≤ 2
      && t.foldl (fun n d => 10 * n + (d.val - 0x30)) 0 ≤ 255

/-- Whether a text is an address of four numbers. -/
def isDotted (t : Text) : Bool :=
  let parts := Text.splitOn (CodePoint.ofChar '.') t
  parts.length = 4 && parts.all isOctet

/-- Whether a text is a group of an address with colons: one to four hexadecimal digits. -/
def isGroup (t : Text) : Bool :=
  !t.isEmpty && t.length ≤ 4 && t.all fun c => c.hexDigit?.isSome

/-- The parts between the colons of an address; one with dots at the end counts as two. -/
def addressParts (t : Text) : List Text :=
  let parts := Text.splitOn (CodePoint.ofChar ':') t
  match parts.getLast? with
  | some last =>
    if isDotted last then parts.dropLast ++ [Text.ofString "0", Text.ofString "0"] else parts
  | none => parts

/-- Whether a text is an address of eight groups. Two colons in a row stand, once, for groups that
are left out. -/
def isGrouped (t : Text) : Bool :=
  let parts := addressParts t
  match (parts.drop 1).dropLast.findIdx? (·.isEmpty) with
  | none => parts.length = 8 && parts.all isGroup
  | some i =>
    let before := parts.take (i + 1)
    let after := parts.drop (i + 2)
    let before := if before = [[]] then [] else before
    let after := if after = [[]] then [] else after
    3 ≤ parts.length && before.all isGroup && after.all isGroup && before.length + after.length < 8

/-- Whether a text in brackets is an address: one of groups, perhaps with a zone, or one of a kind
still to come, which begins with its version. -/
def isBracketed (t : Text) : Bool :=
  match t with
  | [] => false
  | c :: r =>
    if c = CodePoint.ofChar 'v' then
      let (version, rest) := partition '.' r
      !version.isEmpty && (version.all fun d => d.hexDigit?.isSome) && !rest.isEmpty
    else
      match Text.cutAt? (Text.ofString "%") t with
      | none => isGrouped t
      | some (address, zone) =>
        isGrouped address && !zone.isEmpty && !zone.contains (CodePoint.ofChar '%')

/-! ### Names -/

/-- The code points that a name beyond ASCII must not have. -/
def refused : List (Nat × Nat) :=
  [(0x80, 0x9F), (0x6DD, 0x6DD), (0x70F, 0x70F), (0x1680, 0x1680), (0x180E, 0x180E),
   (0x200E, 0x200F), (0x2028, 0x202E), (0x2061, 0x2063), (0x206A, 0x206F), (0x2FF0, 0x2FFB),
   (0xD800, 0xF8FF), (0xFDD0, 0xFDEF), (0xFFF9, 0xFFFF), (0x1D173, 0x1D17A), (0x1FFFE, 0x1FFFF),
   (0xE0001, 0xE0001), (0xE0020, 0xE007F), (0xF0000, 0x10FFFF)]

/-- Whether a code point ends a label. -/
def isDot (c : CodePoint) : Bool :=
  c.val = 0x2E || c.val = 0x3002 || c.val = 0xFF0E || c.val = 0xFF61

/-- The labels of a name. -/
def labels (name : Text) : List Text :=
  Text.splitOn (CodePoint.ofChar '.') (name.map fun c => if isDot c then CodePoint.ofChar '.' else c)

/-- Whether a label can be part of a name. -/
def isLabel (t : Text) : Bool :=
  !t.isEmpty && !(t.any fun c => c.within refused)
    && (t.length < 64 || t.any fun c => 0x80 ≤ c.val)

/-- Whether a name can be that of a host. Its last label may be empty. -/
def isName (name : Text) : Bool :=
  let all := labels name
  all.dropLast.all isLabel && (all.getLast?.any fun t => t.isEmpty || isLabel t)

/-! ### Authorities -/

/-- The host of an authority and the number after it, as they are written. -/
def ofAuthority (authority : Text) : Text × Text :=
  let info := (authority.reverse.takeWhile (· != CodePoint.ofChar '@')).reverse
  match Text.cutAt? (Text.ofString "[") info with
  | some (_, bracketed) =>
    let (host, rest) := partition ']' bracketed
    (host, (partition ':' rest).2)
  | none => partition ':' info

/-- Signs that end an authority or part it, in one of their wider forms. -/
def wideDelimiters : List Nat :=
  [0x2047, 0x2048, 0x2049, 0x2100, 0x2101, 0x2105, 0x2106, 0x2A74, 0xFE13, 0xFE16, 0xFE55, 0xFE56,
   0xFE5F, 0xFE6B, 0xFF03, 0xFF0F, 0xFF1A, 0xFF1F, 0xFF20]

/-- Checks the form of an authority: brackets come in pairs around an address, and no sign stands in
for a delimiter. -/
def checkForm (authority : Text) : Except Fault Unit := do
  let opens := authority.contains (CodePoint.ofChar '[')
  let closes := authority.contains (CodePoint.ofChar ']')
  if opens != closes then throw .malformedTarget
  if opens && !isBracketed (partition ']' (partition '[' authority).2).1 then
    throw .malformedTarget
  if authority.any fun c => wideDelimiters.contains c.val then throw .malformedTarget

/-- Checks that the host of an authority can exist and that the number after it is one. -/
def check (authority : Text) : Except Fault Unit := do
  let (host, digits) := ofAuthority authority
  if !host.isEmpty && !isName host then throw .impossibleHost
  let number := digits.foldl (fun n d => 10 * n + (d.val - 0x30)) 0
  if !(digits.all CodePoint.isAsciiDigit) || 65535 < number then throw .malformedTarget

end Host

end MarkupGrammar
