import MarkupGrammar.Text.Utf8

/-!
# Percent-encoding

A percent sign with two hexadecimal digits stands for an octet. Octets are read as UTF-8, and where
the text holds a code point beyond ASCII they end there: an encoded code point does not reach across
it. A percent sign without two digits stands for itself.
-/

namespace MarkupGrammar

namespace Text

/-- The octet that a percent sign stands for, by what follows it. -/
def octetAfterPercent? : Text → Option Nat
  | a :: b :: _ => do return 16 * (← a.hexDigit?) + (← b.hexDigit?)
  | _ => none

/-- Decodes a text after some octets, the last first. The count says how many code points still
belong to an octet already taken. -/
def percentDecodeFrom (octets : List Nat) (taken : Nat) : Text → Text
  | [] => Utf8.decode octets.reverse
  | c :: r =>
    match taken with
    | n + 1 => percentDecodeFrom octets n r
    | 0 =>
      if c.val < 0x80 then
        match (if c = CodePoint.ofChar '%' then octetAfterPercent? r else none) with
        | some octet => percentDecodeFrom (octet :: octets) 2 r
        | none => percentDecodeFrom (c.val :: octets) 0 r
      else Utf8.decode octets.reverse ++ c :: percentDecodeFrom [] 0 r

/-- The text with its percent-encoded octets decoded. -/
def percentDecode (t : Text) : Text := percentDecodeFrom [] 0 t

end Text

end MarkupGrammar
