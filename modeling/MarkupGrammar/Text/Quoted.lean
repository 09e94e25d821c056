import MarkupGrammar.Text.Printable

/-!
# Quoted text

A message shows a value between quotes, so that its ends are visible, and escapes whatever a reader
could not see. Single quotes are used unless the text holds a single quote and no double one, so
that most texts need no escaped quote at all.
-/

namespace MarkupGrammar

namespace Text

/-- The hexadecimal form of `n` in exactly `width` digits. -/
def hex (width n : Nat) : Text :=
  match width with
  | 0 => []
  | w + 1 => hex w (n / 16) ++ [CodePoint.hexDigit (n % 16)]

/-- The quote that a text is written between. -/
def quoteFor (t : Text) : CodePoint :=
  if t.contains (CodePoint.ofChar '\'') && !t.contains (CodePoint.ofChar '"') then '"' else '\''

/-- One code point inside quotes: the quote and the backslash are escaped, line breaks and tabs have
names, and what is not printable is written by number in the shortest of three widths. -/
def quoteOne (quote c : CodePoint) : Text :=
  if c = quote || c = CodePoint.ofChar '\\' then [CodePoint.ofChar '\\', c]
  else if c.val = 0x0A then ofString "\\n"
  else if c.val = 0x0D then ofString "\\r"
  else if c.val = 0x09 then ofString "\\t"
  else if c.isPrintable then [c]
  else if c.val < 0x100 then ofString "\\x" ++ hex 2 c.val
  else if c.val < 0x10000 then ofString "\\u" ++ hex 4 c.val
  else ofString "\\U" ++ hex 8 c.val

/-- The text between quotes. -/
def quoted (t : Text) : Text :=
  let quote := quoteFor t
  quote :: t.flatMap (quoteOne quote) ++ [quote]

end Text

end MarkupGrammar
