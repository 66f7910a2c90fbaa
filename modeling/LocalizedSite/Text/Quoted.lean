import LocalizedSite.Text.Printable

/-!
# Quoted texts

A text in a message stands between quotes: single ones, or double ones if it has single quotes and no
double ones. The quote itself and the backslash are escaped, and so is every character that is not
printable.
-/

namespace LocalizedSite.Text

/-- The characters written for one character between quotes. -/
def quoteCharacter (mark character : Char) : Text :=
  let code := character.toNat
  if character = mark || character = '\\' then ['\\', character]
  else if character = '\n' then "\\n".toList
  else if character = '\r' then "\\r".toList
  else if character = '\t' then "\\t".toList
  else if isPrintable character then [character]
  else if code < 0x100 then "\\x".toList ++ hex 2 code
  else if code < 0x10000 then "\\u".toList ++ hex 4 code
  else "\\U".toList ++ hex 8 code

/-- The quote that a text is put between. -/
def quoteMark (text : Text) : Char :=
  if text.any (· == '\'') && !text.any (· == '"') then '"' else '\''

/-- A text between quotes. -/
def quoted (text : Text) : Text :=
  let mark := quoteMark text
  mark :: text.flatMap (quoteCharacter mark) ++ [mark]

/-- A list of texts between brackets. -/
def quotedList (texts : List Text) : Text :=
  '[' :: joinWith ", ".toList (texts.map quoted) ++ [']']

end LocalizedSite.Text
