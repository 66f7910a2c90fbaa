import LocalizedSite.Text.Basic

/-!
# Escaping for markup

The five characters that have a meaning in markup are written as character references, so that a
text may stand both between tags and inside a quoted attribute.
-/

namespace LocalizedSite.Render

/-- The characters written for one character of a text. -/
def escapeMarkupCharacter (character : Char) : Text :=
  if character = '&' then "&amp;".toList
  else if character = '<' then "&lt;".toList
  else if character = '>' then "&gt;".toList
  else if character = '\'' then "&#39;".toList
  else if character = '"' then "&#34;".toList
  else [character]

/-- A text as it is written in markup. -/
def escapeMarkup (text : Text) : Text :=
  text.flatMap escapeMarkupCharacter

end LocalizedSite.Render
