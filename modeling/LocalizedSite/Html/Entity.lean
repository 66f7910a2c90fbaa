import LocalizedSite.Html.EntityTable
import LocalizedSite.Text.DecimalDigit
import LocalizedSite.Text.Occurrence

/-!
# Character references

A character reference stands for one or two characters, by number or by name. `decode` replaces the
references of an attribute value by the rules of the HTML standard: the final semicolon may be
missing, and of an unknown name the longest beginning that is a name counts.
-/

namespace LocalizedSite.Html.Entity

/-- The characters that the numbers 128 to 159 stand for: the Windows code page where it has a
character, the control character itself where it has none. -/
def windowsCharacters : List Nat :=
  [8364, 129, 8218, 402, 8222, 8230, 8224, 8225, 710, 8240, 352, 8249, 338, 141, 381, 143,
   144, 8216, 8217, 8220, 8221, 8226, 8211, 8212, 732, 8482, 353, 8250, 339, 157, 382, 376]

/-- The code point that a number stands for, where the Windows code page counts. -/
def windowsCode (number : Nat) : Nat :=
  if 128 ≤ number then windowsCharacters.getD (number - 128) number else number

/-- Whether a number is no code point of a character. -/
def isOutside (number : Nat) : Bool :=
  (0xD800 ≤ number && number ≤ 0xDFFF) || 0x10FFFF < number

/-- Whether a number is a control or a code point without a character, which stands for nothing. -/
def isSilent (number : Nat) : Bool :=
  (1 ≤ number && number ≤ 8) || number == 11 || (14 ≤ number && number ≤ 31) ||
    number == 127 || (0xFDD0 ≤ number && number ≤ 0xFDEF) || 0xFFFE ≤ number % 0x10000

/-- The characters that a number stands for. -/
def ofNumber (number : Nat) : Text :=
  if number = 0 || isOutside number then ['\uFFFD']
  else if 128 ≤ number && number ≤ 159 then [Char.ofNat (windowsCode number)]
  else if isSilent number then []
  else [Char.ofNat number]

/-- The longest beginning of at least two and at most `length` characters that is a name, replaced
by what it stands for. -/
def longestName? (name : Text) : Nat → Option Text
  | 0 => none
  | length + 1 =>
    if length = 0 then none
    else
      match ofName? (name.take (length + 1)) with
      | some characters => some (characters ++ name.drop (length + 1))
      | none => longestName? name length

/-- The characters that a name stands for; of an unknown name the ampersand is kept. -/
def expandName (name : Text) : Text :=
  (longestName? name name.length).getD ('&' :: name)

/-- Whether a character may stand in a name. -/
def isNameCharacter (character : Char) : Bool :=
  !"\t\n\x0c <&#;".toList.contains character

/-- A text with the semicolon that may follow it. -/
def takeSemicolon (text rest : Text) : Text × Text :=
  match rest with
  | ';' :: following => (text ++ [';'], following)
  | _ => (text, rest)

/-- Skip the semicolon that may follow a number. -/
def skipSemicolon : Text → Text
  | ';' :: rest => rest
  | rest => rest

/-- Read a character reference at the beginning of a text and give what it stands for. -/
def recognize : Recognizer Text
  | '&' :: '#' :: rest =>
    match rest.span Text.isLatinDigit with
    | ([], 'x' :: hex) | ([], 'X' :: hex) =>
      match hex.span Text.isHexDigit with
      | ([], _) => none
      | (digits, following) => some (ofNumber (Text.hexValue digits), skipSemicolon following)
    | ([], _) => none
    | (digits, following) => some (ofNumber (Text.decimalValue digits), skipSemicolon following)
  | '&' :: rest =>
    let name := (rest.take 32).takeWhile isNameCharacter
    if name.isEmpty then none
    else
      let (name, following) := takeSemicolon name (rest.drop name.length)
      some (expandName name, following)
  | _ => none

/-- A text with its character references replaced. -/
def decode (text : Text) : Text :=
  (Cuts.all recognize text).text id

end LocalizedSite.Html.Entity
