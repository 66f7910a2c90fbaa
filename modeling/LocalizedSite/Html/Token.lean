import LocalizedSite.Html.Entity
import LocalizedSite.Text.Blank
import LocalizedSite.Text.LetterCase

/-!
# Markup tokens

A token is a tag, a run of text, or one of the constructs between `<!` or `<?` and `>`. A reader
takes one construct from the beginning of a text, keeps the characters it was written with, and says
when the text ends before the construct does. Tags are read tolerantly: an attribute needs no value,
a value needs no quotes, and junk between attributes is skipped.
-/

namespace LocalizedSite.Html

/-- An attribute of a start tag, with its value if it has one. -/
abbrev Attribute := Text × Option Text

/-- A piece of markup or text. -/
inductive Token where
  | start (name : Text) (attributes : List Attribute) (selfClosing : Bool)
  | finish (name : Text)
  | text (data : Text)
  | comment (data : Text)
  | doctype (data : Text)
  | section (data : Text)
  | instruction (data : Text)
deriving DecidableEq, Repr

/-- A token, if the construct has one, with the characters it was read from. -/
structure Lexeme where
  /-- The characters of the construct. -/
  source : Text
  /-- What the construct is. -/
  token : Option Token
deriving DecidableEq, Repr

/-- The result of reading one construct. -/
inductive Reading where
  | complete (lexeme : Lexeme) (rest : Text)
  | incomplete
  | rejected
deriving DecidableEq, Repr

/-- A lexeme that is a run of text. -/
def Lexeme.ofText (data : Text) : Lexeme :=
  ⟨data, some (.text data)⟩

/-- Whether a character ends a tag name. -/
def endsTagName (character : Char) : Bool :=
  "\t\n\r\x0c />\x00".toList.contains character

/-- Whether a character may stand before an attribute name. -/
def precedesAttribute (character : Char) : Bool :=
  character == '\'' || character == '"' || character == '/' || Text.isBlank character

/-- The blanks and slashes between attributes; a slash directly before the end of the tag is not one
of them. -/
def readGap (passed : Text) : Text → Text × Text
  | [] => (passed.reverse, [])
  | '/' :: '>' :: rest => (passed.reverse, '/' :: '>' :: rest)
  | character :: rest =>
    if character = '/' || Text.isBlank character then readGap (character :: passed) rest
    else (passed.reverse, character :: rest)

/-- The pieces of an attribute value: its characters as written and its content. -/
structure RawValue where
  /-- The characters from the equals sign to the end of the value. -/
  source : Text
  /-- The content without quotes. -/
  content : Text

/-- A quoted value at the beginning of a text. -/
def readQuoted? (mark : Char) (text : Text) : Option (RawValue × Text) := do
  let following ← Text.after? [mark] text
  let (content, rest) ← Text.cut? [mark] following
  return (⟨mark :: content ++ [mark], content⟩, rest)

/-- A value without quotes: everything up to a blank or the end of the tag. -/
def readBare (text : Text) : RawValue × Text :=
  let (content, rest) := text.span fun character ↦
    character != '>' && !Text.isBlank character
  (⟨content, content⟩, rest)

/-- The equals signs and the value of an attribute, if they are there. A quote that is never closed
is no value: the value is then empty if there is a blank before the quote, and the text from the
second equals sign on if there are several. -/
def readValue? (text : Text) : Option (RawValue × Text) :=
  let (before, rest) := text.span Text.isBlank
  let (signs, rest) := rest.span (· == '=')
  if signs.isEmpty then none
  else
    let (blanks, afterBlanks) := rest.span Text.isBlank
    let head := before ++ signs
    match (readQuoted? '\'' afterBlanks).orElse fun _ ↦ readQuoted? '"' afterBlanks with
    | some (value, rest) => some ({ value with source := head ++ blanks ++ value.source }, rest)
    | none =>
      match afterBlanks with
      | '\'' :: _ | '"' :: _ =>
        if !blanks.isEmpty then
          let kept := blanks.dropLast
          some (⟨head ++ kept, []⟩, blanks.drop kept.length ++ afterBlanks)
        else if 1 < signs.length then
          let (value, rest) := readBare ('=' :: afterBlanks)
          some ({ value with source := before ++ signs.dropLast ++ value.source }, rest)
        else none
      | _ =>
        let (value, rest) := readBare afterBlanks
        some ({ value with source := head ++ blanks ++ value.source }, rest)

/-- Read the attributes of a start tag, the first after the character `previous`. The attributes
and the characters read are kept last first. -/
def readAttributes : Nat → Char → List Attribute → List Text → Text →
    List Attribute × List Text × Text
  | 0, _, attributes, sources, text => (attributes, sources, text)
  | fuel + 1, previous, attributes, sources, text =>
    match text with
    | [] => (attributes, sources, [])
    | first :: rest =>
      if !precedesAttribute previous || Text.isBlank first || first = '/' || first = '>' then
        (attributes, sources, text)
      else
        let (name, rest) := rest.span fun character ↦
          !Text.isBlank character && character != '/' && character != '=' && character != '>'
        let name := first :: name
        let (value, source, rest) :=
          match readValue? rest with
          | some (value, rest) => (some (Entity.decode value.content), value.source, rest)
          | none => (none, [], rest)
        let (gap, rest) := readGap [] rest
        let source := name ++ source ++ gap
        readAttributes fuel (source.getLast?.getD previous) ((Text.lower name, value) :: attributes)
          (source :: sources) rest

/-- Whether a tag whose attributes are followed by this character is not finished. -/
def continuesTag (character : Char) : Bool :=
  character == '/' || character == '=' || Text.isLatinLetter character

/-- Read a start tag; the text begins with `<` and a letter. Where the attributes are followed by
something that is not the end of the tag, what was read is text. -/
def readStartTag (text : Text) : Reading :=
  let (name, rest) := (text.drop 1).span fun character ↦ !endsTagName character
  let (gap, rest) := readGap [] rest
  let opening := '<' :: name ++ gap
  let (attributes, sources, rest) :=
    readAttributes rest.length (opening.getLast?.getD '<') [] [opening] rest
  let source := sources.reverse.flatten
  match rest with
  | [] => .incomplete
  | '>' :: rest =>
    .complete ⟨source ++ ['>'], some (.start (Text.lower name) attributes.reverse false)⟩ rest
  | '/' :: '>' :: rest =>
    .complete ⟨source ++ "/>".toList, some (.start (Text.lower name) attributes.reverse true)⟩ rest
  | character :: following =>
    if continuesTag character then .incomplete
    else .complete (.ofText source) (character :: following)

/-- Whether a character may stand in the name of an end tag that has nothing but a name. -/
def isEndNameCharacter (character : Char) : Bool :=
  Text.isLatinLetter character || Text.isLatinDigit character ||
    "-.:_".toList.contains character

/-- The name between `</` and `>` if nothing but blanks stands beside it. -/
def plainEndName? (inside : Text) : Option Text :=
  let (name, rest) := (Text.trimStart inside).span isEndNameCharacter
  match name with
  | [] => none
  | initial :: _ =>
    if Text.isLatinLetter initial && (Text.trimStart rest).isEmpty then some name else none

/-- The token of an end tag with these characters between `</` and `>`: without a name it is a
comment, or nothing if it is empty. -/
def endToken? (inside : Text) : Option Token :=
  match plainEndName? inside with
  | some name => some (.finish (Text.lower name))
  | none =>
    match inside with
    | [] => none
    | initial :: _ =>
      if Text.isLatinLetter initial then
        some (.finish (Text.lower (inside.takeWhile fun character ↦ !endsTagName character)))
      else some (.comment inside)

/-- Read an end tag; the text begins with `</`. -/
def readEndTag (text : Text) : Reading :=
  match Text.cut? ['>'] (text.drop 2) with
  | none => .incomplete
  | some (inside, rest) => .complete ⟨"</".toList ++ inside ++ ['>'], endToken? inside⟩ rest

/-- Read a mark whose characters, except for the last, may each be followed by blanks. -/
def recognizeSpaced : (mark : Text) → Recognizer Text
  | [], text => some ([], text)
  | [wanted], text => (Text.after? [wanted] text).map fun rest ↦ ([wanted], rest)
  | wanted :: mark, text => do
    let rest ← Text.after? [wanted] text
    let (blanks, rest) := rest.span Text.isBlank
    let (source, rest) ← recognizeSpaced mark rest
    return (wanted :: blanks ++ source, rest)

/-- Two hyphens, blanks and the end of the tag. -/
def recognizeCommentEnd : Recognizer Text := fun text ↦ do
  let rest ← Text.after? ['-'] text
  let (source, rest) ← recognizeSpaced "->".toList rest
  return ('-' :: source, rest)

/-- Read a construct that is over at the first place where `ending` is found. -/
def readUpTo (opening : Text) (ending : Recognizer Text) (token : Text → Token) (text : Text) :
    Reading :=
  match ending.first? (text.drop opening.length) with
  | none => .incomplete
  | some (data, mark, rest) => .complete ⟨opening ++ data ++ mark, some (token data)⟩ rest

/-- The names of marked sections that end with two brackets. -/
def bracketedSections : List Text :=
  ["temp".toList, "cdata".toList, "ignore".toList, "include".toList, "rcdata".toList]

/-- The names of marked sections that end with one bracket. -/
def conditionalSections : List Text :=
  ["if".toList, "else".toList, "endif".toList]

/-- Read a marked section; the text begins with `<![`. A section without a known name is
rejected. -/
def readSection (text : Text) : Reading :=
  match text.drop 3 with
  | [] => .incomplete
  | initial :: rest =>
    if !Text.isLatinLetter initial then .rejected
    else
      let (name, rest) := rest.span fun character ↦
        Text.isLatinLetter character || Text.isLatinDigit character ||
          "-_.".toList.contains character
      let name := Text.lower (initial :: name)
      if (Text.trimStart rest).isEmpty then .incomplete
      else if bracketedSections.contains name then
        readUpTo (text.take 3) (recognizeSpaced "]]>".toList) .section text
      else if conditionalSections.contains name then
        readUpTo (text.take 3) (recognizeSpaced "]>".toList) .section text
      else .rejected

/-- Whether a text begins with `<!doctype` in any case. -/
def startsDoctype (text : Text) : Bool :=
  Text.lower (text.take 9) = "<!doctype".toList

/-- Read a document type; its data begins after `<!`. -/
def readDoctype (text : Text) : Reading :=
  match Text.cut? ['>'] (text.drop 9) with
  | none => .incomplete
  | some (data, rest) =>
    let data := (text.drop 2).take 7 ++ data
    .complete ⟨"<!".toList ++ data ++ ['>'], some (.doctype data)⟩ rest

/-- Read the construct at the beginning of a text that begins with `<`. -/
def readConstruct (text : Text) : Reading :=
  match text.drop 1 with
  | [] => .incomplete
  | second :: _ =>
    if Text.isLatinLetter second then readStartTag text
    else if second = '/' then readEndTag text
    else if Text.startsWith text "<!--".toList then
      readUpTo "<!--".toList recognizeCommentEnd .comment text
    else if second = '?' then
      readUpTo "<?".toList (recognizeSpaced ['>']) .instruction text
    else if Text.startsWith text "<![".toList then readSection text
    else if startsDoctype text then readDoctype text
    else if second = '!' then readUpTo "<!".toList (recognizeSpaced ['>']) .comment text
    else .complete (.ofText ['<']) (text.drop 1)

end LocalizedSite.Html
