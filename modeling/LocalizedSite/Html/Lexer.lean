import LocalizedSite.Html.Token

/-!
# Cutting a document into tokens

A document is read construct by construct. A construct that the document's end cuts short stops the
reading; a second round then takes what can be taken of it as text and goes on behind it. Script and
style elements hold raw text up to their end tag. Character references in text are either left alone
or read one by one, which also decides how the text is cut into runs.
-/

namespace LocalizedSite.Html

/-- The elements whose content is raw text. -/
def rawTextElements : List Text :=
  ["script".toList, "style".toList]

/-- What a reader does with the character references in text. -/
inductive References where
  /-- They stay as they are written. -/
  | kept
  /-- Each is read as a run of text of its own. -/
  | decoded
deriving DecidableEq, Repr

/-- One step of reading. -/
inductive Step where
  /-- A lexeme was read; reading goes on inside or outside raw text. -/
  | read (lexeme : Lexeme) (raw : Option Text) (rest : Text)
  /-- A lexeme was read, and reading stops behind it. -/
  | last (lexeme : Lexeme) (rest : Text)
  /-- Reading stops here. -/
  | stop
  /-- The document is rejected. -/
  | rejected

/-- The end tag of a raw text element, in any case and with blanks around the name. -/
def recognizeRawEnd (element : Text) : Recognizer Text := fun text ↦ do
  let following ← Text.after? "</".toList text
  let (blanks, rest) := following.span Text.isBlank
  let name := rest.take element.length
  if Text.lower name = element then
    let (after, rest) := (rest.drop element.length).span Text.isBlank
    let rest ← Text.after? ['>'] rest
    some ("</".toList ++ blanks ++ name ++ after ++ ['>'], rest)
  else none

/-- The digits of a numeric reference after `&#`: its number, its characters and what follows. -/
def readDigits? (text : Text) : Option (Nat × Text × Text) :=
  match text with
  | mark :: following =>
    if mark = 'x' ∨ mark = 'X' then
      let (digits, rest) := following.span Text.isHexDigit
      if digits.isEmpty then none else some (Text.hexValue digits, mark :: digits, rest)
    else
      let (digits, rest) := text.span Text.isLatinDigit
      if digits.isEmpty then none else some (Text.decimalValue digits, digits, rest)
  | [] => none

/-- The rest of a numeric reference after `&#`: its number, its characters and what follows. The
character after the digits must exist and be no hexadecimal digit; it belongs to the reference if it
is a semicolon. -/
def readNumeric? (text : Text) : Option (Nat × Text × Text) :=
  match readDigits? text with
  | some (number, source, ';' :: rest) => some (number, source ++ [';'], rest)
  | some (number, source, next :: rest) =>
    if Text.isHexDigit next then none else some (number, source, next :: rest)
  | _ => none

/-- The character that a numeric reference in text stands for. -/
def numericCharacter (number : Nat) : Char :=
  if Entity.isOutside number then '\uFFFD' else Char.ofNat (Entity.windowsCode number)

/-- Whether a character may stand in the name of a reference in text. -/
def isReferenceCharacter (character : Char) : Bool :=
  Text.isLatinLetter character || Text.isLatinDigit character || character == '-' ||
    character == '.'

/-- A name of a reference in text must be followed by a character that is no letter and no digit;
at the end of the document a hyphen or point of the name itself takes that part. -/
def readName? (text : Text) : Option (Text × Text × Text) :=
  match text with
  | initial :: _ =>
    if Text.isLatinLetter initial then
      let (name, rest) := text.span isReferenceCharacter
      match rest with
      | ';' :: rest => some (name, name ++ [';'], rest)
      | next :: rest => some (name, name, next :: rest)
      | [] =>
        let kept := ((name.reverse.dropWhile fun character ↦
          Text.isLatinLetter character || Text.isLatinDigit character).drop 1).reverse
        if kept.isEmpty then none else some (kept, kept, name.drop kept.length)
    else none
  | [] => none

/-- The characters that a named reference in text stands for; an unknown name stands for itself
without the semicolon. -/
def namedCharacters (name : Text) : Text :=
  match (Entity.ofName? (name ++ [';'])).orElse fun _ ↦ Entity.ofName? name with
  | some characters => characters
  | none => '&' :: name

/-- Read at an ampersand, outside raw text. -/
def readReference (final : Bool) (text : Text) : Step :=
  match text.drop 1 with
  | '#' :: rest =>
    match readNumeric? rest with
    | some (number, source, rest) =>
      .read ⟨'&' :: '#' :: source, some (.text [numericCharacter number])⟩ none rest
    | none => if rest.contains ';' then .last (.ofText "&#".toList) rest else .stop
  | rest =>
    match readName? rest with
    | some (name, source, rest) =>
      .read ⟨'&' :: source, some (.text (namedCharacters name))⟩ none rest
    | none =>
      match rest with
      | [] => .stop
      | next :: following =>
        if Text.isLatinLetter next then
          if final && following.isEmpty then .last ⟨['&'], none⟩ rest else .stop
        else .read (.ofText ['&']) none rest

/-- The raw text element that a token opens. -/
def Token.opensRawText? : Token → Option Text
  | .start name _ false => if rawTextElements.contains name then some name else none
  | _ => none

/-- The part of an unfinished construct that is taken as text at the end of a document: up to and
with the next `>`, or up to the next `<`, or one character. -/
def unfinishedPart (text : Text) : Text :=
  let inside := text.drop 1
  match Text.cut? ['>'] inside with
  | some (before, _) => text.take 1 ++ before ++ ['>']
  | none =>
    match Text.cut? ['<'] inside with
    | some (before, _) => text.take 1 ++ before
    | none => text.take 1

/-- Read at a `<`, outside raw text. -/
def readMarkup (final : Bool) (text : Text) : Step :=
  match readConstruct text with
  | .rejected => .rejected
  | .complete lexeme rest => .read lexeme (lexeme.token.bind Token.opensRawText?) rest
  | .incomplete =>
    if final && 1 < text.length then
      let part := unfinishedPart text
      .read (.ofText part) none (text.drop part.length)
    else .stop

/-- Whether a character ends a run of text. -/
def endsText (references : References) (character : Char) : Bool :=
  character == '<' || (references == .decoded && character == '&')

/-- One step of reading a text that is not empty. -/
def step (references : References) (final : Bool) (raw : Option Text) (text : Text) : Step :=
  match raw with
  | some element =>
    match (recognizeRawEnd element).first? text with
    | none => .stop
    | some ([], source, rest) => .read ⟨source, some (.finish element)⟩ none rest
    | some (data, source, rest) => .read (.ofText data) raw (source ++ rest)
  | none =>
    match text.span fun character ↦ !endsText references character with
    | ([], rest) =>
      if rest.head? = some '<' then readMarkup final rest else readReference final rest
    | (data, rest) => .read (.ofText data) none rest

/-- Where a round of reading ended: the lexemes read, last first, whether inside raw text, and what
was not read. -/
structure Round where
  /-- The lexemes, last first. -/
  lexemes : List Lexeme
  /-- The raw text element that is open. -/
  raw : Option Text
  /-- The text that was not read. -/
  rest : Text

/-- Read until the text is over or reading stops; nothing if the document is rejected. -/
def round (references : References) (final : Bool) : Nat → Round → Option Round
  | 0, state => some state
  | fuel + 1, state =>
    if state.rest.isEmpty then some state
    else
      match step references final state.raw state.rest with
      | .read lexeme raw rest => round references final fuel ⟨lexeme :: state.lexemes, raw, rest⟩
      | .last lexeme rest => some ⟨lexeme :: state.lexemes, state.raw, rest⟩
      | .stop => some state
      | .rejected => none

/-- The lexemes of a document, or nothing if it has a marked section of an unknown kind. What is
left after the second round is text, unless a raw text element is open. -/
def lex? (references : References) (text : Text) : Option (List Lexeme) := do
  let first ← round references false text.length ⟨[], none, text⟩
  let second ← round references true first.rest.length first
  let lexemes :=
    if second.rest.isEmpty || second.raw.isSome then second.lexemes
    else .ofText second.rest :: second.lexemes
  return lexemes.reverse

end LocalizedSite.Html
