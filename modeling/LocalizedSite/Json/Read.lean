import LocalizedSite.Json.Fault
import LocalizedSite.Text.DecimalDigit

/-!
# Reading JSON

`Json.parse` reads one value with blanks around it. A repeated member name keeps its first place and
takes its last value, the names of the three numbers that are not finite are accepted, and a control
character must be escaped. Reading a value, the items of an array, or the members of an object
consumes at least one character, so the length of the text bounds the nesting of the calls.
-/

namespace LocalizedSite.Json

/-- Where reading stopped: a cause and the text that begins at the place of the fault. -/
structure Stop where
  /-- What is wrong. -/
  cause : Cause
  /-- The rest of the text from the place of the fault. -/
  rest : Text

/-- The four characters that may stand between the parts of a JSON text. -/
def isGap (character : Char) : Bool :=
  character == ' ' || character == '\t' || character == '\n' || character == '\r'

/-- The rest of a text after the gap at its beginning. -/
def skipGap (text : Text) : Text :=
  text.dropWhile isGap

/-- The number that four hexadecimal digits denote. -/
def unit? (first second third fourth : Char) : Option Nat := do
  let first ← Text.hexDigitValue? first
  let second ← Text.hexDigitValue? second
  let third ← Text.hexDigitValue? third
  let fourth ← Text.hexDigitValue? fourth
  return ((first * 16 + second) * 16 + third) * 16 + fourth

/-- Whether a code unit is the first of a surrogate pair. -/
def isHighSurrogate (unit : Nat) : Bool :=
  0xD800 ≤ unit && unit ≤ 0xDBFF

/-- Whether a code unit is the second of a surrogate pair. -/
def isLowSurrogate (unit : Nat) : Bool :=
  0xDC00 ≤ unit && unit ≤ 0xDFFF

/-- The character of a code unit; a surrogate that stands alone becomes the replacement
character. -/
def unitCharacter (unit : Nat) : Char :=
  if isHighSurrogate unit || isLowSurrogate unit then '\uFFFD' else Char.ofNat unit

/-- The character that a surrogate pair encodes. -/
def joinSurrogates (high low : Nat) : Char :=
  Char.ofNat (0x10000 + (high - 0xD800) * 0x400 + (low - 0xDC00))

/-- The characters of code units given last first, in front of the characters after them; a high
surrogate directly before a low one forms one character with it. -/
def settleUnits (later : Text) : List Nat → Text
  | [] => later
  | [unit] => unitCharacter unit :: later
  | unit :: before :: earlier =>
    if isLowSurrogate unit && isHighSurrogate before then
      settleUnits (joinSurrogates before unit :: later) earlier
    else settleUnits (unitCharacter unit :: later) (before :: earlier)

/-- The character that a one-letter escape stands for. -/
def simpleEscape? : Char → Option Char
  | '"' => some '"'
  | '\\' => some '\\'
  | '/' => some '/'
  | 'b' => some '\x08'
  | 'f' => some '\x0c'
  | 'n' => some '\n'
  | 'r' => some '\r'
  | 't' => some '\t'
  | _ => none

/-- Read the characters of a string literal up to the closing quote. `opening` is the text from the
opening quote on, and `done` holds the code units read so far, last first. A four-digit escape is
accepted only if a character follows it. -/
def readString (opening : Text) (done : List Nat) : Text → Except Stop (Text × Text)
  | [] => .error ⟨.unterminatedString, opening⟩
  | '"' :: rest => .ok (settleUnits [] done, rest)
  | ['\\'] => .error ⟨.unterminatedString, opening⟩
  | '\\' :: 'u' :: first :: second :: third :: fourth :: rest =>
    match if rest.isEmpty then none else unit? first second third fourth with
    | some unit => readString opening (unit :: done) rest
    | none => .error ⟨.invalidUnicodeEscape, 'u' :: first :: second :: third :: fourth :: rest⟩
  | '\\' :: letter :: rest =>
    if letter = 'u' then .error ⟨.invalidUnicodeEscape, letter :: rest⟩
    else
      match simpleEscape? letter with
      | some character => readString opening (character.toNat :: done) rest
      | none => .error ⟨.invalidEscape, '\\' :: letter :: rest⟩
  | character :: rest =>
    if character.toNat < 32 then .error ⟨.controlCharacter, character :: rest⟩
    else readString opening (character.toNat :: done) rest

/-- Read the integer digits of a number: a zero, or digits that do not begin with one. -/
def readWhole : Text → Option (Text × Text)
  | '0' :: rest => some (['0'], rest)
  | text =>
    match text.span Text.isLatinDigit with
    | ([], _) => none
    | (digits, rest) => some (digits, rest)

/-- Read a point with at least one digit after it, if one is there. -/
def readFraction : Text → Text × Text
  | '.' :: rest =>
    match rest.span Text.isLatinDigit with
    | ([], _) => ([], '.' :: rest)
    | (digits, following) => (digits, following)
  | text => ([], text)

/-- Read an exponent mark, an optional sign and at least one digit, if they are there. -/
def readExponent (text : Text) : Option Int × Text :=
  match text with
  | mark :: rest =>
    if mark = 'e' ∨ mark = 'E' then
      let (negative, unsigned) :=
        match rest with
        | '-' :: following => (true, following)
        | '+' :: following => (false, following)
        | _ => (false, rest)
      match unsigned.span Text.isLatinDigit with
      | ([], _) => (none, text)
      | (digits, following) =>
        let size : Int := Text.decimalValue digits
        (some (if negative then -size else size), following)
    else (none, text)
  | [] => (none, [])

/-- Read a number: an integer, or a floating-point number when it has a fraction or an
exponent. -/
def readNumber (text : Text) : Option (Json × Text) :=
  let (negative, unsigned) :=
    match text with
    | '-' :: rest => (true, rest)
    | _ => (false, text)
  (readWhole unsigned).map fun (whole, rest) ↦
    let (fraction, rest) := readFraction rest
    let (exponent, rest) := readExponent rest
    let digits := Text.decimalValue (whole ++ fraction)
    if fraction.isEmpty && exponent.isNone then
      (.integer (if negative then -(digits : Int) else digits), rest)
    else
      (.float (.ofDecimal ⟨negative, digits, exponent.getD 0 - fraction.length⟩), rest)

/-- The literal names of values. -/
def literals : List (Text × Json) :=
  [("null".toList, .null), ("true".toList, .boolean true), ("false".toList, .boolean false),
   ("NaN".toList, .float .nan), ("Infinity".toList, .float (.infinity false)),
   ("-Infinity".toList, .float (.infinity true))]

/-- Read a value that has no parts: a literal name or a number. -/
def readAtom (text : Text) : Except Stop (Json × Text) :=
  match literals.findSome? fun (name, value) ↦ (Text.after? name text).map (value, ·) with
  | some found => .ok found
  | none =>
    match readNumber text with
    | some found => .ok found
    | none => .error ⟨.valueExpected, text⟩

mutual

/-- Read one value at the beginning of a text. -/
def readValue : Nat → Text → Except Stop (Json × Text)
  | 0, text => .error ⟨.valueExpected, text⟩
  | depth + 1, text =>
    match text with
    | '"' :: rest => (readString text [] rest).map fun (value, rest) ↦ (.string value, rest)
    | '[' :: rest =>
      match skipGap rest with
      | ']' :: rest => .ok (.array [], rest)
      | rest => readItems depth [] rest
    | '\x7b' :: rest =>
      match skipGap rest with
      | '\x7d' :: rest => .ok (.object [], rest)
      | rest => readMembers depth [] rest
    | _ => readAtom text

/-- Read the items of an array up to the closing bracket; `done` holds the earlier ones in
reverse. -/
def readItems : Nat → List Json → Text → Except Stop (Json × Text)
  | 0, _, text => .error ⟨.valueExpected, text⟩
  | depth + 1, done, text =>
    match readValue depth text with
    | .error stop => .error stop
    | .ok (item, rest) =>
      match skipGap rest with
      | ']' :: rest => .ok (.array (item :: done).reverse, rest)
      | ',' :: rest => readItems depth (item :: done) (skipGap rest)
      | rest => .error ⟨.commaExpected, rest⟩

/-- Read the members of an object up to the closing brace; `done` holds the earlier ones in
reverse. -/
def readMembers : Nat → List (Text × Json) → Text → Except Stop (Json × Text)
  | 0, _, text => .error ⟨.nameExpected, text⟩
  | depth + 1, done, text =>
    match text with
    | '"' :: rest =>
      match readString text [] rest with
      | .error stop => .error stop
      | .ok (name, rest) =>
        match skipGap rest with
        | ':' :: rest =>
          match readValue depth (skipGap rest) with
          | .error stop => .error stop
          | .ok (value, rest) =>
            match skipGap rest with
            | '\x7d' :: rest => .ok (.object (Entries.ofList ((name, value) :: done).reverse), rest)
            | ',' :: rest => readMembers depth ((name, value) :: done) (skipGap rest)
            | rest => .error ⟨.commaExpected, rest⟩
        | rest => .error ⟨.colonExpected, rest⟩
    | _ => .error ⟨.nameExpected, text⟩

end

/-- Read a whole text as one value, or say where reading stopped. -/
def parseStop (text : Text) : Except Stop Json :=
  match text with
  | '\uFEFF' :: _ => .error ⟨.byteOrderMark, text⟩
  | _ =>
    match readValue (text.length + 1) (skipGap text) with
    | .error stop => .error stop
    | .ok (value, rest) =>
      match skipGap rest with
      | [] => .ok value
      | rest => .error ⟨.extraData, rest⟩

/-- Read a whole text as one value. -/
def parse (text : Text) : Except Fault Json :=
  match parseStop text with
  | .ok value => .ok value
  | .error stop => .error (.at stop.cause text (text.length - stop.rest.length))

end LocalizedSite.Json
