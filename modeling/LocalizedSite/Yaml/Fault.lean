import LocalizedSite.Number.IntegerText

/-!
# Faults of a YAML text

A text can be malformed in its characters, in its structure, or in the value of a scalar. Only a fault
in a value has a wording of its own.
-/

namespace LocalizedSite.Yaml

/-- The part of a date or time that is out of range. -/
inductive TimePart where
  | year (value : Nat)
  | month
  | day
  | hour
  | minute
  | second
deriving DecidableEq, Repr

/-- Why a text has no value. -/
inductive Fault where
  /-- The text has a character that is not printable. -/
  | unprintable
  /-- A character cannot begin a token. -/
  | unexpectedCharacter
  /-- An entry, a key or a value stands where none may begin. -/
  | misplaced
  /-- A line that must be a key has no colon. -/
  | keyWithoutValue
  /-- A directive is malformed or comes twice. -/
  | malformedDirective
  /-- A tag is malformed, or its handle is not declared. -/
  | malformedTag
  /-- An anchor or alias has no name. -/
  | malformedAnchor
  /-- The header of a block scalar is malformed. -/
  | malformedHeader
  /-- A quoted text is not closed before its document ends. -/
  | unclosedQuote
  /-- An escape sequence is unknown. -/
  | unknownEscape
  /-- A token stands where another one is expected. -/
  | unexpectedToken
  /-- The text has more than one document. -/
  | secondDocument
  /-- An alias stands for nothing. -/
  | undefinedAlias
  /-- A mapping has a key twice. -/
  | duplicateKey
  /-- A key is a mapping. -/
  | mappingKey
  /-- A key is a list of lists. -/
  | nestedKey
  /-- What is merged into a mapping is no mapping. -/
  | unmergeable
  /-- The tag of a node is unknown or does not fit the node. -/
  | unknownTag
  /-- A date or time does not exist. -/
  | outOfRange (part : TimePart)
  /-- A text stands for no integer of a base. -/
  | noInteger (base : Nat) (text : Text)
  /-- A text stands for no number. -/
  | noNumber (text : Text)
  /-- An empty text is tagged as a number. -/
  | emptyNumber
  /-- A text stands for no truth value. -/
  | noTruth (text : Text)
  /-- A key comes twice in an ordered mapping. -/
  | repeatedEntry
  /-- An escape sequence denotes no character. -/
  | noCharacter
deriving DecidableEq, Repr

/-- The wording of a time part that is out of range. -/
def TimePart.message : TimePart → Text
  | .year value => "year ".toList ++ Text.ofNat value ++ " is out of range".toList
  | .month => "month must be in 1..12".toList
  | .day => "day is out of range for month".toList
  | .hour => "hour must be in 0..23".toList
  | .minute => "minute must be in 0..59".toList
  | .second => "second must be in 0..59".toList

/-- The wording of a fault in the value of a scalar. -/
def Fault.message? : Fault → Option Text
  | .outOfRange part => some part.message
  | .noInteger base text => some (noIntegerMessage base (Text.quoted text))
  | .noNumber text => some ("could not convert string to float: ".toList ++ Text.quoted text)
  | .emptyNumber => some "string index out of range".toList
  | .noTruth text => some text
  | .noCharacter => some "chr() arg not in range(0x110000)".toList
  | _ => none

end LocalizedSite.Yaml
