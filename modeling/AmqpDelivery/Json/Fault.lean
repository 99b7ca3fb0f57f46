/-!
# Faults of JSON text

What can be wrong with JSON text and where it shows. Places count lines from one and bytes within
the line; reading past the end of a line counts as the column behind its last byte.
-/

namespace AmqpDelivery.Json

/-- The reason why a text is no JSON, or not the JSON that was asked for. -/
inductive Cause where
  | endInList
  | endInObject
  | endInText
  | endInValue
  | expectedColon
  | expectedListCommaOrEnd
  | expectedObjectCommaOrEnd
  | expectedIdent
  | expectedValue
  | invalidEscape
  | invalidNumber
  | numberOutOfRange
  | invalidCodePoint
  | controlCharacter
  | keyMustBeText
  | loneSurrogate
  | trailingComma
  | trailingCharacters
  | truncatedSurrogate
  | tooDeep
  /-- The value is well-formed and of another kind than was asked for. -/
  | unsuitable (text : String)

/-- The wording of a cause. -/
def Cause.text : Cause → String
  | .endInList => "EOF while parsing a list"
  | .endInObject => "EOF while parsing an object"
  | .endInText => "EOF while parsing a string"
  | .endInValue => "EOF while parsing a value"
  | .expectedColon => "expected `:`"
  | .expectedListCommaOrEnd => "expected `,` or `]`"
  | .expectedObjectCommaOrEnd => "expected `,` or `\x7d`"
  | .expectedIdent => "expected ident"
  | .expectedValue => "expected value"
  | .invalidEscape => "invalid escape"
  | .invalidNumber => "invalid number"
  | .numberOutOfRange => "number out of range"
  | .invalidCodePoint => "invalid unicode code point"
  | .controlCharacter =>
      "control character (\\u0000-\\u001F) found while parsing a string"
  | .keyMustBeText => "key must be a string"
  | .loneSurrogate => "lone leading surrogate in hex escape"
  | .trailingComma => "trailing comma"
  | .trailingCharacters => "trailing characters"
  | .truncatedSurrogate => "unexpected end of hex escape"
  | .tooDeep => "recursion limit exceeded"
  | .unsuitable text => text

/-- A cause and the number of bytes in front of the place where it shows. -/
structure Fault where
  cause : Cause
  offset : Nat

end AmqpDelivery.Json
