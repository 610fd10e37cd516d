/-
# What is wrong with a JSON text, and where

A reader works on what is left of a text, so it places a fault by the number
of bytes that are left after it. The line and column that a message gives are
computed from that count and the whole text: the line is one more than the
line ends before the place, the column the number of bytes since the last of
them.
-/

import CacheManifest.Text.Utf8

namespace CacheManifest

namespace Json

/-- How a text fails to be JSON. -/
inductive SyntaxError where
  | endOfValue
  | endOfObject
  | endOfList
  | endOfString
  | expectedValue
  | expectedLiteral
  | keyNotString
  | expectedColon
  | expectedCommaOrBrace
  | expectedCommaOrBracket
  | trailingComma
  | trailingCharacters
  | invalidNumber
  | numberOutOfRange
  | controlCharacter
  | invalidEscape
  | loneSurrogate
  | endOfEscape
deriving DecidableEq, Repr

/-- The words for a syntax error. -/
def SyntaxError.message : SyntaxError → String
  | .endOfValue => "EOF while parsing a value"
  | .endOfObject => "EOF while parsing an object"
  | .endOfList => "EOF while parsing a list"
  | .endOfString => "EOF while parsing a string"
  | .expectedValue => "expected value"
  | .expectedLiteral => "expected ident"
  | .keyNotString => "key must be a string"
  | .expectedColon => "expected `:`"
  | .expectedCommaOrBrace => "expected `,` or `\x7d`"
  | .expectedCommaOrBracket => "expected `,` or `]`"
  | .trailingComma => "trailing comma"
  | .trailingCharacters => "trailing characters"
  | .invalidNumber => "invalid number"
  | .numberOutOfRange => "number out of range"
  | .controlCharacter => "control character (\\u0000-\\u001F) found while parsing a string"
  | .invalidEscape => "invalid escape"
  | .loneSurrogate => "lone leading surrogate in hex escape"
  | .endOfEscape => "unexpected end of hex escape"

/-- A cause and the number of bytes left after the place where it shows. -/
structure Fault (Cause : Type) where
  cause : Cause
  remaining : Nat
deriving DecidableEq, Repr

/-- A fault at the end of the text. -/
def Fault.atEnd {Cause : Type} (cause : Cause) : Fault Cause := ⟨cause, 0⟩

/-- A fault just before what is left. -/
def Fault.before {Cause : Type} (cause : Cause) (rest : List Char) : Fault Cause :=
  ⟨cause, Utf8.width rest⟩

/-- A fault just after the first byte of what is left. -/
def Fault.at {Cause : Type} (cause : Cause) (rest : List Char) : Fault Cause :=
  ⟨cause, Utf8.width rest - 1⟩

/-- The same fault for another kind of cause. -/
def Fault.map {Cause Other : Type} (f : Cause → Other) (fault : Fault Cause) : Fault Other :=
  ⟨f fault.cause, fault.remaining⟩

/-- A place in a text, as it is told to a person. -/
structure Position where
  line : Nat
  column : Nat
deriving DecidableEq, Repr

/-- The position after a number of bytes of a text, counted on from a
position. A character may be split by the count. -/
def Position.advance (position : Position) : Nat → List Char → Position
  | _, [] => position
  | count, c :: rest =>
    let size := (Utf8.encodeChar c).length
    if count < size then ⟨position.line, position.column + count⟩
    else if c = '\n' then Position.advance ⟨position.line + 1, 0⟩ (count - size) rest
    else Position.advance ⟨position.line, position.column + size⟩ (count - size) rest

/-- Where a fault shows in a text. -/
def Fault.position {Cause : Type} (fault : Fault Cause) (text : List Char) : Position :=
  Position.advance ⟨1, 0⟩ (Utf8.width text - fault.remaining) text

end Json

end CacheManifest
